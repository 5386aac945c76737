import YCStudio.Rag.ChunkOrdinals
import YCStudio.Services.Ingest
import YCStudio.Store.Integrity
import YCStudio.Store.Rules

namespace YCStudio

inductive Failure where
  | raised (e : Exn)
  | refused (e : Exn)
  deriving DecidableEq, Repr

structure Ingested where
  document : Document
  chunks : List Chunk
  deriving DecidableEq, Repr

def Ingested.result (out : Ingested) : IngestResult where
  sourceId := out.document.sourceId
  documentId := some out.document.id
  chunkCount := out.chunks.length
  skipped := false

namespace Pipeline

def reach (fault : Option Exn) : Except Failure Unit :=
  match fault with
  | none => .ok ()
  | some e => .error (.refused e)

def python {α : Type} (result : Except Exn α) : Except Failure α := result.mapError .raised

def chunkIds (documentId : Uuid) (count : Nat) : List Uuid :=
  (List.range count).map fun i => ⟨documentId.stream, documentId.draw + 1 + i⟩

def encodeSearchable (rt : Runtime) (fault : Option Exn) (embedding : Option LocalEmbedding)
    (chunkData : List ChunkData) : Except Failure Vectors := do
  reach fault
  let vectors ← python
    (rt.encodeTexts (chunkData.map ChunkData.text) rt.settings.embeddingBatchSize)
  python (vectorsOf embedding vectors)

def encode (rt : Runtime) (fault : Option Exn) (kind : CollectionKind)
    (embedding : Option LocalEmbedding) (chunkData : List ChunkData) : Except Failure Vectors :=
  if isWholeDocumentKind kind then .ok (withoutVectors chunkData)
  else encodeSearchable rt fault embedding chunkData

def firstFault (fault : FlushPoint → Option Exn) (size : Nat) :
    Nat → List (List Chunk) → Option Exn
  | _, [] => none
  | offset, _ :: rest => (fault (.chunks offset)).or (firstFault fault size (offset + size) rest)

def document (source : Source) (metadata : Option (List (Str × Str))) (documentId : Uuid)
    (createdAt : Timestamp) (parsed : ParseResult) (cleanedText : Str) : Document where
  id := documentId
  sourceId := source.id
  title := parsed.title
  rawText := cleanedText
  «meta» := documentMeta parsed metadata source.dirPath
  parserVersion := parsed.parserVersion
  createdAt
  deletedAt := none

def rows (collection : Collection) (documentId : Uuid) (encoded : Vectors)
    (zipped : List (ChunkData × Option Embedding)) : List Chunk :=
  ((chunkIds documentId zipped.length).zip zipped).map
    (chunkRow collection.id documentId encoded)

def outcome (rt : Runtime) (source : Source) (collection : Collection) (filename : Str)
    (fileBytes : Bytes) (metadata : Option (List (Str × Str)))
    (countTokens : Option (Str → Nat)) (documentId : Uuid) (createdAt : Timestamp) :
    Except Failure Ingested := do
  let fault := rt.flushFault filename
  reach (fault .parsing)
  let parsed ← python (rt.parseFile filename fileBytes)
  let cleanedText ← python (rt.clean parsed.text)
  let document := document source metadata documentId createdAt parsed cleanedText
  reach (fault .document)
  reach (fault .chunking)
  let (embedding, chunker) ← python (chunkerFor rt collection.kind countTokens)
  let chunkData ← python
    ((chunkForCollection cleanedText collection.kind chunker).mapError ChunkerError.exn)
  if chunkData = [] then
    reach (fault .completed)
    return { document, chunks := [] }
  else
    let encoded ← encode rt (fault .embedding) collection.kind embedding chunkData
    let zipped ← python (zipStrict chunkData encoded.vectors)
    let rows := rows collection documentId encoded zipped
    reach (firstFault fault rt.settings.ingestBatchSize 0
      (batches rt.settings.ingestBatchSize rows))
    reach (fault .completed)
    return { document, chunks := rows }

end Pipeline

def Database.complete (db : Database) (source : Source) (out : Ingested) : Database :=
  ((db.putSource (source.withStatus .completed)).addDocument out.document).addChunks
    out.chunks

def Attempts {α β : Type} (w : World) (done : β → α → World → Prop) (run : Except Exn α × World) :
    Except Failure β → Prop
  | .ok b => ∃ a w', run = (.ok a, w') ∧ done b a w'
  | .error (.raised e) => ∃ writes draws, run = (.error e, w.advance writes draws)
  | .error (.refused e) => ∃ draws, run = (.error e, (w.advance [] draws).refuse [])

namespace Attempts

variable {α β γ : Type} {w : World} {done : β → α → World → Prop} {f : γ → Program α}
  {g : γ → Except Failure β} {writes : List Write} {draws : Nat} {db : Database}

theorem step {p : Program γ} {a : γ} {w₁ w₂ : World} {o : Except Failure β}
    (hrun : Runs p w₁ (.ok a) w₂) (h : Attempts w done (exec (f a) w₂) o) :
    Attempts w done (exec (p >>= f) w₁) o := by
  have hbind : exec (p >>= f) w₁ = exec (f a) w₂ := hrun.bind rfl
  rw [hbind]
  exact h

theorem attempt {result : Except Exn γ}
    (h : ∀ c, result = .ok c →
      Attempts w done (exec (f c) (w.advance writes draws)) (g c)) :
    Attempts w done (exec (YCStudio.attempt result >>= f) (w.advance writes draws))
      (Pipeline.python result >>= g) := by
  cases result with
  | ok c => exact step (Runs.attempt _) (h c rfl)
  | error e => exact ⟨writes, draws, (Runs.attempt (.error e)).stop⟩

variable (hactive : w.session.health = .active)

include hactive

theorem flush {f : Unit → Program α} {g : Unit → Except Failure β} {fault : Option Exn}
    {writes' : List Write} (hview : w.view.applyAll writes = db)
    (haccepted : db.firstRefusal writes' = none)
    (h : fault = none → ∀ writes, w.view.applyAll writes = db.applyAll writes' →
      Attempts w done (exec (f ()) (w.advance writes draws)) (g ())) :
    Attempts w done (exec (YCStudio.flush fault writes' >>= f) (w.advance writes draws))
      (Pipeline.reach fault >>= g) := by
  have hactive' : (w.advance writes draws).session.health = .active := hactive
  cases fault with
  | some e => exact ⟨draws, (Runs.flushFault hactive' e writes').stop⟩
  | none =>
    have haccepted' : (w.advance writes draws).view.firstRefusal writes' = none := by
      rw [World.view_advance, hview]
      exact haccepted
    apply step (Runs.flush hactive' haccepted')
    rw [World.advance_advance]
    apply h rfl
    rw [Database.applyAll_append, hview]

theorem setStatus {f : Source → Program α} {g : Unit → Except Failure β} {fault : Option Exn}
    {source : Source} {status : IngestStatus} (hview : w.view.applyAll writes = db)
    (hmem : source ∈ db.sources)
    (h : fault = none → ∀ writes,
      w.view.applyAll writes = db.putSource (source.withStatus status) →
      Attempts w done (exec (f (source.withStatus status)) (w.advance writes draws)) (g ())) :
    Attempts w done (exec (YCStudio.setStatus fault source status >>= f) (w.advance writes draws))
      (Pipeline.reach fault >>= g) := by
  have haccepted : db.refusal (.updateSource source (source.withStatus status)) = none :=
    Database.refusal_updateSource hmem (Or.inl rfl) (Or.inl rfl)
  rw [YCStudio.setStatus, Script.bind_assoc]
  apply flush hactive hview ((db.firstRefusal_singleton _).trans haccepted)
  intro hfault writes hwrites
  apply h hfault
  rw [hwrites, Database.applyAll_cons, Database.applyAll_nil]
  exact Database.apply_updateSource hmem rfl rfl rfl

theorem insertBatches {f : Unit → Program α} {g : Unit → Except Failure β}
    {fault : FlushPoint → Option Exn} {size offset : Nat} {groups : List (List Chunk)}
    (hview : w.view.applyAll writes = db) (haccepts : db.Accepts groups.flatten)
    (h : ∀ writes, w.view.applyAll writes = db.addChunks groups.flatten →
      Attempts w done (exec (f ()) (w.advance writes draws)) (g ())) :
    Attempts w done
      (exec (YCStudio.insertBatches fault size offset groups >>= f) (w.advance writes draws))
      (Pipeline.reach (Pipeline.firstFault fault size offset groups) >>= g) := by
  induction groups generalizing offset writes db with
  | nil => exact step (Runs.pure ()) (h writes hview)
  | cons group groups ih =>
    obtain ⟨haccepted, happlied, hrest⟩ := haccepts.insert
    have hreach : Pipeline.reach (Pipeline.firstFault fault size offset (group :: groups)) >>= g =
        Pipeline.reach (fault (.chunks offset)) >>= fun _ =>
          Pipeline.reach (Pipeline.firstFault fault size (offset + size) groups) >>= g := by
      simp only [Pipeline.firstFault]
      cases fault (.chunks offset) <;> rfl
    rw [hreach, YCStudio.insertBatches, Script.bind_assoc]
    apply flush hactive hview haccepted
    intro _ writes hwrites
    rw [happlied] at hwrites
    apply ih hwrites hrest
    intro writes hwrites
    apply h
    rw [hwrites, Database.addChunks_append, List.flatten_cons]

end Attempts

end YCStudio
