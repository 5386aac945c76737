import YCStudio.Consistency.LostJobs
import YCStudio.Consistency.Settled
import YCStudio.Library.Overlay

namespace YCStudio

structure DocumentPortrait where
  title : Str
  rawText : Str
  «meta» : List (Str × MetaValue)
  parserVersion : Str
  deletedAt : Option Timestamp
  deriving DecidableEq, Repr

structure ChunkPortrait where
  ordinal : Nat
  text : Str
  tokenCount : Nat
  embedding : Option Embedding
  embedModel : Option Str
  embedVersion : Option Str
  deriving DecidableEq, Repr

structure Portrait where
  collectionId : Uuid
  filename : Str
  contentHash : Str
  ingestStatus : IngestStatus
  errorMessage : Option Str
  deletedAt : Option Timestamp
  documents : List (DocumentPortrait × List ChunkPortrait)
  deriving DecidableEq, Repr

-- Every call of parse_file copies the file to another temporary path.
def Document.portrait (document : Document) : DocumentPortrait where
  title := document.title
  rawText := document.rawText
  «meta» := document.meta.filter fun entry => entry.1 ≠ "source_path".toList
  parserVersion := document.parserVersion
  deletedAt := document.deletedAt

def Chunk.portrait (chunk : Chunk) : ChunkPortrait where
  ordinal := chunk.ordinal
  text := chunk.text
  tokenCount := chunk.tokenCount
  embedding := chunk.embedding
  embedModel := chunk.embedModel
  embedVersion := chunk.embedVersion

def Ingested.portrait (out : Ingested) : DocumentPortrait × List ChunkPortrait :=
  (out.document.portrait, out.chunks.map Chunk.portrait)

def Portrait.key (portrait : Portrait) : Uuid × Str := (portrait.collectionId, portrait.contentHash)

def Source.key (source : Source) : Uuid × Str := (source.collectionId, source.contentHash)

namespace Database

def portrait (db : Database) (source : Source) : Portrait where
  collectionId := source.collectionId
  filename := source.filename
  contentHash := source.contentHash
  ingestStatus := source.ingestStatus
  errorMessage := source.errorMessage
  deletedAt := source.deletedAt
  documents := (db.documentsOf source.id).map fun document =>
    (document.portrait, (db.chunksOf document.id).map Chunk.portrait)

def Shows (db : Database) (portrait : Portrait) : Prop :=
  ∃ source ∈ db.sources, db.portrait source = portrait

def LooksLike (db db' : Database) : Prop := ∀ portrait, db.Shows portrait ↔ db'.Shows portrait

variable {db db' : Database} {source : Source} {sourceId : Uuid}

@[simp] theorem key_portrait (db : Database) (source : Source) :
    (db.portrait source).key = source.key := rfl

theorem AgreesOff.portrait_eq (h : db.AgreesOff db' sourceId) (hne : source.id ≠ sourceId) :
    db'.portrait source = db.portrait source := by
  have hdocuments : (db'.documentsOf source.id).map (fun document =>
      (document.portrait, (db'.chunksOf document.id).map Chunk.portrait)) =
        (db.documentsOf source.id).map fun document =>
          (document.portrait, (db.chunksOf document.id).map Chunk.portrait) := by
    rw [h.documents source.id hne]
    apply List.map_congr_left
    intro document hdocument
    obtain ⟨hmem, hof⟩ := List.mem_filter.mp hdocument
    have hother : document.sourceId ≠ sourceId := of_decide_eq_true hof ▸ hne
    rw [h.chunks document hmem hother]
  rw [portrait, portrait, hdocuments]

theorem AgreesOff.overlays (h : db.AgreesOff db' sourceId) (hintact : db'.Intact)
    (hsource : source ∈ db'.sources) (hid : source.id = sourceId)
    (hsame : ∀ old ∈ db.sources, old.id = sourceId → old.key = source.key) :
    Overlays Portrait.key db.Shows db'.Shows [db'.portrait source] := by
  intro shown
  simp only [List.mem_singleton, List.map_cons, List.map_nil, key_portrait]
  constructor
  · rintro ⟨row, hrow, rfl⟩
    by_cases hrowId : row.id = sourceId
    · rw [Table.eq_of_key_eq hrow hsource (hrowId.trans hid.symm)]
      exact Or.inl rfl
    · refine Or.inr ⟨⟨row, (h.mem_sources hrowId).mp hrow, (h.portrait_eq hrowId).symm⟩, ?_⟩
      intro hkey
      obtain ⟨hcollection, hhash⟩ := Prod.mk.inj hkey
      exact hrowId (hintact.contents row hrow source hsource hcollection hhash ▸ hid)
  · rintro (rfl | ⟨⟨row, hrow, rfl⟩, hkey⟩)
    · exact ⟨source, hsource, rfl⟩
    · have hrowId : row.id ≠ sourceId := fun hrowId => hkey (hsame row hrow hrowId)
      exact ⟨row, (h.mem_sources hrowId).mpr hrow, h.portrait_eq hrowId⟩

theorem overlays_self (hintact : db.Intact) (hsource : source ∈ db.sources) :
    Overlays Portrait.key db.Shows db.Shows [db.portrait source] := by
  refine (AgreesOff.refl db source.id).overlays hintact hsource rfl fun old hold hid => ?_
  rw [Table.eq_of_key_eq hold hsource hid]

end Database

namespace Pipeline

theorem firstFault_congr (fault : FlushPoint → Option Exn) (size offset : Nat)
    {groups groups' : List (List Chunk)} (hlength : groups.length = groups'.length) :
    firstFault fault size offset groups = firstFault fault size offset groups' := by
  induction groups generalizing offset groups' with
  | nil => rw [List.length_eq_zero_iff.mp hlength.symm]
  | cons group groups ih =>
    cases groups' with
    | nil => cases hlength
    | cons group' groups' =>
      rw [firstFault, firstFault, ih (offset + size) (Nat.succ.inj hlength)]

theorem length_batches {α : Type} (size : Nat) (rows : List α) :
    (batches size rows).length = (rows.length + size - 1) / size := by
  simp [batches]

theorem portrait_rows (collection : Collection) (documentId : Uuid) (encoded : Vectors)
    (zipped : List (ChunkData × Option Embedding)) :
    (rows collection documentId encoded zipped).map Chunk.portrait =
      zipped.map fun entry =>
        { ordinal := entry.1.ordinal
          text := entry.1.text
          tokenCount := entry.1.tokenCount
          embedding := entry.2
          embedModel := encoded.embedModel
          embedVersion := encoded.embedVersion } := by
  have hlength : zipped.length ≤ (chunkIds documentId zipped.length).length := by simp [chunkIds]
  rw [rows, List.map_map]
  conv_rhs => rw [← List.map_snd_zip hlength, List.map_map]
  rfl

theorem portrait_document {source source' : Source} (hdirPath : source'.dirPath = source.dirPath)
    (metadata : Option (List (Str × Str))) (documentId documentId' : Uuid)
    (createdAt createdAt' : Timestamp) (parsed : ParseResult) (cleanedText : Str) :
    (document source' metadata documentId' createdAt' parsed cleanedText).portrait =
      (document source metadata documentId createdAt parsed cleanedText).portrait := by
  simp only [document, Document.portrait, hdirPath]

theorem portrait_outcome (rt : Runtime) {source source' : Source}
    (hdirPath : source'.dirPath = source.dirPath) (collection : Collection) (filename : Str)
    (fileBytes : Bytes) (metadata : Option (List (Str × Str))) (countTokens : Option (Str → Nat))
    (documentId documentId' : Uuid) (createdAt createdAt' : Timestamp) :
    (outcome rt source' collection filename fileBytes metadata countTokens documentId'
        createdAt').map Ingested.portrait =
      (outcome rt source collection filename fileBytes metadata countTokens documentId
        createdAt).map Ingested.portrait := by
  rw [outcome, outcome]
  refine Except.map_bind_congr _ fun _ => ?_
  refine Except.map_bind_congr _ fun parsed => ?_
  refine Except.map_bind_congr _ fun cleanedText => ?_
  refine Except.map_bind_congr _ fun _ => ?_
  refine Except.map_bind_congr _ fun _ => ?_
  refine Except.map_bind_congr _ fun configured => ?_
  obtain ⟨embedding, chunker⟩ := configured
  refine Except.map_bind_congr _ fun chunkData => ?_
  have hdocument := portrait_document hdirPath metadata documentId documentId' createdAt createdAt'
    parsed cleanedText
  by_cases hempty : chunkData = []
  · simp only [if_pos hempty]
    refine Except.map_bind_congr _ fun _ => ?_
    simp only [Pure.pure, Except.pure, Except.map, Ingested.portrait, hdocument]
  · simp only [if_neg hempty]
    refine Except.map_bind_congr _ fun encoded => ?_
    refine Except.map_bind_congr _ fun zipped => ?_
    have hbatches : (batches rt.settings.ingestBatchSize
        (rows collection documentId' encoded zipped)).length =
          (batches rt.settings.ingestBatchSize
            (rows collection documentId encoded zipped)).length := by
      rw [length_batches, length_batches, length_rows, length_rows]
    rw [firstFault_congr _ _ _ hbatches]
    refine Except.map_bind_congr _ fun _ => ?_
    refine Except.map_bind_congr _ fun _ => ?_
    simp only [Pure.pure, Except.pure, Except.map, Ingested.portrait, hdocument, portrait_rows]

end Pipeline

def Portrait.settle (portrait : Portrait) :
    Except Failure (DocumentPortrait × List ChunkPortrait) → Portrait
  | .ok document => { portrait with ingestStatus := .completed, documents := [document] }
  | .error failure =>
      { portrait with ingestStatus := .failed, errorMessage := some failure.exn.recorded }

@[simp] theorem Portrait.key_settle (portrait : Portrait)
    (outcome : Except Failure (DocumentPortrait × List ChunkPortrait)) :
    (portrait.settle outcome).key = portrait.key := by
  cases outcome <;> rfl

theorem settled_append {outcome : Except Failure Ingested} (h : LeavesStatus outcome)
    (admitted : List Event) (source : Source) (collection : Collection) :
    settled admitted source collection outcome =
      admitted ++ settled [] source collection outcome := by
  cases outcome with
  | ok out => rfl
  | error failure =>
    have hrecorded : failure.Recorded := h
    simp only [settled, if_pos hrecorded, List.nil_append]

theorem settled_eq_nil {outcome : Except Failure Ingested} (h : ¬ LeavesStatus outcome)
    (admitted : List Event) (source : Source) (collection : Collection) :
    settled admitted source collection outcome = [] := by
  cases outcome with
  | ok out => exact absurd trivial h
  | error failure => exact if_neg h

theorem leavesStatus_congr {outcome outcome' : Except Failure Ingested}
    (h : outcome'.map Ingested.portrait = outcome.map Ingested.portrait) :
    LeavesStatus outcome' ↔ LeavesStatus outcome := by
  cases outcome with
  | ok out =>
    cases outcome' with
    | ok out' => exact Iff.rfl
    | error failure' => cases h
  | error failure =>
    cases outcome' with
    | ok out' => cases h
    | error failure' =>
      cases h
      exact Iff.rfl

namespace Database

variable {db : Database} {source : Source} {collection : Collection}
  {outcome : Except Failure Ingested}

theorem portrait_complete (hintact : db.Intact) (hempty : db.documentsOf source.id = [])
    {out : Ingested} (henabled : Event.Enabled (.complete source collection out) db) :
    (db.complete source out).portrait (source.withStatus .completed) =
      (db.portrait source).settle (.ok out.portrait) := by
  have hdocuments : (db.complete source out).documentsOf (source.withStatus .completed).id =
      [out.document] := documentsOf_complete henabled hempty
  rw [portrait, hdocuments, List.map_singleton, chunksOf_complete henabled hintact]
  rfl

theorem overlays_settled (hintact : db.Intact) (hempty : db.documentsOf source.id = [])
    (hstatus : LeavesStatus outcome)
    (hadmissible : Event.Admissible (settled [] source collection outcome) db) :
    Overlays Portrait.key db.Shows (Event.play (settled [] source collection outcome) db).Shows
      [(db.portrait source).settle (outcome.map Ingested.portrait)] := by
  have hafter := hintact.play hadmissible
  have hsame : ∀ {row : Source}, source ∈ db.sources → row.key = source.key →
      ∀ old ∈ db.sources, old.id = source.id → old.key = row.key := by
    intro row hsource hkey old hold hid
    rw [Table.eq_of_key_eq hold hsource hid, hkey]
  cases outcome with
  | ok out =>
    obtain ⟨henabled, _⟩ := hadmissible
    have hmem : source.withStatus .completed ∈ (db.complete source out).sources :=
      mem_putSource henabled.1 rfl
    have hoverlays := (AgreesOff.complete henabled).overlays hafter hmem rfl
      (hsame henabled.1 rfl)
    rw [portrait_complete hintact hempty henabled] at hoverlays
    exact hoverlays
  | error failure =>
    have hrecorded : failure.Recorded := hstatus
    rw [settled, if_pos hrecorded, List.nil_append] at hadmissible hafter ⊢
    obtain ⟨henabled, _⟩ := hadmissible
    have hmem : source.fail failure.exn.recorded ∈
        (db.putSource (source.fail failure.exn.recorded)).sources := mem_putSource henabled.1 rfl
    have hagrees : db.AgreesOff (db.putSource (source.fail failure.exn.recorded)) source.id :=
      .putSource db rfl
    exact hagrees.overlays hafter hmem rfl (hsame henabled.1 rfl)

end Database

end YCStudio
