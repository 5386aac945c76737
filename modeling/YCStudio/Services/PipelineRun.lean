import YCStudio.Library.Traverse
import YCStudio.Services.Pipeline

namespace YCStudio

theorem flatten_batches {α : Type} {size : Nat} (hsize : 0 < size) (rows : List α) :
    (batches size rows).flatten = rows := by
  have hsofar : ∀ k, ((List.range k).map fun i => (rows.drop (i * size)).take size).flatten =
      rows.take (k * size) := by
    intro k
    induction k with
    | zero => rw [Nat.zero_mul, List.take_zero]; rfl
    | succ k ih =>
      rw [List.range_succ, List.map_append, List.flatten_append, ih, Nat.succ_mul, List.take_add]
      simp
  have hcover : rows.length ≤ (rows.length + size - 1) / size * size := by
    have hmod := Nat.div_add_mod (rows.length + size - 1) size
    have hlt := Nat.mod_lt (rows.length + size - 1) hsize
    rw [Nat.mul_comm] at hmod
    omega
  rw [batches, hsofar, List.take_of_length_le hcover]

def Chunk.EmbeddedFor (kind : CollectionKind) (chunk : Chunk) : Prop :=
  if isWholeDocumentKind kind then
    chunk.embedding = none ∧ chunk.embedModel = none ∧ chunk.embedVersion = none
  else chunk.embedding ≠ none ∧ chunk.embedModel ≠ none ∧ chunk.embedVersion ≠ none

structure Ingested.WellFormed (out : Ingested) (source : Source) (collection : Collection)
    (documentId : Uuid) : Prop where
  documentId_eq : out.document.id = documentId
  sourceId_eq : out.document.sourceId = source.id
  live : out.document.deletedAt = none
  collections : ∀ chunk ∈ out.chunks, chunk.collectionId = collection.id
  documents : ∀ chunk ∈ out.chunks, chunk.documentId = documentId
  ids : out.chunks.map Chunk.id = Pipeline.chunkIds documentId out.chunks.length
  ordinals : out.chunks.map Chunk.ordinal = List.range out.chunks.length
  embedded : ∀ chunk ∈ out.chunks, chunk.EmbeddedFor collection.kind

theorem chunkForCollection_eq_ok {text : Str} {kind : CollectionKind} {chunker : TextChunker}
    {chunkData : List ChunkData}
    (h : (chunkForCollection text kind chunker).mapError ChunkerError.exn = .ok chunkData) :
    chunkForCollection text kind chunker = .ok chunkData := by
  cases hresult : chunkForCollection text kind chunker with
  | ok data => rw [hresult] at h; cases h; rfl
  | error e => rw [hresult] at h; cases h

namespace Pipeline

theorem python_eq_ok {α : Type} {result : Except Exn α} {a : α} (h : python result = .ok a) :
    result = .ok a := by
  cases result with
  | ok b => cases h; rfl
  | error e => cases h

theorem chunkForCollection_ordinals {text : Str} {kind : CollectionKind} {chunker : TextChunker}
    {chunkData : List ChunkData} (h : chunkForCollection text kind chunker = .ok chunkData) :
    chunkData.map ChunkData.ordinal = List.range chunkData.length := by
  rw [chunkForCollection] at h
  split at h
  · cases h
    exact chunker.preserveAsSingleChunk_ordinals text
  · exact chunker.split_ordinals h

structure Vectors.For (kind : CollectionKind) (encoded : Vectors) : Prop where
  vectors : ∀ vector ∈ encoded.vectors, (vector = none ↔ isWholeDocumentKind kind)
  embedModel : encoded.embedModel = none ↔ isWholeDocumentKind kind
  embedVersion : encoded.embedVersion = none ↔ isWholeDocumentKind kind

theorem encode_for {rt : Runtime} {fault : Option Exn} {kind : CollectionKind}
    {embedding : Option LocalEmbedding} {chunkData : List ChunkData} {encoded : Vectors}
    (h : encode rt fault kind embedding chunkData = .ok encoded) : Vectors.For kind encoded := by
  rw [encode] at h
  split at h
  case isTrue hwhole =>
    cases h
    refine ⟨?_, iff_of_true rfl hwhole, iff_of_true rfl hwhole⟩
    intro vector hvector
    exact iff_of_true (List.eq_of_mem_replicate hvector) hwhole
  case isFalse hwhole =>
    obtain ⟨_, _, h⟩ := Except.bind_eq_ok h
    obtain ⟨vectors, _, h⟩ := Except.bind_eq_ok h
    cases embedding with
    | none => cases h
    | some embedding =>
      cases h
      refine ⟨?_, iff_of_false (Option.some_ne_none _) hwhole,
        iff_of_false (Option.some_ne_none _) hwhole⟩
      intro vector hvector
      obtain ⟨_, _, rfl⟩ := List.mem_map.mp hvector
      exact iff_of_false (Option.some_ne_none _) hwhole

theorem zipStrict_eq_ok {α β : Type} {xs : List α} {ys : List β} {zipped : List (α × β)}
    (h : zipStrict xs ys = .ok zipped) : zipped = xs.zip ys ∧ xs.length = ys.length := by
  rw [zipStrict] at h
  split at h
  · cases h
  · split at h
    · cases h
    · cases h
      exact ⟨rfl, by omega⟩

theorem length_chunkIds (documentId : Uuid) (count : Nat) :
    (chunkIds documentId count).length = count := by
  rw [chunkIds, List.length_map, List.length_range]

theorem length_rows (collection : Collection) (documentId : Uuid) (encoded : Vectors)
    (zipped : List (ChunkData × Option Embedding)) :
    (rows collection documentId encoded zipped).length = zipped.length := by
  rw [rows, List.length_map, List.length_zip, length_chunkIds, Nat.min_self]

theorem mem_rows {collection : Collection} {documentId : Uuid} {encoded : Vectors}
    {zipped : List (ChunkData × Option Embedding)} {chunk : Chunk}
    (h : chunk ∈ rows collection documentId encoded zipped) :
    ∃ id, ∃ entry ∈ zipped, chunk = chunkRow collection.id documentId encoded (id, entry) := by
  obtain ⟨⟨id, entry⟩, hentry, rfl⟩ := List.mem_map.mp h
  exact ⟨id, entry, (List.of_mem_zip hentry).2, rfl⟩

theorem rows_ids (collection : Collection) (documentId : Uuid) (encoded : Vectors)
    (zipped : List (ChunkData × Option Embedding)) :
    (rows collection documentId encoded zipped).map Chunk.id =
      chunkIds documentId zipped.length := by
  rw [rows, List.map_map]
  exact List.map_fst_zip (Nat.le_of_eq (length_chunkIds documentId zipped.length))

theorem rows_ordinals (collection : Collection) (documentId : Uuid) (encoded : Vectors)
    (zipped : List (ChunkData × Option Embedding)) :
    (rows collection documentId encoded zipped).map Chunk.ordinal =
      zipped.map fun entry => entry.1.ordinal := by
  have hsnd : ((chunkIds documentId zipped.length).zip zipped).map Prod.snd = zipped :=
    List.map_snd_zip (Nat.le_of_eq (length_chunkIds documentId zipped.length).symm)
  have hmap := congrArg (List.map fun entry : ChunkData × Option Embedding => entry.1.ordinal) hsnd
  rw [List.map_map] at hmap
  rw [rows, List.map_map]
  exact hmap

variable {rt : Runtime} {source : Source} {collection : Collection} {filename : Str}
  {fileBytes : Bytes} {metadata : Option (List (Str × Str))} {countTokens : Option (Str → Nat)}
  {documentId : Uuid} {createdAt : Timestamp} {out : Ingested}

theorem rows_wellFormed {parsed : ParseResult} {cleanedText : Str} {chunker : TextChunker}
    {chunkData : List ChunkData} {encoded : Vectors} {zipped : List (ChunkData × Option Embedding)}
    (hchunks : chunkForCollection cleanedText collection.kind chunker = .ok chunkData)
    (hencoded : Vectors.For collection.kind encoded)
    (hzipped : zipStrict chunkData encoded.vectors = .ok zipped) :
    Ingested.WellFormed
      { document := document source metadata documentId createdAt parsed cleanedText
        chunks := rows collection documentId encoded zipped }
      source collection documentId := by
  obtain ⟨rfl, hlength⟩ := zipStrict_eq_ok hzipped
  refine ⟨rfl, rfl, rfl, ?_, ?_, ?_, ?_, ?_⟩
  · intro chunk hchunk
    obtain ⟨_, _, _, rfl⟩ := mem_rows hchunk
    rfl
  · intro chunk hchunk
    obtain ⟨_, _, _, rfl⟩ := mem_rows hchunk
    rfl
  · rw [rows_ids, length_rows]
  · have hfst : (chunkData.zip encoded.vectors).map Prod.fst = chunkData :=
      List.map_fst_zip (Nat.le_of_eq hlength)
    have hmap := congrArg (List.map ChunkData.ordinal) hfst
    rw [List.map_map] at hmap
    rw [rows_ordinals, length_rows, List.length_zip, ← hlength, Nat.min_self,
      ← chunkForCollection_ordinals hchunks]
    exact hmap
  · intro chunk hchunk
    obtain ⟨id, ⟨data, vector⟩, hentry, rfl⟩ := mem_rows hchunk
    have hvector := hencoded.vectors vector (List.of_mem_zip hentry).2
    rw [Chunk.EmbeddedFor]
    split
    case isTrue hwhole =>
      exact ⟨hvector.mpr hwhole, hencoded.embedModel.mpr hwhole, hencoded.embedVersion.mpr hwhole⟩
    case isFalse hwhole =>
      exact ⟨fun h => hwhole (hvector.mp h), fun h => hwhole (hencoded.embedModel.mp h),
        fun h => hwhole (hencoded.embedVersion.mp h)⟩

theorem outcome_eq_ok
    (h : outcome rt source collection filename fileBytes metadata countTokens documentId createdAt =
      .ok out) :
    ∃ parsed cleanedText embedding chunker chunkData, rt.parseFile filename fileBytes = .ok parsed ∧
      rt.clean parsed.text = .ok cleanedText ∧
      chunkerFor rt collection.kind countTokens = .ok (embedding, chunker) ∧
      chunkForCollection cleanedText collection.kind chunker = .ok chunkData ∧
      out.document = document source metadata documentId createdAt parsed cleanedText ∧
      (chunkData = [] ∧ out.chunks = [] ∨ ∃ encoded zipped,
        encode rt (rt.flushFault filename .embedding) collection.kind embedding chunkData = .ok encoded ∧
        zipStrict chunkData encoded.vectors = .ok zipped ∧
        out.chunks = rows collection documentId encoded zipped) := by
  rw [outcome] at h
  obtain ⟨_, _, h⟩ := Except.bind_eq_ok h
  obtain ⟨parsed, hparsed, h⟩ := Except.bind_eq_ok h
  obtain ⟨cleanedText, hcleaned, h⟩ := Except.bind_eq_ok h
  obtain ⟨_, _, h⟩ := Except.bind_eq_ok h
  obtain ⟨_, _, h⟩ := Except.bind_eq_ok h
  obtain ⟨⟨embedding, chunker⟩, hbuilt, h⟩ := Except.bind_eq_ok h
  obtain ⟨chunkData, hchunks, h⟩ := Except.bind_eq_ok h
  refine ⟨parsed, cleanedText, embedding, chunker, chunkData, python_eq_ok hparsed,
    python_eq_ok hcleaned, python_eq_ok hbuilt, chunkForCollection_eq_ok (python_eq_ok hchunks), ?_⟩
  dsimp only at h
  split at h
  · next hempty =>
    obtain ⟨_, _, h⟩ := Except.bind_eq_ok h
    cases h
    exact ⟨rfl, Or.inl ⟨hempty, rfl⟩⟩
  · obtain ⟨encoded, hencoded, h⟩ := Except.bind_eq_ok h
    obtain ⟨zipped, hzipped, h⟩ := Except.bind_eq_ok h
    obtain ⟨_, _, h⟩ := Except.bind_eq_ok h
    obtain ⟨_, _, h⟩ := Except.bind_eq_ok h
    cases h
    exact ⟨rfl, Or.inr ⟨encoded, zipped, hencoded, python_eq_ok hzipped, rfl⟩⟩

theorem outcome_wellFormed
    (h : outcome rt source collection filename fileBytes metadata countTokens documentId createdAt =
      .ok out) : out.WellFormed source collection documentId := by
  obtain ⟨parsed, cleanedText, _, _, _, _, _, _, hchunks, hdocument, hrows⟩ := outcome_eq_ok h
  obtain ⟨outDocument, chunks⟩ := out
  obtain rfl : outDocument = _ := hdocument
  rcases hrows with ⟨_, rfl⟩ | ⟨encoded, zipped, hencoded, hzipped, rfl⟩
  · exact ⟨rfl, rfl, rfl, by simp, by simp, rfl, rfl, by simp⟩
  · exact rows_wellFormed hchunks (encode_for hencoded) hzipped

end Pipeline

structure World.Sound (w : World) : Prop where
  intact : w.view.Intact
  before : w.view.Before w.session.stream w.session.drawn

theorem mem_chunkIds {documentId id : Uuid} {count : Nat}
    (h : id ∈ Pipeline.chunkIds documentId count) :
    ∃ i < count, id = ⟨documentId.stream, documentId.draw + 1 + i⟩ := by
  obtain ⟨i, hi, rfl⟩ := List.mem_map.mp h
  exact ⟨i, List.mem_range.mp hi, rfl⟩

theorem nodup_chunkIds (documentId : Uuid) (count : Nat) :
    (Pipeline.chunkIds documentId count).Nodup := by
  apply List.Nodup.map _ List.nodup_range
  intro i j h
  simp only [Uuid.mk.injEq, true_and] at h
  omega

theorem Database.Before.fresh_document {db : Database} {stream drawn : Nat}
    (h : db.Before stream drawn) : db.documents.Fresh ⟨stream, drawn⟩ :=
  fun row hrow => (h.documents row hrow).ne (Nat.le_refl drawn)

theorem Ingested.WellFormed.accepts {db : Database} {stream drawn : Nat} {out : Ingested}
    {source : Source} {collection : Collection}
    (hwell : out.WellFormed source collection ⟨stream, drawn⟩) (hintact : db.Intact)
    (hbefore : db.Before stream drawn) (hcollection : collection ∈ db.kbCollections) :
    (db.addDocument out.document).Accepts out.chunks where
  collections chunk hchunk := ⟨collection, hcollection, (hwell.collections chunk hchunk).symm⟩
  documents chunk hchunk := by
    have hfresh : db.documents.Fresh out.document.id :=
      hwell.documentId_eq ▸ hbefore.fresh_document
    refine ⟨out.document, (Table.mem_insert hfresh).mpr (Or.inr rfl), ?_⟩
    rw [hwell.documentId_eq, hwell.documents chunk hchunk]
  fresh chunk hchunk row hrow := by
    have hid : chunk.id ∈ out.chunks.map Chunk.id := List.mem_map_of_mem hchunk
    rw [hwell.ids] at hid
    obtain ⟨i, _, hid⟩ := mem_chunkIds hid
    rw [hid]
    exact (hbefore.chunks row hrow).ne (by simp only; omega)
  ids := by
    rw [hwell.ids]
    exact nodup_chunkIds _ _
  ordinals chunk hchunk other hother hdocument := by
    obtain ⟨document, hmem, hid⟩ := hintact.chunkDocuments other hother
    rw [hdocument, hwell.documents chunk hchunk] at hid
    exact absurd hid (hbefore.fresh_document document hmem)
  distinct := by
    rw [hwell.ordinals]
    exact List.nodup_range

def Completes (w : World) (source : Source) (out : Ingested) (result : IngestResult)
    (w' : World) : Prop :=
  result = out.result ∧
    ∃ writes, w' = w.advance writes (1 + out.chunks.length) ∧
      w.view.applyAll writes = w.view.complete source out

section Run

variable (rt : Runtime) {w : World} {source : Source} {collection : Collection} (filename : Str)
  (fileBytes : Bytes) (metadata : Option (List (Str × Str))) (countTokens : Option (Str → Nat))

theorem encodeChunks_attempts {α β : Type} {done : β → α → World → Prop}
    (hactive : w.session.health = .active) {fault : Option Exn} {kind : CollectionKind}
    {embedding : Option LocalEmbedding} {chunkData : List ChunkData} {db : Database}
    {writes : List Write} {draws : Nat} {f : Source × Vectors → Program α}
    {g : Vectors → Except Failure β} {status : IngestStatus}
    (hview : w.view.applyAll writes = db) (hmem : source.withStatus status ∈ db.sources)
    (h : ∀ status' encoded writes,
      Pipeline.encode rt fault kind embedding chunkData = .ok encoded →
      w.view.applyAll writes = db.putSource (source.withStatus status') →
      Attempts w done
        (exec (f (source.withStatus status', encoded)) (w.advance writes draws)) (g encoded)) :
    Attempts w done
      (exec (encodeChunks rt fault (source.withStatus status) kind embedding chunkData >>= f)
        (w.advance writes draws))
      (Pipeline.encode rt fault kind embedding chunkData >>= g) := by
  unfold Pipeline.encode at h ⊢
  unfold encodeChunks
  split at h
  case isTrue hwhole =>
    rw [if_pos hwhole, if_pos hwhole]
    refine Attempts.step (Runs.pure _) (h status _ writes rfl ?_)
    rw [hview]
    simp only [Database.putSource, Table.put_self hmem]
  case isFalse hwhole =>
    rw [if_neg hwhole, if_neg hwhole, encodeSearchable, Pipeline.encodeSearchable,
      Script.bind_assoc, bind_assoc]
    refine Attempts.setStatus hactive hview hmem ?_
    intro hfault writes' hview'
    rw [Script.bind_assoc, bind_assoc]
    refine Attempts.attempt ?_
    intro vectors hvectors
    rw [Script.bind_assoc]
    refine Attempts.attempt ?_
    intro encoded hencoded
    have hencode : Pipeline.encodeSearchable rt fault embedding chunkData = .ok encoded := by
      rw [Pipeline.encodeSearchable, hfault, hvectors]
      exact congrArg Pipeline.python hencoded
    exact Attempts.step (Runs.pure _)
      (h .embedding encoded writes' hencode hview')

theorem runPipeline_attempts (hactive : w.session.health = .active) (hsound : w.Sound)
    (hsource : source ∈ w.view.sources) (hcollection : collection ∈ w.view.kbCollections) :
    Attempts w (Completes w source)
      (exec (runPipeline rt source collection filename fileBytes metadata countTokens) w)
      (Pipeline.outcome rt source collection filename fileBytes metadata countTokens
        ⟨w.session.stream, w.session.drawn⟩ w.session.now) := by
  have hstart : Attempts w (Completes w source)
      (exec (runPipeline rt source collection filename fileBytes metadata countTokens)
        (w.advance [] 0))
      (Pipeline.outcome rt source collection filename fileBytes metadata countTokens
        ⟨w.session.stream, w.session.drawn⟩ w.session.now) := by
    rw [runPipeline, Pipeline.outcome]
    refine Attempts.setStatus hactive rfl hsource ?_
    intro _ writes hview
    refine Attempts.attempt ?_
    intro parsed _
    refine Attempts.attempt ?_
    intro cleanedText _
    refine Attempts.step Runs.newId ?_
    refine Attempts.step Runs.now ?_
    rw [World.advance_advance]
    let documentId : Uuid := ⟨w.session.stream, w.session.drawn⟩
    let document := Pipeline.document source metadata documentId w.session.now parsed cleanedText
    have hparsing : source.withStatus .parsing ∈
        (w.view.putSource (source.withStatus .parsing)).sources :=
      Database.mem_putSource hsource rfl
    have hdocument : (w.view.putSource (source.withStatus .parsing)).refusal
        (.insertDocument document) = none :=
      Database.refusal_insertDocument hsound.before.fresh_document hparsing rfl
    refine Attempts.flush hactive ((congrArg _ (List.append_nil _)).trans hview)
      ((Database.firstRefusal_singleton _ _).trans hdocument) ?_
    intro _ writes hview
    refine Attempts.setStatus hactive hview hparsing ?_
    intro _ writes hview
    refine Attempts.attempt ?_
    rintro ⟨embedding, chunker⟩ _
    refine Attempts.attempt ?_
    intro chunkData hchunkData
    have hmem : ∀ status, source.withStatus status ∈
        ((w.view.addDocument document).putSource (source.withStatus status)).sources :=
      fun status => Database.mem_putSource hsource rfl
    have hchunking : w.view.applyAll writes =
        (w.view.addDocument document).putSource (source.withStatus .chunking) :=
      hview.trans (Database.putSource_putSource (w.view.addDocument document) rfl)
    split
    case isTrue hempty =>
      refine Attempts.setStatus hactive hchunking (hmem .chunking) ?_
      intro _ writes hview
      refine ⟨_, _, rfl, rfl, writes, rfl, hview.trans ?_⟩
      exact Database.putSource_putSource (w.view.addDocument document) rfl
    case isFalse hnonempty =>
      refine encodeChunks_attempts rt hactive hchunking (hmem .chunking) ?_
      intro status encoded writes hencoded hview
      refine Attempts.attempt ?_
      intro zipped hzipped
      have hwell : Ingested.WellFormed
          ⟨document, Pipeline.rows collection documentId encoded zipped⟩ source collection
          documentId :=
        Pipeline.rows_wellFormed (chunkForCollection_eq_ok hchunkData)
          (Pipeline.encode_for hencoded) hzipped
      have haccepts := hwell.accepts hsound.intact hsound.before hcollection
      have hencoding : w.view.applyAll writes =
          (w.view.addDocument document).putSource (source.withStatus status) :=
        hview.trans (Database.putSource_putSource (w.view.addDocument document) rfl)
      have hbatches := flatten_batches rt.settings.ingestBatchSize_pos
        (Pipeline.rows collection documentId encoded zipped)
      refine Attempts.step (Runs.newIds _) ?_
      rw [World.advance_advance]
      refine Attempts.insertBatches hactive ((congrArg _ (List.append_nil _)).trans hencoding)
        (hbatches.symm ▸ haccepts.putSource (source.withStatus status)) ?_
      intro writes hview
      refine Attempts.setStatus hactive hview (hmem status) ?_
      intro _ writes hview
      refine ⟨_, _, rfl, rfl, writes, ?_, hview.trans ?_⟩
      · rw [Pipeline.length_rows, Nat.zero_add]
      · exact (congrArg (fun rows => (((w.view.addDocument document).putSource
          (source.withStatus status)).addChunks rows).putSource (source.withStatus .completed))
          hbatches).trans (Database.putSource_putSource
            ((w.view.addDocument document).addChunks _) rfl)
  rw [World.advance_nil] at hstart
  exact hstart

end Run

end YCStudio
