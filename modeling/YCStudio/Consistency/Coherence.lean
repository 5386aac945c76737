import YCStudio.Consistency.Operations

namespace YCStudio

namespace Database

structure Coherent (db : Database) : Prop where
  batches : ∀ source ∈ db.sources, ∀ batch ∈ db.ingestBatches, source.batchId = some batch.id →
    batch.collectionId = source.collectionId
  chunks : ∀ source ∈ db.sources, ∀ document ∈ db.documents, document.sourceId = source.id →
    ∀ chunk ∈ db.chunks, chunk.documentId = document.id → chunk.collectionId = source.collectionId

structure Shrinks (db db' : Database) : Prop where
  sources : ∀ source ∈ db'.sources, ∃ old ∈ db.sources, old.id = source.id ∧
    old.collectionId = source.collectionId ∧ ∀ id ∈ source.batchId, id ∈ old.batchId
  batches : ∀ batch ∈ db'.ingestBatches, batch ∈ db.ingestBatches
  documents : ∀ document ∈ db'.documents, ∃ old ∈ db.documents, old.id = document.id ∧
    old.sourceId = document.sourceId
  chunks : ∀ chunk ∈ db'.chunks, chunk ∈ db.chunks

variable {db db' : Database}

theorem Coherent.empty (users : List Uuid) : (Database.empty users).Coherent where
  batches _ hsource := absurd hsource (Table.not_mem_empty _)
  chunks _ hsource := absurd hsource (Table.not_mem_empty _)

theorem Coherent.shrinks (h : db.Coherent) (hshrinks : db.Shrinks db') : db'.Coherent where
  batches source hsource batch hbatch hid := by
    obtain ⟨old, hold, _, hcollection, hbatches⟩ := hshrinks.sources source hsource
    rw [← hcollection]
    exact h.batches old hold batch (hshrinks.batches batch hbatch) (hbatches batch.id hid)
  chunks source hsource document hdocument hsourceId chunk hchunk hdocumentId := by
    obtain ⟨old, hold, hid, hcollection, _⟩ := hshrinks.sources source hsource
    obtain ⟨oldDocument, holdDocument, hid', hsourceId'⟩ := hshrinks.documents document hdocument
    rw [← hcollection]
    exact h.chunks old hold oldDocument holdDocument ((hsourceId'.trans hsourceId).trans hid.symm)
      chunk (hshrinks.chunks chunk hchunk) (hdocumentId.trans hid'.symm)

theorem Shrinks.trans {db'' : Database} (h : db.Shrinks db') (h' : db'.Shrinks db'') :
    db.Shrinks db'' where
  sources source hsource := by
    obtain ⟨mid, hmid, hid, hcollection, hbatch⟩ := h'.sources source hsource
    obtain ⟨old, hold, hid', hcollection', hbatch'⟩ := h.sources mid hmid
    exact ⟨old, hold, hid'.trans hid, hcollection'.trans hcollection,
      fun id hmem => hbatch' id (hbatch id hmem)⟩
  batches batch hbatch := h.batches batch (h'.batches batch hbatch)
  documents document hdocument := by
    obtain ⟨mid, hmid, hid, hsource⟩ := h'.documents document hdocument
    obtain ⟨old, hold, hid', hsource'⟩ := h.documents mid hmid
    exact ⟨old, hold, hid'.trans hid, hsource'.trans hsource⟩
  chunks chunk hchunk := h.chunks chunk (h'.chunks chunk hchunk)

theorem Shrinks.putSource {source assigned : Source} (hsource : source ∈ db.sources)
    (hid : assigned.id = source.id) (hcollection : assigned.collectionId = source.collectionId)
    (hbatch : assigned.batchId = source.batchId) : db.Shrinks (db.putSource assigned) where
  sources row hrow := by
    rcases (Table.mem_put_of_mem hsource hid.symm).mp hrow with rfl | ⟨hrow, _⟩
    · exact ⟨source, hsource, hid.symm, hcollection.symm, fun _ h => hbatch ▸ h⟩
    · exact ⟨row, hrow, rfl, rfl, fun _ h => h⟩
  batches _ h := h
  documents document h := ⟨document, h, rfl, rfl⟩
  chunks _ h := h

theorem Shrinks.dropDocuments (db : Database) (sourceIds : List Uuid) :
    db.Shrinks (db.dropDocuments sourceIds) where
  sources source h := ⟨source, h, rfl, rfl, fun _ h => h⟩
  batches _ h := h
  documents document h := ⟨document, (mem_dropDocuments.mp h).1, rfl, rfl⟩
  chunks _ h := (mem_chunks_dropDocuments.mp h).1

theorem Shrinks.removeSource {source : Source} (hsource : source ∈ db.sources)
    (deletedAt : Timestamp) : db.Shrinks (db.removeSource source deletedAt) where
  sources := by
    have hput : db.Shrinks (db.putSource (source.softDelete deletedAt)) :=
      .putSource hsource rfl rfl rfl
    exact hput.sources
  batches _ h := h
  documents document h := by
    obtain ⟨old, hold, rfl⟩ := mem_softDelete.mp h
    refine ⟨old, hold, ?_, ?_⟩
    · split <;> rfl
    · split <;> rfl
  chunks _ h := (Table.mem_erase.mp h).1

theorem Shrinks.dropCollection (db : Database) (id : Uuid) : db.Shrinks (db.dropCollection id) where
  sources source h := by
    obtain ⟨old, hold, _, rfl⟩ := mem_sources_dropCollection.mp h
    exact ⟨old, hold, rfl, rfl, fun _ h => (Option.mem_filter_iff.mp h).1⟩
  batches _ h := (Table.mem_erase.mp h).1
  documents document h := ⟨document, (mem_dropDocuments.mp h).1, rfl, rfl⟩
  chunks _ h := (mem_chunks_dropDocuments.mp (mem_chunks_dropCollection.mp h).1).1

theorem Coherent.complete (h : db.Coherent) (hintact : db.Intact) {source : Source}
    {collection : Collection} {out : Ingested}
    (henabled : Event.Enabled (.complete source collection out) db) :
    (db.complete source out).Coherent where
  batches := by
    have hput : db.Shrinks (db.putSource (source.withStatus .completed)) :=
      .putSource henabled.1 rfl rfl rfl
    exact (h.shrinks hput).batches
  chunks row hrow document hdocument hsourceId chunk hchunk hdocumentId := by
    have hput : db.Shrinks (db.putSource (source.withStatus .completed)) :=
      .putSource henabled.1 rfl rfl rfl
    obtain ⟨hsource, _, _, hid, hfresh, hwell, haccepts⟩ := henabled
    rcases (Table.mem_insert hfresh).mp hdocument with hdocument | rfl
    · rcases (mem_addChunks haccepts).mp hchunk with hchunk | hchunk
      · exact (h.shrinks hput).chunks row hrow document hdocument hsourceId chunk hchunk hdocumentId
      · rw [hwell.documents chunk hchunk] at hdocumentId
        exact absurd hdocumentId.symm (hfresh document hdocument)
    · rcases (mem_addChunks haccepts).mp hchunk with hchunk | hchunk
      · obtain ⟨other, hother, hid'⟩ := hintact.chunkDocuments chunk hchunk
        exact absurd (hid'.trans hdocumentId) (hfresh other hother)
      · have hmem : source.withStatus .completed ∈
            (db.putSource (source.withStatus .completed)).sources := mem_putSource hsource rfl
        have hsame : row = source.withStatus .completed :=
          Table.eq_of_key_eq hrow hmem (hsourceId.symm.trans hwell.sourceId_eq)
        rw [hsame]
        exact (hwell.collections chunk hchunk).trans hid

theorem Coherent.apply (h : db.Coherent) (hintact : db.Intact) {e : Event} (henabled : e.Enabled db) :
    (e.apply db).Coherent := by
  cases e with
  | addCollection collection => exact ⟨h.batches, h.chunks⟩
  | addBatch batch =>
    refine ⟨?_, h.chunks⟩
    intro source hsource other hother hid
    rcases (Table.mem_insert henabled.1).mp hother with hother | rfl
    · exact h.batches source hsource other hother hid
    · obtain ⟨stored, hstored, hid'⟩ := hintact.sourceBatches source hsource _ hid
      exact absurd hid' (henabled.1 stored hstored)
  | addSource source =>
    obtain ⟨hfresh, _, _, _, hbatch⟩ := henabled
    constructor
    · intro row hrow batch hmem hid
      rcases (Table.mem_insert hfresh).mp hrow with hrow | rfl
      · exact h.batches row hrow batch hmem hid
      · obtain ⟨stored, hstored, hid', hcollection⟩ := hbatch batch.id hid
        rw [← Table.eq_of_key_eq hstored hmem hid']
        exact hcollection
    · intro row hrow document hdocument hsourceId
      rcases (Table.mem_insert hfresh).mp hrow with hrow | rfl
      · exact h.chunks row hrow document hdocument hsourceId
      · obtain ⟨stored, hstored, hid⟩ := hintact.documentSources document hdocument
        exact absurd (hid.trans hsourceId) (hfresh stored hstored)
  | reopen source assigned =>
    obtain ⟨hsource, _, _, hid, hcollection, hbatch⟩ := henabled
    have hdropped : source ∈ (db.dropDocuments [source.id]).sources := hsource
    exact h.shrinks ((Shrinks.dropDocuments db [source.id]).trans
      (.putSource hdropped hid hcollection hbatch))
  | assignBatch source batchId =>
    obtain ⟨hsource, _, hbatch⟩ := henabled
    have hput : ∀ row ∈ (db.putSource (source.withBatch batchId)).sources,
        row = source.withBatch batchId ∨ row ∈ db.sources := by
      intro row hrow
      have hid : source.id = (source.withBatch batchId).id := rfl
      exact ((Table.mem_put_of_mem hsource hid).mp hrow).imp id And.left
    constructor
    · intro row hrow batch hmem hid
      rcases hput row hrow with rfl | hrow
      · obtain ⟨stored, hstored, hid', hcollection⟩ := hbatch
        rw [← Table.eq_of_key_eq hstored hmem (hid'.trans (Option.some.inj hid))]
        exact hcollection
      · exact h.batches row hrow batch hmem hid
    · intro row hrow
      rcases hput row hrow with rfl | hrow
      · exact h.chunks source hsource
      · exact h.chunks row hrow
  | complete source collection out => exact h.complete hintact henabled
  | fail source errorMessage => exact h.shrinks (.putSource henabled.1 rfl rfl rfl)
  | remove source deletedAt => exact h.shrinks (.removeSource henabled deletedAt)
  | dropCollection id => exact h.shrinks (.dropCollection db id)

theorem Coherent.play (h : db.Coherent) (hintact : db.Intact) {events : List Event}
    (hadmissible : Event.Admissible events db) :
    (Event.play events db).Intact ∧ (Event.play events db).Coherent :=
  @History.preserved Database Event Event.apply Event.Enabled (fun db => db.Intact ∧ db.Coherent)
    (fun _ _ hinv henabled => ⟨hinv.1.apply henabled, hinv.2.apply hinv.1 henabled⟩)
    events db ⟨hintact, h⟩ hadmissible

end Database

theorem Operation.performAll_coherent (users : List Uuid) (ops : List Operation) :
    (performAll ops (.empty users)).Sound ∧
      (performAll ops (.empty users)).database.Coherent :=
  performAll_database (fun _ _ hintact hcoherent hadmissible =>
    (hcoherent.play hintact hadmissible).2) users (.empty users) ops

end YCStudio
