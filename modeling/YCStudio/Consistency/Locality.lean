import YCStudio.Consistency.Events

namespace YCStudio

structure Database.AgreesOff (before after : Database) (sourceId : Uuid) : Prop where
  sources : ∀ id, id ≠ sourceId → after.sources.get? id = before.sources.get? id
  documents : ∀ id, id ≠ sourceId → after.documentsOf id = before.documentsOf id
  chunks : ∀ document ∈ before.documents, document.sourceId ≠ sourceId →
    after.chunksOf document.id = before.chunksOf document.id

namespace Database

variable {db db' db'' : Database} {sourceId : Uuid}

theorem AgreesOff.refl (db : Database) (sourceId : Uuid) : db.AgreesOff db sourceId :=
  ⟨fun _ _ => rfl, fun _ _ => rfl, fun _ _ _ => rfl⟩

theorem AgreesOff.mem_documents (h : db.AgreesOff db' sourceId) {document : Document}
    (hne : document.sourceId ≠ sourceId) :
    document ∈ db'.documents ↔ document ∈ db.documents := by
  have hfilter := h.documents document.sourceId hne
  constructor
  · intro hmem
    have hof : document ∈ db'.documentsOf document.sourceId :=
      List.mem_filter.mpr ⟨hmem, decide_eq_true rfl⟩
    exact (List.mem_filter.mp (hfilter ▸ hof)).1
  · intro hmem
    have hof : document ∈ db.documentsOf document.sourceId :=
      List.mem_filter.mpr ⟨hmem, decide_eq_true rfl⟩
    exact (List.mem_filter.mp (hfilter ▸ hof)).1

theorem AgreesOff.mem_sources (h : db.AgreesOff db' sourceId) {source : Source}
    (hne : source.id ≠ sourceId) : source ∈ db'.sources ↔ source ∈ db.sources := by
  have hget := h.sources source.id hne
  constructor
  · intro hmem
    rw [Table.get?_key hmem] at hget
    exact (Table.get?_eq_some_iff.mp hget.symm).1
  · intro hmem
    rw [Table.get?_key hmem] at hget
    exact (Table.get?_eq_some_iff.mp hget).1

theorem AgreesOff.forall_sources {P Q : Source → Prop} (hagrees : db.AgreesOff db' sourceId)
    (h : ∀ source ∈ db.sources, P source) {assigned : Source} (hmem : assigned ∈ db'.sources)
    (hid : assigned.id = sourceId) (htouched : Q assigned)
    (hothers : ∀ source ∈ db.sources, source.id ≠ sourceId → P source → Q source) :
    ∀ source ∈ db'.sources, Q source := by
  intro source hsource
  by_cases hsame : source.id = sourceId
  · rw [Table.eq_of_key_eq hsource hmem (hsame.trans hid.symm)]
    exact htouched
  · have hold := (hagrees.mem_sources hsame).mp hsource
    exact hothers source hold hsame (h source hold)

theorem AgreesOff.trans (h : db.AgreesOff db' sourceId) (h' : db'.AgreesOff db'' sourceId) :
    db.AgreesOff db'' sourceId where
  sources id hne := (h'.sources id hne).trans (h.sources id hne)
  documents id hne := (h'.documents id hne).trans (h.documents id hne)
  chunks document hdocument hne :=
    (h'.chunks document ((h.mem_documents hne).mpr hdocument) hne).trans
      (h.chunks document hdocument hne)

theorem AgreesOff.putSource (db : Database) {source assigned : Source}
    (hid : assigned.id = source.id) : db.AgreesOff (db.putSource assigned) source.id where
  sources id hne := by
    rw [Table.get?_eq_head?, Table.get?_eq_head?]
    apply congrArg List.head?
    apply Table.filter_put_of_not
    · intro old _ hkey
      exact decide_eq_false fun h => hne (h.symm.trans (hkey.trans hid))
    · exact decide_eq_false fun h => hne (h.symm.trans hid)
  documents _ _ := rfl
  chunks _ _ _ := rfl

theorem AgreesOff.addSource (db : Database) (source : Source) :
    db.AgreesOff (db.addSource source) source.id where
  sources id hne := by
    rw [Table.get?_eq_head?, Table.get?_eq_head?]
    apply congrArg List.head?
    exact Table.filter_insert_of_not _ (decide_eq_false fun h => hne h.symm)
  documents _ _ := rfl
  chunks _ _ _ := rfl

theorem AgreesOff.dropDocuments (db : Database) (sourceId : Uuid) :
    db.AgreesOff (db.dropDocuments [sourceId]) sourceId where
  sources _ _ := rfl
  documents id hne := by
    apply Table.filter_erase
    intro document _ hid hdropped
    exact hne ((of_decide_eq_true hid).symm.trans (List.mem_singleton.mp hdropped))
  chunks document hdocument hne := by
    apply Table.filter_erase
    intro chunk _ hof hdropped
    obtain ⟨other, hother, hid⟩ := List.mem_map.mp hdropped
    obtain ⟨hother, hsource⟩ := List.mem_filter.mp hother
    have hsame := Table.eq_of_key_eq hother hdocument (hid.trans (of_decide_eq_true hof))
    exact hne (hsame ▸ List.mem_singleton.mp (of_decide_eq_true hsource))

theorem AgreesOff.addDocument (db : Database) (document : Document) :
    db.AgreesOff (db.addDocument document) document.sourceId where
  sources _ _ := rfl
  documents _ hne := Table.filter_insert_of_not _ (decide_eq_false fun h => hne h.symm)
  chunks _ _ _ := rfl

theorem AgreesOff.addChunks {document : Document} {chunks : List Chunk}
    (hmem : document ∈ db.documents) (hchunks : ∀ chunk ∈ chunks, chunk.documentId = document.id) :
    db.AgreesOff (db.addChunks chunks) document.sourceId where
  sources _ _ := rfl
  documents _ _ := rfl
  chunks other hother hne := by
    apply Table.filter_insertAll_of_not
    intro chunk hchunk
    apply decide_eq_false
    intro hid
    have hsame := Table.eq_of_key_eq hother hmem (hid.symm.trans (hchunks chunk hchunk))
    exact hne (congrArg Document.sourceId hsame)

theorem AgreesOff.complete {source : Source} {collection : Collection} {out : Ingested}
    (henabled : Event.Enabled (.complete source collection out) db) :
    db.AgreesOff (db.complete source out) source.id := by
  obtain ⟨_, _, _, _, hfresh, hwell, _⟩ := henabled
  have hput : db.AgreesOff (db.putSource (source.withStatus .completed)) source.id :=
    .putSource db rfl
  have hdocument := AgreesOff.addDocument (db.putSource (source.withStatus .completed)) out.document
  have hmem : out.document ∈
      ((db.putSource (source.withStatus .completed)).addDocument out.document).documents :=
    (Table.mem_insert hfresh).mpr (Or.inr rfl)
  have hchunks := AgreesOff.addChunks hmem hwell.documents
  rw [hwell.sourceId_eq] at hdocument hchunks
  exact (hput.trans hdocument).trans hchunks

theorem sourceId_eq_of_id_mem {document : Document} (hdocument : document ∈ db.documents)
    (hmem : document.id ∈ (db.documentsOf sourceId).map Document.id) :
    document.sourceId = sourceId := by
  obtain ⟨other, hother, hid⟩ := List.mem_map.mp hmem
  obtain ⟨hother, hsource⟩ := List.mem_filter.mp hother
  rw [← Table.eq_of_key_eq hother hdocument hid]
  exact of_decide_eq_true hsource

theorem AgreesOff.eraseChunks (db : Database) (sourceId : Uuid) :
    db.AgreesOff (db.eraseChunks ((db.documentsOf sourceId).map Document.id)) sourceId where
  sources _ _ := rfl
  documents _ _ := rfl
  chunks document hdocument hne := by
    apply Table.filter_erase
    intro chunk _ hof hdropped
    rw [of_decide_eq_true hof] at hdropped
    exact hne (sourceId_eq_of_id_mem hdocument hdropped)

theorem AgreesOff.softDelete {documentIds : List Uuid}
    (hids : ∀ document ∈ db.documents, document.id ∈ documentIds → document.sourceId = sourceId)
    (deletedAt : Timestamp) : db.AgreesOff (db.softDelete documentIds deletedAt) sourceId where
  sources _ _ := rfl
  documents id hne := by
    apply Table.filter_map_rows
    · intro document _
      split <;> rfl
    · intro document hdocument hof
      apply if_neg
      intro hmem
      exact hne ((of_decide_eq_true hof).symm.trans (hids document hdocument hmem))
  chunks _ _ _ := rfl

theorem AgreesOff.removeSource (db : Database) (source : Source) (deletedAt : Timestamp) :
    db.AgreesOff (db.removeSource source deletedAt) source.id := by
  let documentIds := (db.documentsOf source.id).map Document.id
  have hids : ∀ document ∈ (db.eraseChunks documentIds).documents, document.id ∈ documentIds →
      document.sourceId = source.id := by
    intro document hdocument hmem
    exact @sourceId_eq_of_id_mem db source.id document hdocument hmem
  have herased : db.AgreesOff (db.eraseChunks documentIds) source.id := .eraseChunks db source.id
  have hdeleted := AgreesOff.softDelete hids deletedAt
  have hput : ((db.eraseChunks documentIds).softDelete documentIds deletedAt).AgreesOff
      (db.removeSource source deletedAt) source.id := .putSource _ rfl
  exact (herased.trans hdeleted).trans hput

end Database

def Event.sourceId : Event → Option Uuid
  | addCollection _ => none
  | addBatch _ => none
  | addSource source => some source.id
  | reopen source _ => some source.id
  | assignBatch source _ => some source.id
  | complete source _ _ => some source.id
  | fail source _ => some source.id
  | remove source _ => some source.id
  | dropCollection _ => none

theorem Database.AgreesOff.apply {db : Database} {e : Event} (henabled : e.Enabled db)
    {sourceId : Uuid} (h : e.sourceId = some sourceId) : db.AgreesOff (e.apply db) sourceId := by
  cases e with
  | addCollection collection => cases h
  | addBatch batch => cases h
  | dropCollection id => cases h
  | addSource source =>
    cases h
    exact .addSource db source
  | reopen source assigned =>
    cases h
    exact (AgreesOff.dropDocuments db source.id).trans (.putSource _ henabled.2.2.2.1)
  | assignBatch source batchId =>
    cases h
    exact .putSource db rfl
  | complete source collection out =>
    cases h
    exact .complete henabled
  | fail source errorMessage =>
    cases h
    exact .putSource db rfl
  | remove source deletedAt =>
    cases h
    exact .removeSource db source deletedAt

theorem Database.AgreesOff.play {db : Database} {events : List Event} {sourceId : Uuid}
    (hadmissible : Event.Admissible events db)
    (hevents : ∀ e ∈ events, e.sourceId = some sourceId) :
    db.AgreesOff (Event.play events db) sourceId := by
  induction events generalizing db with
  | nil => exact .refl db sourceId
  | cons e events ih =>
    obtain ⟨hsource, hrest⟩ := List.forall_mem_cons.mp hevents
    exact (AgreesOff.apply hadmissible.1 hsource).trans (ih hadmissible.2 hrest)

end YCStudio
