import YCStudio.Consistency.Coherence

namespace YCStudio

instance (collection : Collection) (user : Uuid) : Decidable (collection.OwnedBy user) :=
  decidable_of_iff (collection.scope = .private ∧ collection.userId = some user)
    ⟨fun h => ⟨h.1, h.2⟩, fun h => ⟨h.1, h.2⟩⟩

namespace Database

structure SameUnder (before after : Database) (collectionId : Uuid) : Prop where
  batches : after.batchesOf collectionId = before.batchesOf collectionId
  sources : after.sourcesOf collectionId = before.sourcesOf collectionId
  documents : ∀ source ∈ before.sourcesOf collectionId,
    after.documentsOf source.id = before.documentsOf source.id
  chunks : after.chunks.rows.filter (·.collectionId = collectionId) =
    before.chunks.rows.filter (·.collectionId = collectionId)

variable {db db' db'' : Database} {collectionId : Uuid}

theorem SameUnder.refl (db : Database) (collectionId : Uuid) : db.SameUnder db collectionId :=
  ⟨rfl, rfl, fun _ _ => rfl, rfl⟩

theorem SameUnder.trans (h : db.SameUnder db' collectionId) (h' : db'.SameUnder db'' collectionId) :
    db.SameUnder db'' collectionId where
  batches := h'.batches.trans h.batches
  sources := h'.sources.trans h.sources
  documents source hsource :=
    (h'.documents source (h.sources.symm ▸ hsource)).trans (h.documents source hsource)
  chunks := h'.chunks.trans h.chunks

theorem sourcesOf_putSource {source assigned : Source} (hsource : source ∈ db.sources)
    (hid : assigned.id = source.id) (hcollection : assigned.collectionId = source.collectionId)
    (hne : source.collectionId ≠ collectionId) :
    (db.putSource assigned).sourcesOf collectionId = db.sourcesOf collectionId := by
  apply Table.filter_put_of_not
  · intro old hold hkey
    rw [Table.eq_of_key_eq hold hsource (hkey.trans hid)]
    exact decide_eq_false hne
  · exact decide_eq_false fun h => hne (hcollection.symm.trans h)

theorem SameUnder.of_agreesOff {source : Source} (hsource : source ∈ db.sources)
    (hne : source.collectionId ≠ collectionId) (hagrees : db.AgreesOff db' source.id)
    (hbatches : db'.ingestBatches = db.ingestBatches)
    (hsources : db'.sourcesOf collectionId = db.sourcesOf collectionId)
    (hchunks : db'.chunks.rows.filter (·.collectionId = collectionId) =
      db.chunks.rows.filter (·.collectionId = collectionId)) :
    db.SameUnder db' collectionId where
  batches := by rw [batchesOf, hbatches, batchesOf]
  sources := hsources
  documents other hother := by
    obtain ⟨hmem, hcollection⟩ := List.mem_filter.mp hother
    apply hagrees.documents
    intro hid
    rw [Table.eq_of_key_eq hmem hsource hid] at hcollection
    exact hne (of_decide_eq_true hcollection)
  chunks := hchunks

theorem SameUnder.putSource {source assigned : Source} (hsource : source ∈ db.sources)
    (hid : assigned.id = source.id) (hcollection : assigned.collectionId = source.collectionId)
    (hne : source.collectionId ≠ collectionId) :
    db.SameUnder (db.putSource assigned) collectionId :=
  .of_agreesOff hsource hne (.putSource db hid) rfl (sourcesOf_putSource hsource hid hcollection hne)
    rfl

theorem Coherent.chunk_collectionId (h : db.Coherent) {source : Source} (hsource : source ∈ db.sources)
    {document : Document} (hdocument : document ∈ db.documentsOf source.id) {chunk : Chunk}
    (hchunk : chunk ∈ db.chunks) (hof : chunk.documentId = document.id) :
    chunk.collectionId = source.collectionId := by
  obtain ⟨hmem, hid⟩ := List.mem_filter.mp hdocument
  exact h.chunks source hsource document hmem (of_decide_eq_true hid) chunk hchunk hof

theorem SameUnder.reopen (hcoherent : db.Coherent) {source assigned : Source}
    (hsource : source ∈ db.sources) (hid : assigned.id = source.id)
    (hcollection : assigned.collectionId = source.collectionId)
    (hne : source.collectionId ≠ collectionId) :
    db.SameUnder ((db.dropDocuments [source.id]).putSource assigned) collectionId := by
  have hdropped : source ∈ (db.dropDocuments [source.id]).sources := hsource
  refine .of_agreesOff hsource hne ((AgreesOff.dropDocuments db source.id).trans (.putSource _ hid))
    rfl (sourcesOf_putSource hdropped hid hcollection hne) ?_
  apply Table.filter_erase
  intro chunk hchunk hin hdoomed
  obtain ⟨document, hdocument, hof⟩ := List.mem_map.mp hdoomed
  obtain ⟨hmem, hid'⟩ := List.mem_filter.mp hdocument
  have hsourceId := List.mem_singleton.mp (of_decide_eq_true hid')
  have hchunkId := hcoherent.chunks source hsource document hmem hsourceId chunk hchunk hof.symm
  exact hne (hchunkId.symm.trans (of_decide_eq_true hin))

theorem SameUnder.complete {source : Source} {collection : Collection} {out : Ingested}
    (henabled : Event.Enabled (.complete source collection out) db)
    (hne : source.collectionId ≠ collectionId) :
    db.SameUnder (db.complete source out) collectionId := by
  obtain ⟨hsource, _, _, hid, _, hwell, _⟩ := id henabled
  refine .of_agreesOff hsource hne (.complete henabled) rfl
    (sourcesOf_putSource hsource rfl rfl hne) ?_
  apply Table.filter_insertAll_of_not
  intro chunk hchunk
  refine decide_eq_false fun h => hne ?_
  exact hid.symm.trans ((hwell.collections chunk hchunk).symm.trans h)

theorem SameUnder.removeSource (hcoherent : db.Coherent) {source : Source}
    (hsource : source ∈ db.sources) (deletedAt : Timestamp)
    (hne : source.collectionId ≠ collectionId) :
    db.SameUnder (db.removeSource source deletedAt) collectionId := by
  have hsources : (db.removeSource source deletedAt).sourcesOf collectionId =
      (db.putSource (source.softDelete deletedAt)).sourcesOf collectionId := rfl
  refine .of_agreesOff hsource hne (.removeSource db source deletedAt) rfl
    (hsources.trans (sourcesOf_putSource hsource rfl rfl hne)) ?_
  apply Table.filter_erase
  intro chunk hchunk hin hdoomed
  obtain ⟨document, hdocument, hof⟩ := List.mem_map.mp hdoomed
  have hchunkId := hcoherent.chunk_collectionId hsource hdocument hchunk hof.symm
  exact hne (hchunkId.symm.trans (of_decide_eq_true hin))

theorem leaveBatch_eq_self {source : Source} {batches : List Uuid}
    (h : ∀ id ∈ source.batchId, id ∉ batches) : source.leaveBatch batches = source := by
  have hfilter : source.batchId.filter (· ∉ batches) = source.batchId := by
    cases hbatch : source.batchId with
    | none => rfl
    | some id => exact Option.filter_some_pos (decide_eq_true (h id hbatch))
  rw [Source.leaveBatch, hfilter]

theorem SameUnder.dropCollection (hcoherent : db.Coherent) {id : Uuid} (hne : id ≠ collectionId) :
    db.SameUnder (db.dropCollection id) collectionId where
  batches := by
    apply Table.filter_erase
    intro batch _ hin hout
    exact hne (hout.symm.trans (of_decide_eq_true hin))
  sources := by
    have herased : (db.sources.erase (·.collectionId = id)).rows.filter
        (·.collectionId = collectionId) = db.sourcesOf collectionId := by
      apply Table.filter_erase
      intro source _ hin hout
      exact hne (hout.symm.trans (of_decide_eq_true hin))
    refine Eq.trans (Table.filter_map_rows (fun _ _ => rfl) ?_) herased
    intro source hsource hin
    apply leaveBatch_eq_self
    intro batchId hbatchId hdropped
    obtain ⟨hmem, _⟩ := Table.mem_erase.mp hsource
    obtain ⟨batch, hbatch, rfl⟩ := List.mem_map.mp hdropped
    obtain ⟨hbatch, hout⟩ := List.mem_filter.mp hbatch
    have hsame := hcoherent.batches source hmem batch hbatch hbatchId
    exact hne ((of_decide_eq_true hout).symm.trans (hsame.trans (of_decide_eq_true hin)))
  documents source hsource := by
    apply Table.filter_erase
    intro document _ hid hdropped
    obtain ⟨hmem, hin⟩ := List.mem_filter.mp hsource
    obtain ⟨other, hother, hid'⟩ := List.mem_map.mp hdropped
    obtain ⟨hother, hout⟩ := List.mem_filter.mp hother
    rw [Table.eq_of_key_eq hother hmem (hid'.trans (of_decide_eq_true hid))] at hout
    exact hne ((of_decide_eq_true hout).symm.trans (of_decide_eq_true hin))
  chunks := by
    have hdocuments : (db.dropDocuments ((db.sourcesOf id).map Source.id)).chunks.rows.filter
        (·.collectionId = collectionId) =
        db.chunks.rows.filter (·.collectionId = collectionId) := by
      apply Table.filter_erase
      intro chunk hchunk hin hdoomed
      obtain ⟨document, hdocument, hof⟩ := List.mem_map.mp hdoomed
      obtain ⟨hdocument, hdropped⟩ := List.mem_filter.mp hdocument
      obtain ⟨source, hsource, hid⟩ := List.mem_map.mp (of_decide_eq_true hdropped)
      obtain ⟨hsource, hout⟩ := List.mem_filter.mp hsource
      have hsame := hcoherent.chunks source hsource document hdocument hid.symm chunk hchunk hof.symm
      exact hne ((of_decide_eq_true hout).symm.trans (hsame.symm.trans (of_decide_eq_true hin)))
    refine Eq.trans (Table.filter_erase ?_) hdocuments
    intro chunk _ hin hout
    exact hne (hout.symm.trans (of_decide_eq_true hin))

theorem SameUnder.apply (hcoherent : db.Coherent) {e : Event} (henabled : e.Enabled db)
    (hne : e.collectionId ≠ collectionId) : db.SameUnder (e.apply db) collectionId := by
  cases e with
  | addCollection collection => exact ⟨rfl, rfl, fun _ _ => rfl, rfl⟩
  | addBatch batch =>
    refine ⟨?_, rfl, fun _ _ => rfl, rfl⟩
    exact Table.filter_insert_of_not _ (decide_eq_false hne)
  | addSource source =>
    refine ⟨rfl, ?_, fun _ _ => rfl, rfl⟩
    exact Table.filter_insert_of_not _ (decide_eq_false hne)
  | reopen source assigned =>
    obtain ⟨hsource, _, _, hid, hcollection, _⟩ := henabled
    exact .reopen hcoherent hsource hid hcollection hne
  | assignBatch source batchId => exact .putSource henabled.1 rfl rfl hne
  | complete source collection out => exact .complete henabled hne
  | fail source errorMessage => exact .putSource henabled.1 rfl rfl hne
  | remove source deletedAt => exact .removeSource hcoherent henabled deletedAt hne
  | dropCollection id => exact .dropCollection hcoherent hne

theorem SameUnder.play (hintact : db.Intact) (hcoherent : db.Coherent) {events : List Event}
    (hadmissible : Event.Admissible events db)
    (hne : ∀ e ∈ events, e.collectionId ≠ collectionId) :
    db.SameUnder (Event.play events db) collectionId := by
  induction events generalizing db with
  | nil => exact .refl db collectionId
  | cons e events ih =>
    obtain ⟨hhead, hrest⟩ := List.forall_mem_cons.mp hne
    exact (SameUnder.apply hcoherent hadmissible.1 hhead).trans
      (ih (hintact.apply hadmissible.1) (hcoherent.apply hintact hadmissible.1) hadmissible.2 hrest)

end Database

end YCStudio
