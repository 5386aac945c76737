import YCStudio.Store.Writes

namespace YCStudio

namespace Database

def putSource (db : Database) (source : Source) : Database :=
  { db with sources := db.sources.put source }

def addSource (db : Database) (source : Source) : Database :=
  { db with sources := db.sources.insert source }

def addDocument (db : Database) (document : Document) : Database :=
  { db with documents := db.documents.insert document }

def addChunks (db : Database) (chunks : List Chunk) : Database :=
  { db with chunks := db.chunks.insertAll chunks }

variable {db : Database}

theorem dropDocumentRows_documentsOf (db : Database) (sourceId : Uuid) :
    db.dropDocumentRows ((db.documentsOf sourceId).map Document.id) =
      db.dropDocuments [sourceId] := by
  have hdoomed : db.documents.rows.filter (·.sourceId ∈ [sourceId]) = db.documentsOf sourceId := by
    simp only [documentsOf, List.mem_singleton]
  have hdocuments : db.documents.erase (·.id ∈ (db.documentsOf sourceId).map Document.id) =
      db.documents.erase (·.sourceId ∈ [sourceId]) := by
    apply Table.ext
    apply List.filter_congr
    intro document hdocument
    have hiff : document.id ∈ (db.documentsOf sourceId).map Document.id ↔
        document.sourceId ∈ [sourceId] := by
      rw [List.mem_singleton]
      constructor
      · intro hid
        obtain ⟨other, hother, hsame⟩ := List.mem_map.mp hid
        obtain ⟨hother, hof⟩ := List.mem_filter.mp hother
        rw [← Table.eq_of_key_eq hother hdocument hsame]
        exact of_decide_eq_true hof
      · intro hof
        exact List.mem_map_of_mem (List.mem_filter.mpr ⟨hdocument, decide_eq_true hof⟩)
    exact decide_eq_decide.mpr (not_congr hiff)
  simp only [dropDocumentRows, dropDocuments, hdoomed, hdocuments]

@[simp] theorem apply_resolve (db : Database) (write : Write) :
    db.apply (db.resolve write) = db.apply write := by
  cases write with
  | deleteDocuments sourceId => exact dropDocumentRows_documentsOf db sourceId
  | _ => rfl

theorem putSource_putSource (db : Database) {a b : Source} (hid : a.id = b.id) :
    (db.putSource a).putSource b = db.putSource b := by
  simp only [putSource, Table.put_put db.sources hid]

theorem mem_putSource {source assigned : Source} (hmem : source ∈ db.sources)
    (hid : source.id = assigned.id) : assigned ∈ (db.putSource assigned).sources :=
  (Table.mem_put_of_mem hmem hid).mpr (Or.inl rfl)

theorem apply_updateSource {loaded assigned : Source} (hmem : loaded ∈ db.sources)
    (hid : assigned.id = loaded.id) (hcollection : assigned.collectionId = loaded.collectionId)
    (hcreated : assigned.createdAt = loaded.createdAt) :
    db.apply (.updateSource loaded assigned) = db.putSource assigned := by
  simp only [apply, modifySource, putSource, mk.injEq, true_and, and_true]
  apply Table.ext
  rw [Table.rows_modify, Table.rows_put]
  apply List.map_congr_left
  intro row hrow
  rw [hid]
  by_cases hkey : row.id = loaded.id
  · rw [if_pos hkey, if_pos hkey, Table.eq_of_key_eq hrow hmem hkey]
    exact Source.revise_self hid hcollection hcreated
  · rw [if_neg hkey, if_neg hkey]

theorem refusal_updateSource {loaded assigned : Source} (hmem : loaded ∈ db.sources)
    (hhash : loaded.contentHash = assigned.contentHash ∨ ¬ db.sameContent assigned)
    (hbatch : loaded.batchId = assigned.batchId ∨ ¬ db.batchMissing assigned.batchId) :
    db.refusal (.updateSource loaded assigned) = none := by
  have hpresent : db.sources.get? loaded.id ≠ none := by
    rw [Table.get?_key hmem]
    exact Option.some_ne_none loaded
  have hcontent : ¬ (loaded.contentHash ≠ assigned.contentHash ∧ db.sameContent assigned) :=
    fun h => hhash.elim h.1 (fun h' => h' h.2)
  have hforeign : ¬ (loaded.batchId ≠ assigned.batchId ∧ db.batchMissing assigned.batchId) :=
    fun h => hbatch.elim h.1 (fun h' => h' h.2)
  simp only [refusal, if_neg hpresent, if_neg hcontent, if_neg hforeign]

theorem refusal_insertDocument {document : Document} (hfresh : db.documents.Fresh document.id)
    {source : Source} (hmem : source ∈ db.sources) (hid : source.id = document.sourceId) :
    db.refusal (.insertDocument document) = none := by
  have hsource : db.sources.get? document.sourceId ≠ none := by
    rw [← hid, Table.get?_key hmem]
    exact Option.some_ne_none source
  simp only [refusal, hfresh.get?, Option.isSome_none, Bool.false_eq_true, if_false,
    if_neg hsource]

theorem refusal_insertSource {source : Source} (hfresh : db.sources.Fresh source.id)
    (hcontent : ¬ db.sameContent source) {collection : Collection}
    (hcollection : db.kbCollections.get? source.collectionId = some collection)
    (hbatch : ¬ db.batchMissing source.batchId) :
    db.refusal (.insertSource source) = none := by
  simp only [refusal, hfresh.get?, Option.isSome_none, Bool.false_eq_true, if_false,
    if_neg hcontent, hcollection, reduceCtorEq, if_neg hbatch]

theorem refusal_insertCollection {collection : Collection}
    (hfresh : db.kbCollections.Fresh collection.id) (hname : ¬ db.sameOwnerKindName collection)
    (howner : ∀ user ∈ collection.userId, user ∈ db.users) :
    db.refusal (.insertCollection collection) = none := by
  have hknown : ¬ ∃ user ∈ collection.userId.toList, user ∉ db.users := by
    rintro ⟨user, huser, hmissing⟩
    exact hmissing (howner user (Option.mem_toList.mp huser))
  simp only [refusal, hfresh.get?, Option.isSome_none, Bool.false_eq_true, if_false, if_neg hname,
    if_neg hknown]

theorem refusal_insertBatch {batch : IngestBatch} (hfresh : db.ingestBatches.Fresh batch.id)
    {collection : Collection}
    (hcollection : db.kbCollections.get? batch.collectionId = some collection)
    (huser : batch.userId ∈ db.users) : db.refusal (.insertBatch batch) = none := by
  simp only [refusal, hfresh.get?, Option.isSome_none, Bool.false_eq_true, if_false, hcollection,
    reduceCtorEq, huser, not_true_eq_false]

structure Accepts (db : Database) (chunks : List Chunk) : Prop where
  collections : ∀ chunk ∈ chunks, ∃ collection ∈ db.kbCollections, collection.id = chunk.collectionId
  documents : ∀ chunk ∈ chunks, ∃ document ∈ db.documents, document.id = chunk.documentId
  fresh : ∀ chunk ∈ chunks, db.chunks.Fresh chunk.id
  ids : (chunks.map Chunk.id).Nodup
  ordinals : ∀ chunk ∈ chunks, ∀ other ∈ db.chunks,
    other.documentId = chunk.documentId → other.ordinal ≠ chunk.ordinal
  distinct : (chunks.map Chunk.ordinal).Nodup

theorem Accepts.head {chunk : Chunk} {chunks : List Chunk} (h : db.Accepts (chunk :: chunks)) :
    db.refusal (.insertChunk chunk) = none := by
  have hmem : chunk ∈ chunk :: chunks := List.mem_cons_self
  have hordinal : ¬ db.sameOrdinal chunk := by
    rintro ⟨other, hother, hdocument, hordinal⟩
    exact h.ordinals chunk hmem other hother hdocument hordinal
  have hcollection : db.kbCollections.get? chunk.collectionId ≠ none := by
    obtain ⟨collection, hcollection, hid⟩ := h.collections chunk hmem
    rw [← hid, Table.get?_key hcollection]
    exact Option.some_ne_none collection
  have hdocument : db.documents.get? chunk.documentId ≠ none := by
    obtain ⟨document, hdocument, hid⟩ := h.documents chunk hmem
    rw [← hid, Table.get?_key hdocument]
    exact Option.some_ne_none document
  simp only [refusal, (h.fresh chunk hmem).get?, Option.isSome_none, Bool.false_eq_true, if_false,
    if_neg hordinal, if_neg hcollection, if_neg hdocument]

theorem Accepts.tail {chunk : Chunk} {chunks : List Chunk} (h : db.Accepts (chunk :: chunks)) :
    (db.apply (.insertChunk chunk)).Accepts chunks := by
  obtain ⟨hnew, hids⟩ := List.nodup_cons.mp h.ids
  obtain ⟨hordinal, hdistinct⟩ := List.nodup_cons.mp h.distinct
  have hfresh : db.chunks.Fresh chunk.id := h.fresh chunk List.mem_cons_self
  refine ⟨?_, ?_, ?_, hids, ?_, hdistinct⟩
  · intro other hother
    exact h.collections other (List.mem_cons_of_mem _ hother)
  · intro other hother
    exact h.documents other (List.mem_cons_of_mem _ hother)
  · intro other hother
    apply (h.fresh other (List.mem_cons_of_mem _ hother)).insert
    intro hid
    exact hnew (hid ▸ List.mem_map_of_mem hother)
  · intro other hother stored hstored hdocument
    rcases (Table.mem_insert hfresh).mp hstored with hstored | rfl
    · exact h.ordinals other (List.mem_cons_of_mem _ hother) stored hstored hdocument
    · intro heq
      exact hordinal (heq ▸ List.mem_map_of_mem hother)

theorem Accepts.insert {chunks rest : List Chunk} (h : db.Accepts (chunks ++ rest)) :
    db.firstRefusal (chunks.map .insertChunk) = none ∧
      db.applyAll (chunks.map .insertChunk) = db.addChunks chunks ∧
      (db.addChunks chunks).Accepts rest := by
  induction chunks generalizing db with
  | nil => exact ⟨rfl, rfl, h⟩
  | cons chunk chunks ih =>
    obtain ⟨haccepted, happlied, hrest⟩ := ih h.tail
    refine ⟨?_, ?_, hrest⟩
    · rw [List.map_cons, firstRefusal_cons db h.head]
      exact haccepted
    · rw [List.map_cons, applyAll_cons]
      exact happlied

theorem Accepts.putSource {chunks : List Chunk} (h : db.Accepts chunks) (source : Source) :
    (db.putSource source).Accepts chunks :=
  ⟨h.collections, h.documents, h.fresh, h.ids, h.ordinals, h.distinct⟩

theorem addChunks_append (chunks chunks' : List Chunk) :
    (db.addChunks chunks).addChunks chunks' = db.addChunks (chunks ++ chunks') := by
  simp only [addChunks, Table.insertAll_append]

end Database

end YCStudio
