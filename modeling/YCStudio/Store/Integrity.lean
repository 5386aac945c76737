import YCStudio.Store.Effects

namespace YCStudio

structure Database.Intact (db : Database) : Prop where
  owners : ∀ collection ∈ db.kbCollections, ∀ user ∈ collection.userId, user ∈ db.users
  names : ∀ a ∈ db.kbCollections, ∀ b ∈ db.kbCollections,
    a.userId = b.userId → a.kind = b.kind → a.name = b.name → a = b
  batchCollections : ∀ batch ∈ db.ingestBatches,
    ∃ collection ∈ db.kbCollections, collection.id = batch.collectionId
  sourceCollections : ∀ source ∈ db.sources,
    ∃ collection ∈ db.kbCollections, collection.id = source.collectionId
  sourceBatches : ∀ source ∈ db.sources, ∀ id ∈ source.batchId,
    ∃ batch ∈ db.ingestBatches, batch.id = id
  documentSources : ∀ document ∈ db.documents,
    ∃ source ∈ db.sources, source.id = document.sourceId
  chunkDocuments : ∀ chunk ∈ db.chunks,
    ∃ document ∈ db.documents, document.id = chunk.documentId
  chunkCollections : ∀ chunk ∈ db.chunks,
    ∃ collection ∈ db.kbCollections, collection.id = chunk.collectionId
  contents : ∀ a ∈ db.sources, ∀ b ∈ db.sources,
    a.collectionId = b.collectionId → a.contentHash = b.contentHash → a = b

def Uuid.Before (id : Uuid) (stream drawn : Nat) : Prop := id.stream = stream → id.draw < drawn

def Uuid.Drawn (id : Uuid) (stream drawn : Nat) : Prop := id.stream = stream ∧ id.draw < drawn

theorem Uuid.Drawn.before {id : Uuid} {stream drawn : Nat} (h : id.Drawn stream drawn) :
    id.Before stream drawn := fun _ => h.2

theorem Uuid.drawn_draw {stream drawn draws i : Nat} (h : i < draws) :
    Uuid.Drawn ⟨stream, drawn + i⟩ stream (drawn + draws) := ⟨rfl, Nat.add_lt_add_left h drawn⟩

theorem Uuid.Before.mono {id : Uuid} {stream drawn drawn' : Nat} (h : id.Before stream drawn)
    (hle : drawn ≤ drawn') : id.Before stream drawn' :=
  fun hstream => Nat.lt_of_lt_of_le (h hstream) hle

theorem Uuid.Before.ne {id : Uuid} {stream drawn draw : Nat} (h : id.Before stream drawn)
    (hle : drawn ≤ draw) : id ≠ ⟨stream, draw⟩ := by
  rintro rfl
  exact Nat.lt_irrefl _ (Nat.lt_of_lt_of_le (h rfl) hle)

structure Database.Ids (db : Database) (p : Uuid → Prop) : Prop where
  collections : ∀ row ∈ db.kbCollections, p row.id
  batches : ∀ row ∈ db.ingestBatches, p row.id
  sources : ∀ row ∈ db.sources, p row.id
  documents : ∀ row ∈ db.documents, p row.id
  chunks : ∀ row ∈ db.chunks, p row.id

abbrev Database.Before (db : Database) (stream drawn : Nat) : Prop :=
  db.Ids fun id => id.Before stream drawn

namespace Database

variable {db : Database}

theorem Ids.mono {p q : Uuid → Prop} (h : db.Ids p) (hpq : ∀ id, p id → q id) : db.Ids q where
  collections row hrow := hpq _ (h.collections row hrow)
  batches row hrow := hpq _ (h.batches row hrow)
  sources row hrow := hpq _ (h.sources row hrow)
  documents row hrow := hpq _ (h.documents row hrow)
  chunks row hrow := hpq _ (h.chunks row hrow)

theorem Ids.before {clock : Nat} (h : db.Ids (·.stream < clock)) : db.Before clock 0 :=
  h.mono fun _ hlt hstream => absurd hstream (Nat.ne_of_lt hlt)

theorem Intact.empty (users : List Uuid) : (Database.empty users).Intact where
  owners _ h := absurd h (Table.not_mem_empty _)
  names _ h := absurd h (Table.not_mem_empty _)
  batchCollections _ h := absurd h (Table.not_mem_empty _)
  sourceCollections _ h := absurd h (Table.not_mem_empty _)
  sourceBatches _ h := absurd h (Table.not_mem_empty _)
  documentSources _ h := absurd h (Table.not_mem_empty _)
  chunkDocuments _ h := absurd h (Table.not_mem_empty _)
  chunkCollections _ h := absurd h (Table.not_mem_empty _)
  contents _ h := absurd h (Table.not_mem_empty _)

theorem Intact.not_sameContent (h : db.Intact) {source assigned : Source}
    (hsource : source ∈ db.sources) (hid : assigned.id = source.id)
    (hcollection : assigned.collectionId = source.collectionId)
    (hhash : assigned.contentHash = source.contentHash) : ¬ db.sameContent assigned := by
  rintro ⟨other, hother, hne, hcoll, hcontent⟩
  have hsame := h.contents other hother source hsource (hcoll.trans hcollection)
    (hcontent.trans hhash)
  exact hne ((congrArg Source.id hsame).trans hid.symm)

def addCollection (db : Database) (collection : Collection) : Database :=
  { db with kbCollections := db.kbCollections.insert collection }

theorem Intact.addCollection (h : db.Intact) {collection : Collection}
    (hfresh : db.kbCollections.Fresh collection.id)
    (howner : ∀ user ∈ collection.userId, user ∈ db.users)
    (hname : ¬ db.sameOwnerKindName collection) : (db.addCollection collection).Intact where
  owners c hc := by
    rcases (Table.mem_insert hfresh).mp hc with hc | rfl
    · exact h.owners c hc
    · exact howner
  names a ha b hb huser hkind hcname := by
    rcases (Table.mem_insert hfresh).mp ha with ha' | rfl
    · rcases (Table.mem_insert hfresh).mp hb with hb' | rfl
      · exact h.names a ha' b hb' huser hkind hcname
      · exact absurd ⟨a, ha', huser, hkind, hcname⟩ hname
    · rcases (Table.mem_insert hfresh).mp hb with hb' | rfl
      · exact absurd ⟨b, hb', huser.symm, hkind.symm, hcname.symm⟩ hname
      · rfl
  batchCollections batch hbatch := by
    obtain ⟨c, hc, hid⟩ := h.batchCollections batch hbatch
    exact ⟨c, Table.subset_insert _ _ hc, hid⟩
  sourceCollections source hsource := by
    obtain ⟨c, hc, hid⟩ := h.sourceCollections source hsource
    exact ⟨c, Table.subset_insert _ _ hc, hid⟩
  sourceBatches := h.sourceBatches
  documentSources := h.documentSources
  chunkDocuments := h.chunkDocuments
  chunkCollections chunk hchunk := by
    obtain ⟨c, hc, hid⟩ := h.chunkCollections chunk hchunk
    exact ⟨c, Table.subset_insert _ _ hc, hid⟩
  contents := h.contents

def addBatch (db : Database) (batch : IngestBatch) : Database :=
  { db with ingestBatches := db.ingestBatches.insert batch }

theorem Intact.addBatch (h : db.Intact) {batch : IngestBatch}
    (hfresh : db.ingestBatches.Fresh batch.id)
    (hcollection : ∃ collection ∈ db.kbCollections, collection.id = batch.collectionId) :
    (db.addBatch batch).Intact where
  owners := h.owners
  names := h.names
  batchCollections b hb := by
    rcases (Table.mem_insert hfresh).mp hb with hb | rfl
    · exact h.batchCollections b hb
    · exact hcollection
  sourceCollections := h.sourceCollections
  sourceBatches source hsource id hid := by
    obtain ⟨b, hb, hb'⟩ := h.sourceBatches source hsource id hid
    exact ⟨b, Table.subset_insert _ _ hb, hb'⟩
  documentSources := h.documentSources
  chunkDocuments := h.chunkDocuments
  chunkCollections := h.chunkCollections
  contents := h.contents

theorem Intact.addSource (h : db.Intact) {source : Source}
    (hfresh : db.sources.Fresh source.id)
    (hcollection : ∃ collection ∈ db.kbCollections, collection.id = source.collectionId)
    (hbatch : ∀ id ∈ source.batchId, ∃ batch ∈ db.ingestBatches, batch.id = id)
    (hcontent : ¬ db.sameContent source) : (db.addSource source).Intact where
  owners := h.owners
  names := h.names
  batchCollections := h.batchCollections
  sourceCollections s hs := by
    rcases (Table.mem_insert hfresh).mp hs with hs | rfl
    · exact h.sourceCollections s hs
    · exact hcollection
  sourceBatches s hs := by
    rcases (Table.mem_insert hfresh).mp hs with hs | rfl
    · exact h.sourceBatches s hs
    · exact hbatch
  documentSources document hdocument := by
    obtain ⟨s, hs, hid⟩ := h.documentSources document hdocument
    exact ⟨s, Table.subset_insert _ _ hs, hid⟩
  chunkDocuments := h.chunkDocuments
  chunkCollections := h.chunkCollections
  contents a ha b hb hcoll hhash := by
    rcases (Table.mem_insert hfresh).mp ha with ha' | rfl
    · rcases (Table.mem_insert hfresh).mp hb with hb' | rfl
      · exact h.contents a ha' b hb' hcoll hhash
      · exact absurd ⟨a, ha', hfresh a ha', hcoll, hhash⟩ hcontent
    · rcases (Table.mem_insert hfresh).mp hb with hb' | rfl
      · exact absurd ⟨b, hb', hfresh b hb', hcoll.symm, hhash.symm⟩ hcontent
      · rfl

theorem Intact.putSource (h : db.Intact) {old assigned : Source} (hold : old ∈ db.sources)
    (hid : assigned.id = old.id) (hcollection : assigned.collectionId = old.collectionId)
    (hbatch : ∀ id ∈ assigned.batchId, ∃ batch ∈ db.ingestBatches, batch.id = id)
    (hcontent : ¬ db.sameContent assigned) : (db.putSource assigned).Intact where
  owners := h.owners
  names := h.names
  batchCollections := h.batchCollections
  sourceCollections s hs := by
    rcases (Table.mem_put_of_mem hold hid.symm).mp hs with rfl | ⟨hs, _⟩
    · rw [hcollection]
      exact h.sourceCollections old hold
    · exact h.sourceCollections s hs
  sourceBatches s hs := by
    rcases (Table.mem_put_of_mem hold hid.symm).mp hs with rfl | ⟨hs, _⟩
    · exact hbatch
    · exact h.sourceBatches s hs
  documentSources document hdocument := by
    obtain ⟨s, hs, hs'⟩ := h.documentSources document hdocument
    by_cases hsame : s = old
    · exact ⟨assigned, mem_putSource hold hid.symm, hid.trans (hsame ▸ hs')⟩
    · exact ⟨s, (Table.mem_put_of_mem hold hid.symm).mpr (Or.inr ⟨hs, hsame⟩), hs'⟩
  chunkDocuments := h.chunkDocuments
  chunkCollections := h.chunkCollections
  contents a ha b hb hcoll hhash := by
    rcases (Table.mem_put_of_mem hold hid.symm).mp ha with rfl | ⟨ha', hane⟩
    · rcases (Table.mem_put_of_mem hold hid.symm).mp hb with rfl | ⟨hb', hbne⟩
      · rfl
      · refine absurd ⟨b, hb', ?_, hcoll.symm, hhash.symm⟩ hcontent
        exact fun hkey => hbne (Table.eq_of_key_eq hb' hold (hkey.trans hid))
    · rcases (Table.mem_put_of_mem hold hid.symm).mp hb with rfl | ⟨hb', _⟩
      · refine absurd ⟨a, ha', ?_, hcoll, hhash⟩ hcontent
        exact fun hkey => hane (Table.eq_of_key_eq ha' hold (hkey.trans hid))
      · exact h.contents a ha' b hb' hcoll hhash

theorem Intact.addDocument (h : db.Intact) {document : Document}
    (hfresh : db.documents.Fresh document.id)
    (hsource : ∃ source ∈ db.sources, source.id = document.sourceId) :
    (db.addDocument document).Intact where
  owners := h.owners
  names := h.names
  batchCollections := h.batchCollections
  sourceCollections := h.sourceCollections
  sourceBatches := h.sourceBatches
  documentSources d hd := by
    rcases (Table.mem_insert hfresh).mp hd with hd | rfl
    · exact h.documentSources d hd
    · exact hsource
  chunkDocuments chunk hchunk := by
    obtain ⟨d, hd, hid⟩ := h.chunkDocuments chunk hchunk
    exact ⟨d, Table.subset_insert _ _ hd, hid⟩
  chunkCollections := h.chunkCollections
  contents := h.contents

theorem mem_addChunks {chunks : List Chunk} (h : db.Accepts chunks) {chunk : Chunk} :
    chunk ∈ (db.addChunks chunks).chunks ↔ chunk ∈ db.chunks ∨ chunk ∈ chunks := by
  rw [Table.mem_def, addChunks, Table.rows_insertAll h.fresh h.ids, List.mem_append]
  rfl

theorem Intact.addChunks (h : db.Intact) {chunks : List Chunk} (haccepts : db.Accepts chunks) :
    (db.addChunks chunks).Intact where
  owners := h.owners
  names := h.names
  batchCollections := h.batchCollections
  sourceCollections := h.sourceCollections
  sourceBatches := h.sourceBatches
  documentSources := h.documentSources
  chunkDocuments chunk hchunk := by
    rcases (mem_addChunks haccepts).mp hchunk with hchunk | hchunk
    · exact h.chunkDocuments chunk hchunk
    · exact haccepts.documents chunk hchunk
  chunkCollections chunk hchunk := by
    rcases (mem_addChunks haccepts).mp hchunk with hchunk | hchunk
    · exact h.chunkCollections chunk hchunk
    · exact haccepts.collections chunk hchunk
  contents := h.contents

theorem mem_dropDocuments {sourceIds : List Uuid} {document : Document} :
    document ∈ (db.dropDocuments sourceIds).documents ↔
      document ∈ db.documents ∧ document.sourceId ∉ sourceIds := Table.mem_erase

theorem mem_chunks_dropDocuments {sourceIds : List Uuid} {chunk : Chunk} :
    chunk ∈ (db.dropDocuments sourceIds).chunks ↔
      chunk ∈ db.chunks ∧
        ¬ ∃ document ∈ db.documents,
          document.id = chunk.documentId ∧ document.sourceId ∈ sourceIds := by
  simp only [dropDocuments, Table.mem_erase, List.mem_map, List.mem_filter, decide_eq_true_eq]
  apply and_congr_right
  rintro -
  apply not_congr
  constructor
  · rintro ⟨document, ⟨hmem, hsource⟩, hid⟩
    exact ⟨document, hmem, hid, hsource⟩
  · rintro ⟨document, hmem, hid, hsource⟩
    exact ⟨document, ⟨hmem, hsource⟩, hid⟩

theorem Intact.dropDocuments (h : db.Intact) (sourceIds : List Uuid) :
    (db.dropDocuments sourceIds).Intact where
  owners := h.owners
  names := h.names
  batchCollections := h.batchCollections
  sourceCollections := h.sourceCollections
  sourceBatches := h.sourceBatches
  documentSources document hdocument := h.documentSources document (mem_dropDocuments.mp hdocument).1
  chunkDocuments chunk hchunk := by
    obtain ⟨hmem, hkept⟩ := mem_chunks_dropDocuments.mp hchunk
    obtain ⟨document, hdocument, hid⟩ := h.chunkDocuments chunk hmem
    refine ⟨document, mem_dropDocuments.mpr ⟨hdocument, ?_⟩, hid⟩
    exact fun hdropped => hkept ⟨document, hdocument, hid, hdropped⟩
  chunkCollections chunk hchunk := h.chunkCollections chunk (mem_chunks_dropDocuments.mp hchunk).1
  contents := h.contents

def eraseChunks (db : Database) (documentIds : List Uuid) : Database :=
  { db with chunks := db.chunks.erase (·.documentId ∈ documentIds) }

theorem Intact.eraseChunks (h : db.Intact) (documentIds : List Uuid) :
    (db.eraseChunks documentIds).Intact :=
  { h with
    chunkDocuments := fun chunk hchunk => h.chunkDocuments chunk (Table.mem_erase.mp hchunk).1
    chunkCollections := fun chunk hchunk => h.chunkCollections chunk (Table.mem_erase.mp hchunk).1 }

def softDelete (db : Database) (documentIds : List Uuid) (deletedAt : Timestamp) : Database :=
  { db with
    documents := db.documents.modify
      (fun row => if row.id ∈ documentIds then { row with deletedAt := some deletedAt } else row)
      (by
        intro row
        split <;> rfl) }

theorem mem_softDelete {documentIds : List Uuid} {deletedAt : Timestamp} {document : Document} :
    document ∈ (db.softDelete documentIds deletedAt).documents ↔
      ∃ old ∈ db.documents,
        (if old.id ∈ documentIds then { old with deletedAt := some deletedAt } else old) =
          document := List.mem_map

theorem Intact.softDelete (h : db.Intact) (documentIds : List Uuid) (deletedAt : Timestamp) :
    (db.softDelete documentIds deletedAt).Intact where
  owners := h.owners
  names := h.names
  batchCollections := h.batchCollections
  sourceCollections := h.sourceCollections
  sourceBatches := h.sourceBatches
  documentSources document hdocument := by
    obtain ⟨old, hold, rfl⟩ := mem_softDelete.mp hdocument
    obtain ⟨source, hsource, hid⟩ := h.documentSources old hold
    refine ⟨source, hsource, ?_⟩
    split <;> exact hid
  chunkDocuments chunk hchunk := by
    obtain ⟨old, hold, hid⟩ := h.chunkDocuments chunk hchunk
    refine ⟨_, mem_softDelete.mpr ⟨old, hold, rfl⟩, ?_⟩
    split <;> exact hid
  chunkCollections := h.chunkCollections
  contents := h.contents

def removeSource (db : Database) (source : Source) (deletedAt : Timestamp) : Database :=
  let documentIds := (db.documentsOf source.id).map Document.id
  ((db.eraseChunks documentIds).softDelete documentIds deletedAt).putSource
    (source.softDelete deletedAt)

theorem mem_sources_dropCollection {id : Uuid} {source : Source} :
    source ∈ (db.dropCollection id).sources ↔
      ∃ old ∈ db.sources, old.collectionId ≠ id ∧
        old.leaveBatch ((db.batchesOf id).map IngestBatch.id) = source := by
  constructor
  · intro h
    obtain ⟨old, hold, heq⟩ := List.mem_map.mp h
    obtain ⟨hold, hne⟩ := Table.mem_erase.mp hold
    exact ⟨old, hold, hne, heq⟩
  · rintro ⟨old, hold, hne, rfl⟩
    exact List.mem_map.mpr ⟨old, Table.mem_erase.mpr ⟨hold, hne⟩, rfl⟩

theorem mem_documents_dropCollection (h : db.Intact) {id : Uuid} {document : Document} :
    document ∈ (db.dropCollection id).documents ↔
      document ∈ db.documents ∧
        ∃ source ∈ db.sources, source.id = document.sourceId ∧ source.collectionId ≠ id := by
  have hids : document.sourceId ∈ (db.sourcesOf id).map Source.id ↔
      ∃ source ∈ db.sources, source.id = document.sourceId ∧ source.collectionId = id := by
    simp only [sourcesOf, List.mem_map, List.mem_filter, decide_eq_true_eq]
    constructor
    · rintro ⟨source, ⟨hmem, hcollection⟩, hid⟩
      exact ⟨source, hmem, hid, hcollection⟩
    · rintro ⟨source, hmem, hid, hcollection⟩
      exact ⟨source, ⟨hmem, hcollection⟩, hid⟩
  change document ∈ (db.dropDocuments _).documents ↔ _
  rw [mem_dropDocuments, hids]
  apply and_congr_right
  intro hdocument
  obtain ⟨source, hsource, hid⟩ := h.documentSources document hdocument
  constructor
  · intro hkept
    exact ⟨source, hsource, hid, fun hcollection => hkept ⟨source, hsource, hid, hcollection⟩⟩
  · rintro ⟨other, hother, hother', hcollection⟩ ⟨dropped, hdropped, hdropped', hcollection'⟩
    have hsame := Table.eq_of_key_eq hother hdropped (hother'.trans hdropped'.symm)
    exact hcollection (hsame ▸ hcollection')

theorem mem_chunks_dropCollection {id : Uuid} {chunk : Chunk} :
    chunk ∈ (db.dropCollection id).chunks ↔
      chunk ∈ (db.dropDocuments ((db.sourcesOf id).map Source.id)).chunks ∧
        chunk.collectionId ≠ id := Table.mem_erase

theorem Intact.dropCollection (h : db.Intact) (id : Uuid) : (db.dropCollection id).Intact where
  owners collection hcollection := h.owners collection (Table.mem_erase.mp hcollection).1
  names a ha b hb := h.names a (Table.mem_erase.mp ha).1 b (Table.mem_erase.mp hb).1
  batchCollections batch hbatch := by
    obtain ⟨hbatch, hne⟩ := Table.mem_erase.mp hbatch
    obtain ⟨collection, hcollection, hid⟩ := h.batchCollections batch hbatch
    exact ⟨collection, Table.mem_erase.mpr ⟨hcollection, hid ▸ hne⟩, hid⟩
  sourceCollections source hsource := by
    obtain ⟨old, hold, hne, rfl⟩ := mem_sources_dropCollection.mp hsource
    obtain ⟨collection, hcollection, hid⟩ := h.sourceCollections old hold
    exact ⟨collection, Table.mem_erase.mpr ⟨hcollection, hid ▸ hne⟩, hid⟩
  sourceBatches source hsource batchId hbatchId := by
    obtain ⟨old, hold, hne, rfl⟩ := mem_sources_dropCollection.mp hsource
    obtain ⟨hbatchId, hkept⟩ := Option.mem_filter_iff.mp hbatchId
    obtain ⟨batch, hbatch, hid⟩ := h.sourceBatches old hold batchId hbatchId
    refine ⟨batch, Table.mem_erase.mpr ⟨hbatch, fun hcollection => ?_⟩, hid⟩
    apply of_decide_eq_true hkept
    rw [← hid]
    exact List.mem_map_of_mem (List.mem_filter.mpr ⟨hbatch, decide_eq_true hcollection⟩)
  documentSources document hdocument := by
    obtain ⟨_, source, hsource, hid, hne⟩ := (mem_documents_dropCollection h).mp hdocument
    exact ⟨_, mem_sources_dropCollection.mpr ⟨source, hsource, hne, rfl⟩, hid⟩
  chunkDocuments chunk hchunk := by
    obtain ⟨hmem, _⟩ := mem_chunks_dropCollection.mp hchunk
    exact (h.dropDocuments _).chunkDocuments chunk hmem
  chunkCollections chunk hchunk := by
    obtain ⟨hmem, hne⟩ := mem_chunks_dropCollection.mp hchunk
    obtain ⟨collection, hcollection, hid⟩ := (h.dropDocuments _).chunkCollections chunk hmem
    exact ⟨collection, Table.mem_erase.mpr ⟨hcollection, hid ▸ hne⟩, hid⟩
  contents a ha b hb hcollection hhash := by
    obtain ⟨a', ha', _, rfl⟩ := mem_sources_dropCollection.mp ha
    obtain ⟨b', hb', _, rfl⟩ := mem_sources_dropCollection.mp hb
    rw [h.contents a' ha' b' hb' hcollection hhash]

end Database

end YCStudio
