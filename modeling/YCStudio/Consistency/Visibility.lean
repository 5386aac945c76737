import YCStudio.Consistency.Coherence
import YCStudio.Services.Reads

namespace YCStudio

namespace Database

variable (db : Database) (user : Uuid)

def SeesCollection (id : Uuid) : Prop :=
  ∃ collection ∈ db.kbCollections.rows, collection.VisibleTo user ∧ collection.id = id

instance (id : Uuid) : Decidable (db.SeesCollection user id) :=
  inferInstanceAs (Decidable (∃ collection ∈ db.kbCollections.rows, _))

def SeesSource (id : Uuid) : Prop :=
  ∃ source ∈ db.sources.rows, db.SeesCollection user source.collectionId ∧ source.id = id

instance (id : Uuid) : Decidable (db.SeesSource user id) :=
  inferInstanceAs (Decidable (∃ source ∈ db.sources.rows, _))

def SeesDocument (id : Uuid) : Prop :=
  ∃ document ∈ db.documents.rows, db.SeesSource user document.sourceId ∧ document.id = id

instance (id : Uuid) : Decidable (db.SeesDocument user id) :=
  inferInstanceAs (Decidable (∃ document ∈ db.documents.rows, _))

def visiblePart : Database where
  users := []
  kbCollections := db.kbCollections.erase (¬ ·.VisibleTo user)
  ingestBatches := db.ingestBatches.erase (¬ db.SeesCollection user ·.collectionId)
  sources := db.sources.erase (¬ db.SeesCollection user ·.collectionId)
  documents := db.documents.erase (¬ db.SeesSource user ·.sourceId)
  chunks := db.chunks.erase fun chunk =>
    ¬ db.SeesCollection user chunk.collectionId ∧ ¬ db.SeesDocument user chunk.documentId

def AgreesFor (before after : Database) (user : Uuid) : Prop :=
  after.visiblePart user = before.visiblePart user

instance (before after : Database) : Decidable (before.AgreesFor after user) :=
  inferInstanceAs (Decidable (_ = _))

variable {db user}

theorem seesCollection_of_get? {id : Uuid} {collection : Collection}
    (h : db.kbCollections.get? id = some collection) (hvisible : collection.VisibleTo user) :
    db.SeesCollection user id := by
  obtain ⟨hmem, hid⟩ := Table.get?_eq_some_iff.mp h
  exact ⟨collection, hmem, hvisible, hid⟩

section Counts

variable {collectionIds : List Uuid} (hids : ∀ id ∈ collectionIds, db.SeesCollection user id)

include hids

theorem countByCollectionColumn_visiblePart :
    countByCollectionColumn (db.visiblePart user) collectionIds =
      countByCollectionColumn db collectionIds := by
  apply congrArg (fun rows => groupCount (List.map Source.collectionId rows))
  apply Table.filter_erase
  intro source _ hcounted hhidden
  exact hhidden (hids _ (of_decide_eq_true hcounted).1)

theorem documentSource_visiblePart (document : Document) :
    (documentSource (db.visiblePart user) document).filter (isCountedIn collectionIds) =
      (documentSource db document).filter (isCountedIn collectionIds) := by
  have hget : documentSource (db.visiblePart user) document =
      (documentSource db document).filter
        (fun source => ¬ ¬ db.SeesCollection user source.collectionId) :=
    Table.get?_erase _ _ _
  rw [hget, Option.filter_filter]
  cases documentSource db document with
  | none => rfl
  | some source =>
    by_cases hcounted : isCountedIn collectionIds source = true
    · simp [Option.filter, hcounted, hids _ (of_decide_eq_true hcounted).1]
    · simp [Option.filter, hcounted]

theorem documentSource_hidden {document : Document}
    (hhidden : ¬ db.SeesSource user document.sourceId) :
    (documentSource db document).filter (isCountedIn collectionIds) = none := by
  apply Option.filter_eq_none_iff.mpr
  intro source hsource hcounted
  obtain ⟨hmem, hid⟩ := Table.get?_eq_some_iff.mp hsource
  exact hhidden ⟨source, hmem, hids _ (of_decide_eq_true hcounted).1, hid⟩

theorem countDocumentsByCollection_visiblePart :
    countDocumentsByCollection (db.visiblePart user) collectionIds =
      countDocumentsByCollection db collectionIds := by
  apply congrArg (fun rows => groupCount (List.map Source.collectionId rows))
  apply Table.filterMap_erase
  · intro document _ _
    exact (documentSource_visiblePart hids document).symm
  · intro document _ hhidden
    exact documentSource_hidden hids hhidden

theorem chunkSource_visiblePart (chunk : Chunk) :
    (chunkSource (db.visiblePart user) chunk).filter (isCountedIn collectionIds) =
      (chunkSource db chunk).filter (isCountedIn collectionIds) := by
  have hget : (db.visiblePart user).documents.get? chunk.documentId =
      (db.documents.get? chunk.documentId).filter
        (fun document => ¬ ¬ db.SeesSource user document.sourceId) :=
    Table.get?_erase _ _ _
  rw [chunkSource, chunkSource, hget]
  cases hdocument : db.documents.get? chunk.documentId with
  | none => rfl
  | some document =>
    by_cases hsees : db.SeesSource user document.sourceId
    · rw [Option.filter_some_pos (by simpa using hsees)]
      exact documentSource_visiblePart hids document
    · rw [Option.filter_some_neg (by simpa using hsees)]
      exact (documentSource_hidden hids hsees).symm

theorem chunkSource_hidden {chunk : Chunk} (hhidden : ¬ db.SeesDocument user chunk.documentId) :
    (chunkSource db chunk).filter (isCountedIn collectionIds) = none := by
  rw [chunkSource]
  cases hdocument : db.documents.get? chunk.documentId with
  | none => rfl
  | some document =>
    obtain ⟨hmem, hid⟩ := Table.get?_eq_some_iff.mp hdocument
    exact documentSource_hidden hids fun hsees => hhidden ⟨document, hmem, hsees, hid⟩

theorem countChunksByCollection_visiblePart :
    countChunksByCollection (db.visiblePart user) collectionIds =
      countChunksByCollection db collectionIds := by
  apply congrArg (fun rows => groupCount (List.map Source.collectionId rows))
  apply Table.filterMap_erase
  · intro chunk _ _
    exact (chunkSource_visiblePart hids chunk).symm
  · intro chunk _ hhidden
    exact chunkSource_hidden hids hhidden.2

end Counts

theorem listCollections_visiblePart (kind : Option CollectionKind) :
    listCollections (db.visiblePart user) user kind = listCollections db user kind := by
  have hcollections : (db.visiblePart user).kbCollections.rows.filter (fun row =>
      row.VisibleTo user ∧ ∀ k ∈ kind, row.kind = k) =
      db.kbCollections.rows.filter (fun row => row.VisibleTo user ∧ ∀ k ∈ kind, row.kind = k) := by
    apply Table.filter_erase
    intro collection _ hlisted hhidden
    exact hhidden (of_decide_eq_true hlisted).1
  have hids : ∀ id ∈ ((db.kbCollections.rows.filter (fun row =>
      row.VisibleTo user ∧ ∀ k ∈ kind, row.kind = k)).insertionSort collectionOrder).map
        Collection.id, db.SeesCollection user id := by
    intro id hid
    obtain ⟨collection, hmem, rfl⟩ := List.mem_map.mp hid
    obtain ⟨hmem, hlisted⟩ := List.mem_filter.mp ((List.mem_insertionSort _).mp hmem)
    exact ⟨collection, hmem, (of_decide_eq_true hlisted).1, rfl⟩
  rw [listCollections, listCollections, hcollections]
  simp only [countByCollectionColumn_visiblePart hids, countDocumentsByCollection_visiblePart hids,
    countChunksByCollection_visiblePart hids]

theorem get?_of_visible {κ ρ : Type} {key : ρ → κ} [DecidableEq κ] {table : Table key}
    {p : ρ → Prop} [DecidablePred p] {k : κ} {row : ρ} :
    (table.erase (¬ p ·)).get? k = some row ↔ table.get? k = some row ∧ p row := by
  rw [Table.get?_erase, Option.filter_eq_some_iff, decide_eq_true_iff, not_not]

theorem joinChunk_visiblePart (hcoherent : db.Coherent) {chunk : Chunk} (hchunk : chunk ∈ db.chunks)
    {row : SearchRow} (hvisible : row.collection.VisibleTo user) :
    joinChunk (db.visiblePart user) chunk = some row ↔ joinChunk db chunk = some row := by
  rw [joinChunk_eq_some, joinChunk_eq_some]
  constructor
  · rintro ⟨hdocument, hsource, hcollection, hrow⟩
    exact ⟨(get?_of_visible.mp hdocument).1, (get?_of_visible.mp hsource).1,
      (get?_of_visible.mp hcollection).1, hrow⟩
  · rintro ⟨hdocument, hsource, hcollection, hrow⟩
    obtain ⟨hdocumentMem, hdocumentId⟩ := Table.get?_eq_some_iff.mp hdocument
    obtain ⟨hsourceMem, hsourceId⟩ := Table.get?_eq_some_iff.mp hsource
    have hsame : chunk.collectionId = row.source.collectionId :=
      hcoherent.chunks row.source hsourceMem row.document hdocumentMem hsourceId.symm chunk hchunk
        hdocumentId.symm
    have hsees : db.SeesCollection user row.source.collectionId :=
      hsame ▸ seesCollection_of_get? hcollection hvisible
    exact ⟨get?_of_visible.mpr ⟨hdocument, row.source, hsourceMem, hsees, hsourceId⟩,
      get?_of_visible.mpr ⟨hsource, hsees⟩, get?_of_visible.mpr ⟨hcollection, hvisible⟩, hrow⟩

theorem searchRows_visiblePart (hcoherent : db.Coherent) {p : SearchRow → Bool}
    (hp : ∀ row, p row = true → row.collection.VisibleTo user) :
    ((db.visiblePart user).chunks.rows.filterMap (joinChunk (db.visiblePart user))).filter p =
      (db.chunks.rows.filterMap (joinChunk db)).filter p := by
  rw [List.filter_filterMap, List.filter_filterMap]
  apply Table.filterMap_erase
  · intro chunk hchunk _
    apply Option.ext
    intro row
    rw [Option.filter_eq_some_iff, Option.filter_eq_some_iff]
    exact and_congr_left fun hrow => (joinChunk_visiblePart hcoherent hchunk (hp row hrow)).symm
  · intro chunk _ hhidden
    apply Option.filter_eq_none_iff.mpr
    intro row hrow hkept
    have hcollection := (joinChunk_eq_some.mp hrow).2.2.1
    exact hhidden.1 (seesCollection_of_get? hcollection (hp row hkept))

theorem matchingRows_visiblePart (hcoherent : db.Coherent) (kind : CollectionKind)
    (metadataFilter : List (Str × Str)) :
    matchingRows (db.visiblePart user) user kind metadataFilter =
      matchingRows db user kind metadataFilter :=
  searchRows_visiblePart hcoherent fun _ hrow => (of_decide_eq_true hrow).1.2.2.2

theorem searchChunks_visiblePart (hcoherent : db.Coherent) (retriever : Retriever)
    (scan : ScanOrder) (request : SearchFields) :
    searchChunks retriever scan (db.visiblePart user) user request =
      searchChunks retriever scan db user request := by
  rw [searchChunks, searchChunks, matchingRows_visiblePart hcoherent]

theorem searchableRows_visiblePart (hcoherent : db.Coherent) :
    searchableRows (db.visiblePart user) user = searchableRows db user :=
  searchRows_visiblePart hcoherent fun _ hrow => (of_decide_eq_true hrow).1.2.2.2

theorem retrieveForEvaluation_visiblePart (hcoherent : db.Coherent) (retriever : Retriever)
    (query : Str) (topK : Int) :
    retrieveForEvaluation retriever (db.visiblePart user) user query topK =
      retrieveForEvaluation retriever db user query topK := by
  rw [retrieveForEvaluation, retrieveForEvaluation, searchableRows_visiblePart hcoherent]

theorem visibleSearchableChunkIds_visiblePart (hcoherent : db.Coherent) :
    visibleSearchableChunkIds (db.visiblePart user) user = visibleSearchableChunkIds db user := by
  rw [visibleSearchableChunkIds, visibleSearchableChunkIds, searchableRows_visiblePart hcoherent]

theorem not_visibleTo {collection : Collection} (h : ¬ collection.VisibleTo user) :
    collection.scope ≠ .public ∧ collection.userId ≠ some user := not_or.mp h

theorem listSources_raises {id : Uuid} (h : ¬ db.SeesCollection user id) :
    ∃ e, listSources db user id = .error e := by
  rw [listSources]
  cases hcollection : db.kbCollections.get? id with
  | none => exact ⟨_, rfl⟩
  | some collection =>
    have hhidden : ¬ collection.VisibleTo user :=
      fun hvisible => h (seesCollection_of_get? hcollection hvisible)
    simp only [if_pos (not_visibleTo hhidden)]
    exact ⟨_, rfl⟩

theorem visibleSource_raises {id : Uuid} (h : ¬ db.SeesSource user id) :
    ∃ e, visibleSource db user id = .error e := by
  rw [visibleSource]
  cases hsource : (db.sources.get? id).filter (·.deletedAt = none) with
  | none => exact ⟨_, rfl⟩
  | some source =>
    obtain ⟨hget, _⟩ := Option.filter_eq_some_iff.mp hsource
    obtain ⟨hmem, hid⟩ := Table.get?_eq_some_iff.mp hget
    cases hcollection : db.kbCollections.get? source.collectionId with
    | none =>
      simp only [hcollection]
      exact ⟨_, rfl⟩
    | some collection =>
      have hhidden : ¬ collection.VisibleTo user := fun hvisible =>
        h ⟨source, hmem, seesCollection_of_get? hcollection hvisible, hid⟩
      simp only [hcollection, if_pos (not_visibleTo hhidden)]
      exact ⟨_, rfl⟩

theorem getSourcePreview_raises {id : Uuid} (h : ¬ db.SeesSource user id) (files : Files)
    (rawTextLimit chunkLimit : Nat) :
    ∃ e, getSourcePreview db files user id rawTextLimit chunkLimit = .error e := by
  obtain ⟨e, he⟩ := visibleSource_raises h
  rw [getSourcePreview, he]
  exact ⟨e, rfl⟩

theorem resolveSourceFile_raises {id : Uuid} (h : ¬ db.SeesSource user id) (files : Files) :
    ∃ e, resolveSourceFile db files user id = .error e := by
  obtain ⟨e, he⟩ := visibleSource_raises h
  rw [resolveSourceFile, he]
  exact ⟨e, rfl⟩

structure Isolates (before after : Database) (user : Uuid) : Prop where
  collections : ∀ kind, listCollections after user kind = listCollections before user kind
  search : ∀ retriever scan request,
    searchChunks retriever scan after user request = searchChunks retriever scan before user request
  evaluation : ∀ retriever query topK,
    retrieveForEvaluation retriever after user query topK =
      retrieveForEvaluation retriever before user query topK
  chunkIds : visibleSearchableChunkIds after user = visibleSearchableChunkIds before user
  sources : ∀ id, ¬ before.SeesCollection user id → ∃ e, listSources before user id = .error e
  previews : ∀ id, ¬ before.SeesSource user id → ∀ files rawTextLimit chunkLimit,
    ∃ e, getSourcePreview before files user id rawTextLimit chunkLimit = .error e
  files : ∀ id, ¬ before.SeesSource user id → ∀ files,
    ∃ e, resolveSourceFile before files user id = .error e

theorem AgreesFor.isolates {before after : Database} {user : Uuid}
    (hagrees : before.AgreesFor after user) (hbefore : before.Coherent) (hafter : after.Coherent) :
    before.Isolates after user where
  collections kind := by
    rw [← listCollections_visiblePart, hagrees, listCollections_visiblePart]
  search retriever scan request := by
    rw [← searchChunks_visiblePart hafter, hagrees, searchChunks_visiblePart hbefore]
  evaluation retriever query topK := by
    rw [← retrieveForEvaluation_visiblePart hafter, hagrees,
      retrieveForEvaluation_visiblePart hbefore]
  chunkIds := by
    rw [← visibleSearchableChunkIds_visiblePart hafter, hagrees,
      visibleSearchableChunkIds_visiblePart hbefore]
  sources _ h := listSources_raises h
  previews _ h := getSourcePreview_raises h
  files _ h := resolveSourceFile_raises h

end Database

def otherUser : Uuid := ⟨0, 1⟩

def upload (user collectionId : Uuid) : Operation :=
  .ingestPrivateUpload Runtime.reliable user collectionId .case "brief.txt".toList [97, 98] []

def ownHistory : List Operation :=
  [.createPrivateCollection Runtime.reliable sampleUser .case "briefs".toList,
    upload sampleUser ⟨0, 0⟩]

def otherHistory : List Operation :=
  [.createPrivateCollection Runtime.reliable otherUser .case "briefs".toList,
    upload otherUser ⟨2, 0⟩]

theorem Database.isolates_otherHistory :
    Database.Isolates
      (Operation.performAll ownHistory (.empty [sampleUser, otherUser])).database
      (Operation.performAll (ownHistory ++ otherHistory) (.empty [sampleUser, otherUser])).database
      sampleUser :=
  AgreesFor.isolates (by decide +kernel) (Operation.performAll_coherent _ _).2
    (Operation.performAll_coherent _ _).2

-- The schema does not tie a chunk's collection to the collection of its document's source.
def strayWrites (title : Str) : List Write :=
  [.insertCollection ⟨⟨0, 0⟩, some sampleUser, .case, .private, "briefs".toList⟩,
    .insertCollection ⟨⟨0, 1⟩, some otherUser, .case, .private, "briefs".toList⟩,
    .insertSource ⟨⟨0, 2⟩, ⟨0, 1⟩, none, "brief.txt".toList, "61".toList, none, .completed, none, 0,
      none⟩,
    .insertDocument ⟨⟨0, 3⟩, ⟨0, 2⟩, title, "a".toList, [], "txt-v1".toList, 0, none⟩,
    .insertChunk ⟨⟨0, 4⟩, ⟨0, 0⟩, ⟨0, 3⟩, 0, "a".toList, 1, some [1], none, none⟩]

def strayDatabase (title : Str) : Database :=
  (Database.empty [sampleUser, otherUser]).applyAll (strayWrites title)

def sampleRetriever : Retriever where
  embedQuery _ := .ok [1]
  cosineDistance _ _ := 0

def sampleRequest : SearchRequest where
  query := "a".toList
  kind := .case
  topK := 5
  metadataFilter := []
  query_length := by decide
  topK_bounds := by decide

theorem Database.not_isolates_strayChunk :
    ∃ before after : Database,
      (∃ writes writes', (Database.empty [sampleUser, otherUser]).firstRefusal writes = none ∧
        (Database.empty [sampleUser, otherUser]).firstRefusal writes' = none ∧
        before = (Database.empty [sampleUser, otherUser]).applyAll writes ∧
        after = (Database.empty [sampleUser, otherUser]).applyAll writes') ∧
      before.AgreesFor after sampleUser ∧ ¬ before.Isolates after sampleUser := by
  refine ⟨strayDatabase "a".toList, strayDatabase "b".toList,
    ⟨strayWrites "a".toList, strayWrites "b".toList, by decide +kernel, by decide +kernel, rfl, rfl⟩,
    by decide +kernel, fun h => ?_⟩
  have hdiffer : searchChunks sampleRetriever .stored (strayDatabase "b".toList) sampleUser
      sampleRequest.toSearchFields ≠
      searchChunks sampleRetriever .stored (strayDatabase "a".toList) sampleUser
        sampleRequest.toSearchFields := by
    decide +kernel
  exact hdiffer (h.search sampleRetriever .stored sampleRequest.toSearchFields)

end YCStudio
