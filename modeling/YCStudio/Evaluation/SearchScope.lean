import YCStudio.Evaluation.Sampling
import YCStudio.Library.TopK
import YCStudio.Library.Traverse

namespace YCStudio

section Search

variable {retriever : Retriever} {db : Database} {user : Uuid} {request : SearchFields}

theorem searchChunks_eq {queryVector : Embedding} (scan : ScanOrder)
    (hkind : isSearchableKind request.kind)
    (hquery : retriever.embedQuery request.query = .ok queryVector) :
    searchChunks retriever scan db user request =
      .ok ((((scan.arrange (matchingRows db user request.kind request.metadataFilter)).insertionSort
        fun a b => a.distance retriever queryVector ≤ b.distance retriever queryVector).take
          request.topK).map (SearchRow.retrieved retriever queryVector)) := by
  simp only [searchChunks, hkind, hquery]
  rfl

theorem searchChunks_ranks {scan : ScanOrder} {results : List RetrievedChunk}
    (h : searchChunks retriever scan db user request = .ok results) :
    isSearchableKind request.kind ∧ ∃ queryVector rows,
      retriever.embedQuery request.query = .ok queryVector ∧
      TopK.Ranks (SearchRow.distance retriever queryVector)
        (matchingRows db user request.kind request.metadataFilter) rows ∧
      results = (rows.take request.topK).map (SearchRow.retrieved retriever queryVector) := by
  rw [searchChunks] at h
  split at h
  · cases h
  · rename_i hkind
    obtain ⟨queryVector, hquery, h⟩ := Except.bind_eq_ok h
    cases h
    exact ⟨by simpa using hkind, queryVector, _, hquery, TopK.ranks_of_perm (scan.perm _), rfl⟩

def ScanOrder.listing {rows ranked : List SearchRow} (h : ranked.Perm rows) : ScanOrder where
  arrange other := if other = rows then ranked else other
  perm other := by
    split
    · rename_i hsame
      exact hsame ▸ h
    · exact .refl other

theorem ScanOrder.arrange_listing {rows ranked : List SearchRow} (h : ranked.Perm rows) :
    (ScanOrder.listing h).arrange rows = ranked := if_pos rfl

theorem exists_searchChunks {queryVector : Embedding} {rows : List SearchRow}
    (hkind : isSearchableKind request.kind)
    (hquery : retriever.embedQuery request.query = .ok queryVector)
    (hrows : TopK.Ranks (SearchRow.distance retriever queryVector)
      (matchingRows db user request.kind request.metadataFilter) rows) :
    ∃ scan, searchChunks retriever scan db user request =
      .ok ((rows.take request.topK).map (SearchRow.retrieved retriever queryVector)) := by
  refine ⟨.listing hrows.perm, ?_⟩
  rw [searchChunks_eq _ hkind hquery, ScanOrder.arrange_listing, hrows.insertionSort_eq]

end Search

-- The chunks that search_chunks can return for some query and encoder, in some order of equals.
def MayReturn (db : Database) (user : Uuid) (kind : CollectionKind) (chunkId : Uuid) : Prop :=
  ∃ (retriever : Retriever) (scan : ScanOrder) (request : SearchRequest)
    (results : List RetrievedChunk), request.kind = kind ∧ request.metadataFilter = [] ∧
      searchChunks retriever scan db user request.toSearchFields = .ok results ∧
      ∃ result ∈ results, result.chunk.id = chunkId

def indifferentRetriever : Retriever where
  embedQuery _ := .ok []
  cosineDistance _ _ := 0

def anyRequest (kind : CollectionKind) : SearchRequest where
  query := "any".toList
  kind
  topK := 1
  metadataFilter := []
  query_length := by decide
  topK_bounds := by decide

theorem mayReturn_iff {db : Database} {user : Uuid} {kind : CollectionKind}
    (hkind : isSearchableKind kind) (chunkId : Uuid) :
    MayReturn db user kind chunkId ↔
      ∃ row ∈ matchingRows db user kind [], row.chunk.id = chunkId := by
  constructor
  · rintro ⟨retriever, scan, request, results, rfl, hfilter, hreturned, result, hresult, hid⟩
    obtain ⟨_, queryVector, rows, _, hrows, rfl⟩ := searchChunks_ranks hreturned
    rw [hfilter] at hrows
    obtain ⟨row, hrow, rfl⟩ := List.mem_map.mp hresult
    exact ⟨row, hrows.perm.mem_iff.mp (List.mem_of_mem_take hrow), hid⟩
  · rintro ⟨row, hrow, hid⟩
    have hzero : ∀ other : SearchRow, other.distance indifferentRetriever [] = 0 := by
      intro other
      rw [SearchRow.distance]
      cases other.chunk.embedding <;> rfl
    have hranks : TopK.Ranks (SearchRow.distance indifferentRetriever [])
        (matchingRows db user kind []) (row :: (matchingRows db user kind []).erase row) := by
      refine ⟨(List.perm_cons_erase hrow).symm, List.pairwise_of_forall ?_⟩
      intro a b
      rw [hzero, hzero]
    obtain ⟨scan, hreturned⟩ := @exists_searchChunks indifferentRetriever db user
      (anyRequest kind).toSearchFields [] _ hkind rfl hranks
    exact ⟨indifferentRetriever, scan, anyRequest kind, _, rfl, rfl, hreturned, _,
      List.mem_cons_self, hid⟩

section Scope

variable (db : Database) (user : Uuid)

def served : Set Uuid := {id | MayReturn db user .case id ∨ MayReturn db user .material id}

variable {db user}

theorem mem_matchingRows {kind : CollectionKind} (hkind : isSearchableKind kind) {row : SearchRow} :
    row ∈ matchingRows db user kind [] ↔
      row ∈ searchableRows db user ∧ row.collection.kind = kind := by
  rw [matchingRows, searchableRows, List.mem_filter, List.mem_filter, decide_eq_true_iff,
    decide_eq_true_iff]
  constructor
  · rintro ⟨hjoin, hsearchable, rfl, _⟩
    exact ⟨⟨hjoin, hsearchable, hkind⟩, rfl⟩
  · rintro ⟨⟨hjoin, hsearchable, _⟩, rfl⟩
    exact ⟨hjoin, hsearchable, rfl, fun _ h => absurd h List.not_mem_nil⟩

theorem mem_served {id : Uuid} :
    id ∈ served db user ↔ ∃ row ∈ searchableRows db user, row.chunk.id = id := by
  change MayReturn db user .case id ∨ MayReturn db user .material id ↔ _
  rw [mayReturn_iff rfl, mayReturn_iff rfl]
  constructor
  · rintro (⟨row, hrow, hid⟩ | ⟨row, hrow, hid⟩)
    · exact ⟨row, ((mem_matchingRows rfl).mp hrow).1, hid⟩
    · exact ⟨row, ((mem_matchingRows rfl).mp hrow).1, hid⟩
  · rintro ⟨row, hrow, hid⟩
    have hkind := (of_decide_eq_true (List.mem_filter.mp hrow).2).2
    rcases of_decide_eq_true hkind with hcase | hmaterial
    · exact Or.inl ⟨row, (mem_matchingRows rfl).mpr ⟨hrow, hcase⟩, hid⟩
    · exact Or.inr ⟨row, (mem_matchingRows rfl).mpr ⟨hrow, hmaterial⟩, hid⟩

theorem mem_visibleSearchableChunkIds {id : Str} :
    id ∈ visibleSearchableChunkIds db user ↔ id ∈ Set.image Uuid.str (served db user) := by
  rw [visibleSearchableChunkIds, List.mem_map]
  constructor
  · rintro ⟨row, hrow, rfl⟩
    exact ⟨row.chunk.id, mem_served.mpr ⟨row, hrow, rfl⟩, rfl⟩
  · rintro ⟨chunkId, hserved, rfl⟩
    obtain ⟨row, hrow, rfl⟩ := mem_served.mp hserved
    exact ⟨row, hrow, rfl⟩

end Scope

section Retrieve

variable {retriever : Retriever} {db : Database} {user : Uuid} {query : Str} {queryVector : Embedding}
  (hquery : retriever.embedQuery query = .ok queryVector)

def SearchRow.hit (retriever : Retriever) (queryVector : Embedding) (row : SearchRow) :
    EvaluationHit where
  chunkId := row.chunk.id
  documentId := row.document.id
  score := cosineDistanceToScore (row.distance retriever queryVector)

def rankedRows (retriever : Retriever) (db : Database) (user : Uuid) (queryVector : Embedding) :
    List SearchRow :=
  (searchableRows db user).insertionSort
    (evaluationOrder (SearchRow.distance retriever queryVector))

include hquery in
theorem retrieveForEvaluation_eq (k : Nat) :
    retrieveForEvaluation retriever db user query k =
      .ok (((rankedRows retriever db user queryVector).take k).map
        (SearchRow.hit retriever queryVector)) := by
  simp only [retrieveForEvaluation, hquery, limitRows]
  rfl

theorem mem_rankedRows {row : SearchRow} :
    row ∈ rankedRows retriever db user queryVector ↔ row ∈ searchableRows db user :=
  List.mem_insertionSort _

theorem rankedRows_ranks :
    TopK.Ranks (SearchRow.distance retriever queryVector) (searchableRows db user)
      (rankedRows retriever db user queryVector) where
  perm := List.perm_insertionSort _ _
  sorted := by
    have : Std.Total (evaluationOrder (SearchRow.distance retriever queryVector)) := by
      constructor
      intro a b
      rcases lt_trichotomy (a.distance retriever queryVector) (b.distance retriever queryVector) with
        hlt | heq | hgt
      · exact Or.inl (Or.inl hlt)
      · rcases Uuid.le_total a.chunk.id b.chunk.id with hle | hle
        · exact Or.inl (Or.inr ⟨heq, hle⟩)
        · exact Or.inr (Or.inr ⟨heq.symm, hle⟩)
      · exact Or.inr (Or.inl hgt)
    have : IsTrans SearchRow (evaluationOrder (SearchRow.distance retriever queryVector)) := by
      constructor
      rintro a b c (hab | ⟨hab, hle⟩) (hbc | ⟨hbc, hle'⟩)
      · exact Or.inl (hab.trans hbc)
      · exact Or.inl (hbc ▸ hab)
      · exact Or.inl (hab ▸ hbc)
      · exact Or.inr ⟨hab.trans hbc, Uuid.le_trans hle hle'⟩
    have hsorted : (rankedRows retriever db user queryVector).Pairwise
        (evaluationOrder (SearchRow.distance retriever queryVector)) :=
      List.pairwise_insertionSort _ _
    apply hsorted.imp
    rintro a b (hlt | ⟨heq, _⟩)
    · exact hlt.le
    · exact heq.le

def RetrievedChunk.distance (retriever : Retriever) (queryVector : Embedding)
    (result : RetrievedChunk) : Rat :=
  (result.chunk.embedding.map (retriever.cosineDistance · queryVector)).getD 0

def RetrievedChunk.hit (result : RetrievedChunk) : EvaluationHit where
  chunkId := result.chunk.id
  documentId := result.document.id
  score := result.score

end Retrieve

def measuringRetriever : Retriever where
  embedQuery _ := .ok [0]
  cosineDistance a b := (a.zipWith (fun x y => |x - y|) b).sum

def libraryUser : Uuid := ⟨0, 0⟩

def libraryDatabase : Database :=
  (Database.empty [libraryUser]).applyAll
    [.insertCollection ⟨⟨0, 0⟩, some libraryUser, .case, .private, "briefs".toList⟩,
      .insertCollection ⟨⟨0, 1⟩, none, .material, .public, "stock".toList⟩,
      .insertSource ⟨⟨0, 2⟩, ⟨0, 0⟩, none, "brief.txt".toList, "61".toList, none, .completed, none, 0,
        none⟩,
      .insertSource ⟨⟨0, 3⟩, ⟨0, 1⟩, none, "stock.txt".toList, "62".toList, none, .completed, none, 0,
        none⟩,
      .insertDocument ⟨⟨0, 4⟩, ⟨0, 2⟩, "brief".toList, "a".toList, [], "txt-v1".toList, 0, none⟩,
      .insertDocument ⟨⟨0, 5⟩, ⟨0, 3⟩, "stock".toList, "b".toList, [], "txt-v1".toList, 0, none⟩,
      .insertChunk ⟨⟨0, 6⟩, ⟨0, 0⟩, ⟨0, 4⟩, 0, "a".toList, 1, some [2], none, none⟩,
      .insertChunk ⟨⟨0, 7⟩, ⟨0, 1⟩, ⟨0, 5⟩, 0, "b".toList, 1, some [1], none, none⟩]

end YCStudio
