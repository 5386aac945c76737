import Mathlib.Data.Set.Card
import YCStudio.Consistency.Coherence
import YCStudio.Consistency.Settled
import YCStudio.Evaluation.SearchScope
import YCStudio.Library.Joins

namespace YCStudio

section Grouping

theorem count_filterMap {α β : Type} (rows : List α) (g : α → Option β) (h : β → Uuid) (id : Uuid) :
    ((rows.filterMap g).map h).count id =
      (rows.filter fun row => (g row).any fun b => h b = id).length := by
  induction rows with
  | nil => rfl
  | cons row rows ih =>
    cases hrow : g row with
    | none => simp [hrow, ih]
    | some b => by_cases hid : h b = id <;> simp [hrow, hid, ih]

theorem length_filter_eq_sum {α : Type} (rows : List α) (p : α → Bool) :
    (rows.filter p).length = (rows.map fun row => if p row then 1 else 0).sum := by
  induction rows with
  | nil => rfl
  | cons row rows ih => cases hp : p row <;> simp [hp, ih, Nat.add_comm]

end Grouping

def Source.isLiveIn (collectionId : Uuid) (source : Source) : Bool :=
  source.collectionId = collectionId ∧ source.deletedAt = none

theorem isCountedIn_any {ids : List Uuid} {id : Uuid} (hid : id ∈ ids) (found : Option Source) :
    (found.filter (isCountedIn ids)).any (fun source => source.collectionId = id) =
      found.any (Source.isLiveIn id) := by
  cases found with
  | none => rfl
  | some source =>
    by_cases hin : source.collectionId = id
    · by_cases hlive : source.deletedAt = none <;>
        simp [Option.filter, isCountedIn, Source.isLiveIn, hin, hlive, hid]
    · cases hcounted : isCountedIn ids source <;>
        simp [Option.filter, hcounted, Source.isLiveIn, hin]

namespace Database

variable (db : Database) (collectionId : Uuid)

def liveSources : List Source := db.sources.rows.filter (Source.isLiveIn collectionId)

def chunkIsLive (chunk : Chunk) : Bool := (chunkSource db chunk).any (Source.isLiveIn collectionId)

variable {db collectionId} {ids : List Uuid} (hid : collectionId ∈ ids)

include hid

theorem sourceCount_eq :
    ((countByCollectionColumn db ids).lookup collectionId).getD 0 =
      (db.liveSources collectionId).length := by
  have hrows : (db.sources.rows.filter (isCountedIn ids)).map Source.collectionId =
      (db.sources.rows.filterMap fun source => (some source).filter (isCountedIn ids)).map
        Source.collectionId := by
    rw [← List.filterMap_eq_filter]
    rfl
  rw [countByCollectionColumn, lookup_groupCount, hrows, count_filterMap]
  simp only [isCountedIn_any hid, Option.any_some]
  rfl

theorem documentCount_eq :
    ((countDocumentsByCollection db ids).lookup collectionId).getD 0 =
      ((db.liveSources collectionId).map fun source => (db.documentsOf source.id).length).sum := by
  rw [countDocumentsByCollection, lookup_groupCount, count_filterMap]
  simp only [isCountedIn_any hid]
  exact (Table.length_children db.sources db.documents.rows Document.sourceId _).symm

theorem chunkCount_filter :
    ((countChunksByCollection db ids).lookup collectionId).getD 0 =
      (db.chunks.rows.filter (db.chunkIsLive collectionId)).length := by
  rw [countChunksByCollection, lookup_groupCount, count_filterMap]
  simp only [isCountedIn_any hid]
  rfl

omit hid

theorem length_chunkIsLive :
    (db.chunks.rows.filter (db.chunkIsLive collectionId)).length =
      ((db.liveSources collectionId).map fun source =>
        ((db.documentsOf source.id).map fun document => (db.chunksOf document.id).length).sum).sum := by
  have hchunks := Table.length_children db.documents db.chunks.rows Chunk.documentId fun document =>
    (db.sources.get? document.sourceId).any (Source.isLiveIn collectionId)
  have hdocuments := Table.sum_children db.sources db.documents.rows Document.sourceId
    (Source.isLiveIn collectionId) fun document => (db.chunksOf document.id).length
  have hjoin : db.chunkIsLive collectionId = fun chunk =>
      (db.documents.get? chunk.documentId).any fun document =>
        (db.sources.get? document.sourceId).any (Source.isLiveIn collectionId) := by
    funext chunk
    rw [chunkIsLive, chunkSource]
    cases db.documents.get? chunk.documentId <;> rfl
  rw [hjoin]
  exact hchunks.symm.trans hdocuments.symm

theorem Settled.holdsOne (h : db.Settled) {source : Source} (hsource : source ∈ db.sources)
    (hlive : source.deletedAt = none) :
    db.documentsOf source.id = [] ∨
      ∃ document, db.Embodies source.id source.collectionId document := by
  have hsettles := h source hsource
  rw [Settles] at hsettles
  split at hsettles
  · exact Or.inl (hsettles hlive).2
  · exact Or.inr (hsettles hlive).2
  · exact Or.inl (hsettles hlive).2
  · exact hsettles.elim
  · exact hsettles.elim
  · exact hsettles.elim

theorem mem_liveSources {source : Source} :
    source ∈ db.liveSources collectionId ↔
      source ∈ db.sources ∧ source.collectionId = collectionId ∧ source.deletedAt = none := by
  rw [liveSources, List.mem_filter, Source.isLiveIn, decide_eq_true_iff]
  rfl

theorem sourceView_documents (h : db.Settled) {source : Source} (hsource : source ∈ db.sources)
    (hlive : source.deletedAt = none) :
    (if (sourceView db source).documentId.isSome then 1 else 0) =
        (db.documentsOf source.id).length ∧
      (sourceView db source).chunkCount =
        ((db.documentsOf source.id).map fun document => (db.chunksOf document.id).length).sum := by
  rcases h.holdsOne hsource hlive with hnone | ⟨document, hembodies⟩
  · simp [sourceView, hnone]
  · simp [sourceView, hembodies.documents]

theorem listSources_ok {collection : Collection} (hmem : collection ∈ db.kbCollections)
    {user : Uuid} (hvisible : collection.VisibleTo user) :
    ∃ rows : List Source, rows.Perm (db.liveSources collection.id) ∧
      rows.Pairwise (fun a b => b.createdAt ≤ a.createdAt) ∧
        listSources db user collection.id = .ok (rows.map (sourceView db)) := by
  have : Std.Total fun a b : Source => b.createdAt ≤ a.createdAt :=
    ⟨fun a b => Nat.le_total b.createdAt a.createdAt⟩
  have : IsTrans Source fun a b => b.createdAt ≤ a.createdAt :=
    ⟨fun _ _ _ hab hbc => Nat.le_trans hbc hab⟩
  refine ⟨((db.sourcesOf collection.id).filter (·.deletedAt = none)).insertionSort
    fun a b => b.createdAt ≤ a.createdAt, ?_, List.pairwise_insertionSort _ _, ?_⟩
  · apply (List.perm_insertionSort _ _).trans
    rw [liveSources, sourcesOf, List.filter_filter]
    apply List.Perm.of_eq
    apply List.filter_congr
    intro source _
    simp [Source.isLiveIn, Bool.and_comm]
  · have hallowed : ¬ (collection.scope ≠ .public ∧ collection.userId ≠ some user) := by
      rintro ⟨hscope, huser⟩
      exact hvisible.elim hscope huser
    simp only [listSources, Table.get?_key hmem, if_neg hallowed]
    rfl

def searchableChunks (db : Database) (user : Uuid) (collection : Collection) : Set Chunk :=
  {chunk | chunk ∈ db.chunks ∧ chunk.collectionId = collection.id ∧
    MayReturn db user collection.kind chunk.id}

section Search

variable (hintact : db.Intact) (hcoherent : db.Coherent) (hsettled : db.Settled)
  {collection : Collection} (hmem : collection ∈ db.kbCollections) {user : Uuid}
  (hvisible : collection.VisibleTo user) (hkind : isSearchableKind collection.kind)

include hcoherent hkind in
theorem chunkIsLive_of_mayReturn {chunk : Chunk} (hchunk : chunk ∈ db.chunks)
    (hin : chunk.collectionId = collection.id)
    (hreturn : MayReturn db user collection.kind chunk.id) :
    db.chunkIsLive collection.id chunk := by
  obtain ⟨row, hrow, hid⟩ := (mayReturn_iff hkind chunk.id).mp hreturn
  obtain ⟨hjoined, hmatches⟩ := List.mem_filter.mp hrow
  obtain ⟨other, hother, hjoin⟩ := List.mem_filterMap.mp hjoined
  obtain ⟨hdocument, hsource, _, hsame⟩ := joinChunk_eq_some.mp hjoin
  obtain rfl : other = chunk := Table.eq_of_key_eq hother hchunk (hsame ▸ hid)
  obtain ⟨hdocumentMem, hdocumentId⟩ := Table.get?_eq_some_iff.mp hdocument
  obtain ⟨hsourceMem, hsourceId⟩ := Table.get?_eq_some_iff.mp hsource
  have hcollection := hcoherent.chunks row.source hsourceMem row.document hdocumentMem
    hsourceId.symm other hchunk hdocumentId.symm
  have hlive : row.source.deletedAt = none := (of_decide_eq_true hmatches).1.2.2.1
  rw [chunkIsLive, chunkSource, hdocument, Option.bind_some, documentSource, hsource, Option.any_some,
    Source.isLiveIn, decide_eq_true_iff]
  exact ⟨hcollection.symm.trans hin, hlive⟩

include hsettled hmem hvisible hkind in
theorem mayReturn_of_chunkIsLive {chunk : Chunk} (hchunk : chunk ∈ db.chunks)
    (hlive : db.chunkIsLive collection.id chunk) :
    chunk.collectionId = collection.id ∧ MayReturn db user collection.kind chunk.id := by
  rw [chunkIsLive, Option.any_eq_true] at hlive
  obtain ⟨source, hfound, hlive⟩ := hlive
  rw [Source.isLiveIn, decide_eq_true_iff] at hlive
  obtain ⟨hin, hlive⟩ := hlive
  obtain ⟨document, hdocument, hsource⟩ := Option.bind_eq_some_iff.mp hfound
  obtain ⟨hdocumentMem, hdocumentId⟩ := Table.get?_eq_some_iff.mp hdocument
  obtain ⟨hsourceMem, hsourceId⟩ := Table.get?_eq_some_iff.mp hsource
  have hof : document ∈ db.documentsOf source.id :=
    List.mem_filter.mpr ⟨hdocumentMem, decide_eq_true hsourceId.symm⟩
  rcases hsettled.holdsOne hsourceMem hlive with hnone | ⟨held, hembodies⟩
  · rw [hnone] at hof
    exact absurd hof List.not_mem_nil
  · rw [hembodies.documents, List.mem_singleton] at hof
    subst hof
    have hchunkOf : chunk ∈ db.chunksOf document.id :=
      List.mem_filter.mpr ⟨hchunk, decide_eq_true hdocumentId.symm⟩
    have hcollection := (hembodies.collections chunk hchunkOf).trans hin
    obtain ⟨stored, hstored, hstoredId, hembedded⟩ := hembodies.embedded
    obtain rfl := Table.eq_of_key_eq hstored hmem (hstoredId.trans hin)
    have hwhole : ¬ isWholeDocumentKind stored.kind := by
      cases hk : stored.kind <;> simp [hk, isSearchableKind, isWholeDocumentKind] at hkind ⊢
    have hembedding := hembedded chunk hchunkOf
    rw [Chunk.EmbeddedFor, if_neg hwhole] at hembedding
    refine ⟨hcollection, (mayReturn_iff hkind chunk.id).mpr ⟨⟨chunk, document, source, stored⟩, ?_, rfl⟩⟩
    refine List.mem_filter.mpr ⟨List.mem_filterMap.mpr ⟨chunk, hchunk, joinChunk_eq_some.mpr
      ⟨hdocument, hsource, ?_, rfl⟩⟩, decide_eq_true ⟨⟨hembedding.1, hembodies.live, hlive, hvisible⟩,
        rfl, fun _ h => absurd h List.not_mem_nil⟩⟩
    rw [hcollection]
    exact Table.get?_key hstored

include hcoherent hsettled hmem hvisible hkind in
theorem ncard_searchableChunks :
    (db.searchableChunks user collection).ncard =
      (db.chunks.rows.filter (db.chunkIsLive collection.id)).length := by
  have hrows : (db.chunks.rows.filter (db.chunkIsLive collection.id)).Nodup :=
    (List.Nodup.of_map _ db.chunks.nodup).filter _
  have hset : db.searchableChunks user collection =
      ((db.chunks.rows.filter (db.chunkIsLive collection.id)).toFinset : Set Chunk) := by
    apply Set.ext
    intro chunk
    rw [List.coe_toFinset]
    change _ ↔ chunk ∈ db.chunks.rows.filter _
    rw [List.mem_filter]
    constructor
    · rintro ⟨hchunk, hin, hreturn⟩
      exact ⟨hchunk, chunkIsLive_of_mayReturn hcoherent hkind hchunk hin hreturn⟩
    · rintro ⟨hchunk, hlive⟩
      exact ⟨hchunk, mayReturn_of_chunkIsLive hsettled hmem hvisible hkind hchunk hlive⟩
  rw [hset, Set.ncard_coe_finset, List.toFinset_card_of_nodup hrows]

end Search

theorem filter_sorted_eq {collections : List Collection} (hnodup : (collections.map Collection.id).Nodup)
    {collection : Collection} (hmem : collection ∈ collections) :
    collections.filter (·.id = collection.id) = [collection] := by
  induction collections with
  | nil => exact absurd hmem List.not_mem_nil
  | cons head collections ih =>
    obtain ⟨hnew, hnodup⟩ := List.nodup_cons.mp hnodup
    rcases List.mem_cons.mp hmem with rfl | hmem
    · have hrest : collections.filter (·.id = collection.id) = [] := by
        apply List.filter_eq_nil_iff.mpr
        intro other hother hsame
        exact hnew (List.mem_map.mpr ⟨other, hother, of_decide_eq_true hsame⟩)
      simp [hrest]
    · have hne : head.id ≠ collection.id := by
        intro hsame
        exact hnew (hsame ▸ List.mem_map_of_mem hmem)
      simp [hne, ih hnodup hmem]

theorem listCollections_entry {user : Uuid} {kind : Option CollectionKind} {collection : Collection}
    (hmem : collection ∈ db.kbCollections) (hvisible : collection.VisibleTo user)
    (hkind : ∀ k ∈ kind, collection.kind = k) :
    ∃ ids view, collection.id ∈ ids ∧
      (listCollections db user kind).filter (·.id = collection.id) = [view] ∧
      view.sourceCount = ((countByCollectionColumn db ids).lookup collection.id).getD 0 ∧
      view.documentCount = ((countDocumentsByCollection db ids).lookup collection.id).getD 0 ∧
      view.chunkCount = ((countChunksByCollection db ids).lookup collection.id).getD 0 := by
  let collections := (db.kbCollections.rows.filter fun row =>
    row.VisibleTo user ∧ ∀ k ∈ kind, row.kind = k).insertionSort collectionOrder
  have hlisted : collection ∈ collections :=
    (List.mem_insertionSort _).mpr (List.mem_filter.mpr ⟨hmem, decide_eq_true ⟨hvisible, hkind⟩⟩)
  have hnodup : (collections.map Collection.id).Nodup :=
    ((List.perm_insertionSort collectionOrder _).map _).nodup_iff.mpr
      (db.kbCollections.nodup.sublist (List.filter_sublist.map _))
  let ids := collections.map Collection.id
  let view : CollectionView := {
    id := collection.id
    kind := collection.kind
    scope := collection.scope
    name := collection.name
    sourceCount := ((countByCollectionColumn db ids).lookup collection.id).getD 0
    documentCount := ((countDocumentsByCollection db ids).lookup collection.id).getD 0
    chunkCount := ((countChunksByCollection db ids).lookup collection.id).getD 0 }
  refine ⟨ids, view, List.mem_map_of_mem hlisted, ?_, rfl, rfl, rfl⟩
  rw [listCollections, if_neg (List.ne_nil_of_mem hlisted), List.filter_map]
  have hsame := filter_sorted_eq hnodup hlisted
  simp only [Function.comp_def]
  exact congrArg (List.map _) hsame

structure CountsAgree (db : Database) (user : Uuid) (collection : Collection)
    (view : CollectionView) (views : List SourceView) : Prop where
  sources : view.sourceCount = views.length
  documents : view.documentCount = (views.filter (·.documentId.isSome)).length
  chunks : view.chunkCount = (views.map SourceView.chunkCount).sum
  searchable : isSearchableKind collection.kind →
    view.chunkCount = (db.searchableChunks user collection).ncard

def ViewsAgree (db : Database) (user : Uuid) (kind : Option CollectionKind)
    (collection : Collection) : Prop :=
  ∃ view views, (listCollections db user kind).filter (·.id = collection.id) = [view] ∧
    listSources db user collection.id = .ok views ∧ db.CountsAgree user collection view views

theorem Settled.viewsAgree (hsettled : db.Settled) (hcoherent : db.Coherent)
    {collection : Collection} (hmem : collection ∈ db.kbCollections) {user : Uuid}
    (hvisible : collection.VisibleTo user) {kind : Option CollectionKind}
    (hkind : ∀ k ∈ kind, collection.kind = k) : db.ViewsAgree user kind collection := by
  obtain ⟨ids, view, hid, hview, hsources, hdocuments, hchunks⟩ :=
    listCollections_entry hmem hvisible hkind
  obtain ⟨rows, hperm, _, hviews⟩ := listSources_ok hmem hvisible
  have hrow : ∀ source ∈ rows, source ∈ db.sources ∧ source.deletedAt = none := by
    intro source hsource
    obtain ⟨hmem, _, hlive⟩ := mem_liveSources.mp (hperm.mem_iff.mp hsource)
    exact ⟨hmem, hlive⟩
  have hsum : ∀ f : Source → Nat,
      ((db.liveSources collection.id).map f).sum = (rows.map f).sum :=
    fun f => (hperm.map f).sum_eq.symm
  refine ⟨view, rows.map (sourceView db), hview, hviews, ?_, ?_, ?_, ?_⟩
  · rw [hsources, sourceCount_eq hid, List.length_map, hperm.length_eq]
  · rw [hdocuments, documentCount_eq hid, hsum, length_filter_eq_sum, List.map_map]
    apply congrArg List.sum
    apply List.map_congr_left
    intro source hsource
    obtain ⟨hmem, hlive⟩ := hrow source hsource
    exact (sourceView_documents hsettled hmem hlive).1.symm
  · rw [hchunks, chunkCount_filter hid, length_chunkIsLive, hsum, List.map_map]
    apply congrArg List.sum
    apply List.map_congr_left
    intro source hsource
    obtain ⟨hmem, hlive⟩ := hrow source hsource
    exact (sourceView_documents hsettled hmem hlive).2.symm
  · intro hsearchable
    rw [hchunks, chunkCount_filter hid,
      ncard_searchableChunks hcoherent hsettled hmem hvisible hsearchable]

end Database

theorem Operation.performAll_viewsAgree (users : List Uuid) (ops : List Operation) (user : Uuid)
    (kind : Option CollectionKind) {collection : Collection}
    (hmem : collection ∈ (performAll ops (.empty users)).database.kbCollections)
    (hvisible : collection.VisibleTo user) (hkind : ∀ k ∈ kind, collection.kind = k) :
    (performAll ops (.empty users)).database.ViewsAgree user kind collection := by
  have hboth : (performAll ops (.empty users)).Sound ∧
      (performAll ops (.empty users)).database.Coherent ∧
        (performAll ops (.empty users)).database.Settled := by
    apply @performAll_database fun db => db.Coherent ∧ db.Settled
    · exact fun db events hintact h hadmissible =>
        ⟨(h.1.play hintact hadmissible).2, h.2.play hintact hadmissible⟩
    · exact ⟨.empty users, .empty users⟩
  obtain ⟨_, hcoherent, hsettled⟩ := hboth
  exact hsettled.viewsAgree hcoherent hmem hvisible hkind

def briefHistory : List Operation :=
  [.createPrivateCollection Runtime.reliable sampleUser .case "briefs".toList,
    .ingestPrivateUpload Runtime.reliable sampleUser ⟨0, 0⟩ .case "brief.txt".toList [97, 98] []]

theorem Operation.performAll_viewsAgree_brief :
    (performAll briefHistory (.empty [sampleUser])).database.ViewsAgree sampleUser none
      ⟨⟨0, 0⟩, some sampleUser, .case, .private, "briefs".toList⟩ := by
  apply performAll_viewsAgree
  · exact Table.mem_def.mpr (by decide +kernel)
  · exact Or.inr rfl
  · exact fun _ h => nomatch h

end YCStudio
