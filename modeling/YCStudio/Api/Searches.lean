import YCStudio.Api.Previews
import YCStudio.Evaluation.SearchScope

namespace YCStudio

section Scores

theorem cosineDistanceToScore_bounds (distance : Rat) :
    0 ≤ cosineDistanceToScore distance ∧ cosineDistanceToScore distance ≤ 1 :=
  ⟨le_min zero_le_one (le_max_left _ _), min_le_left _ _⟩

theorem cosineDistanceToScore_anti {a b : Rat} (h : a ≤ b) :
    cosineDistanceToScore b ≤ cosineDistanceToScore a := by
  have hhalf : 1 - b / 2 ≤ 1 - a / 2 := by linarith
  exact min_le_min le_rfl (max_le_max le_rfl hhalf)

end Scores

section Rows

variable {db : Database} {user : Uuid} {kind : CollectionKind} {metadataFilter : List (Str × Str)}
  {row : SearchRow} {sha256 : Bytes → Str}

theorem mem_matchingRows_iff :
    row ∈ matchingRows db user kind metadataFilter ↔
      (∃ chunk ∈ db.chunks, joinChunk db chunk = some row) ∧ row.IsSearchableBy user ∧
        row.collection.kind = kind ∧ row.document.MetaContains metadataFilter := by
  rw [matchingRows, List.mem_filter, List.mem_filterMap, decide_eq_true_iff]
  rfl

theorem nodup_joined (db : Database) :
    ((db.chunks.rows.filterMap (joinChunk db)).map fun row => row.chunk.id).Nodup := by
  have hjoined : ∀ chunks : List Chunk,
      ((chunks.filterMap (joinChunk db)).map fun row => row.chunk.id).Sublist
        (chunks.map Chunk.id) := by
    intro chunks
    induction chunks with
    | nil => exact .slnil
    | cons chunk chunks ih =>
      cases hjoin : joinChunk db chunk with
      | none =>
        rw [List.filterMap_cons_none hjoin]
        exact .cons _ ih
      | some row =>
        rw [List.filterMap_cons_some hjoin, List.map_cons, (joinChunk_eq_some.mp hjoin).2.2.2]
        exact .cons_cons _ ih
  exact db.chunks.nodup.sublist (hjoined _)

structure SearchRow.Traces (sha256 : Bytes → Str) (db : Database) (row : SearchRow) (out : Ingested) :
    Prop where
  source : row.source ∈ db.sources
  completed : row.source.ingestStatus = .completed
  collection : row.collection ∈ db.kbCollections
  collectionId : row.collection.id = row.source.collectionId
  makes : Pipeline.Makes sha256 row.source.contentHash out
  yields : db.Yields row.source.id out
  document : row.document = out.document
  chunk : row.chunk ∈ out.chunks

theorem Database.Settled.completed_of_document (hsettled : db.Settled) {source : Source}
    (hsource : source ∈ db.sources) (hlive : source.deletedAt = none)
    (hdocuments : db.documentsOf source.id ≠ []) : source.ingestStatus = .completed := by
  have hsettles := hsettled source hsource
  rw [Settles] at hsettles
  cases hstatus : source.ingestStatus with
  | completed => rfl
  | pending =>
    rw [hstatus] at hsettles
    exact absurd (hsettles hlive).2 hdocuments
  | failed =>
    rw [hstatus] at hsettles
    exact absurd (hsettles hlive).2 hdocuments
  | _ =>
    rw [hstatus] at hsettles
    exact hsettles.elim

theorem traces_of_joined (hsettled : db.Settled) (hmade : db.Made (Pipeline.Makes sha256))
    {chunk : Chunk} (hchunk : chunk ∈ db.chunks) (hjoin : joinChunk db chunk = some row)
    (hlive : row.source.deletedAt = none) : ∃ out, row.Traces sha256 db out := by
  obtain ⟨hdocument, hsource, hcollection, hsame⟩ := joinChunk_eq_some.mp hjoin
  obtain ⟨hdocument, hof⟩ := Table.get?_eq_some_iff.mp hdocument
  obtain ⟨hsource, hid⟩ := Table.get?_eq_some_iff.mp hsource
  obtain ⟨hcollection, hin⟩ := Table.get?_eq_some_iff.mp hcollection
  have hmem : row.document ∈ db.documentsOf row.source.id :=
    List.mem_filter.mpr ⟨hdocument, decide_eq_true hid.symm⟩
  have hcompleted := hsettled.completed_of_document hsource hlive (List.ne_nil_of_mem hmem)
  obtain ⟨out, hmakes, hyields⟩ := hmade row.source hsource hcompleted hlive
  have hout : row.document = out.document := by
    rw [hyields.documents] at hmem
    exact List.mem_singleton.mp hmem
  have hchunk' : row.chunk ∈ db.chunksOf out.document.id := by
    rw [hsame]
    exact List.mem_filter.mpr ⟨hchunk, decide_eq_true (hout ▸ hof.symm)⟩
  have hsettles := hsettled row.source hsource
  rw [Database.Settles, hcompleted] at hsettles
  obtain ⟨_, document, hembodies⟩ := hsettles hlive
  obtain rfl : out.document = document :=
    (List.cons.inj (hyields.documents.symm.trans hembodies.documents)).1
  have hcollections := hembodies.collections row.chunk hchunk'
  refine ⟨out, hsource, hcompleted, hcollection, ?_, hmakes, hyields, hout, hyields.chunks ▸ hchunk'⟩
  exact hin.trans (hsame ▸ hcollections)

theorem not_isWholeDocumentKind (hkind : isSearchableKind kind) : ¬ isWholeDocumentKind kind := by
  cases kind <;> simp_all [isSearchableKind, isWholeDocumentKind]

theorem mem_matchingRows_of_completed (hsettled : db.Settled) (hkind : isSearchableKind kind)
    {source : Source} (hsource : source ∈ db.sources) (hcompleted : source.ingestStatus = .completed)
    (hlive : source.deletedAt = none) {collection : Collection}
    (hcollection : collection ∈ db.kbCollections) (hin : collection.id = source.collectionId)
    (hsame : collection.kind = kind) (hvisible : collection.VisibleTo user) {document : Document}
    (hdocument : document ∈ db.documentsOf source.id) (hmeta : document.MetaContains metadataFilter)
    {chunk : Chunk} (hchunk : chunk ∈ db.chunksOf document.id) :
    { chunk, document, source, collection } ∈ matchingRows db user kind metadataFilter := by
  have hsettles := hsettled source hsource
  rw [Database.Settles, hcompleted] at hsettles
  obtain ⟨_, embodied, hembodies⟩ := hsettles hlive
  rw [hembodies.documents] at hdocument
  obtain rfl : document = embodied := List.mem_singleton.mp hdocument
  obtain ⟨stored, hstored, hid, hembedded⟩ := hembodies.embedded
  obtain rfl : stored = collection :=
    Table.eq_of_key_eq hstored hcollection (hid.trans hin.symm)
  have hembedding := hembedded chunk hchunk
  rw [Chunk.EmbeddedFor, hsame, if_neg (not_isWholeDocumentKind hkind)] at hembedding
  have hof : document ∈ db.documentsOf source.id := by
    rw [hembodies.documents]
    exact List.mem_singleton_self document
  obtain ⟨hdocument', hsourceId⟩ := List.mem_filter.mp hof
  obtain ⟨hchunk', hdocumentId⟩ := List.mem_filter.mp hchunk
  have hcollectionId := hembodies.collections chunk hchunk
  refine mem_matchingRows_iff.mpr ⟨⟨chunk, hchunk', joinChunk_eq_some.mpr ⟨?_, ?_, ?_, rfl⟩⟩,
    ⟨hembedding.1, hembodies.live, hlive, hvisible⟩, hsame, hmeta⟩
  · exact Table.get?_eq_some_iff.mpr ⟨hdocument', (of_decide_eq_true hdocumentId).symm⟩
  · exact Table.get?_eq_some_iff.mpr ⟨hsource, (of_decide_eq_true hsourceId).symm⟩
  · exact Table.get?_eq_some_iff.mpr ⟨hcollection, hin.trans hcollectionId.symm⟩

end Rows

section Reports

structure SearchResult.Traced (libs : ParserLibraries) (sha256 : Bytes → Str) (server : Server)
    (user : Uuid) (request : SearchRequest) (score : Embedding → Rat) (result : SearchResult)
    (source : Source) (collection : Collection) (out : Ingested) (chunk : Chunk) : Prop where
  source_mem : source ∈ server.database.sources
  source_eq : source.id = result.sourceId ∧ source.filename = result.filename
  completed : source.ingestStatus = .completed ∧ source.deletedAt = none
  collection_mem : collection ∈ server.database.kbCollections ∧
    collection.id = source.collectionId
  visible : collection.VisibleTo user ∧ collection.kind = request.kind
  makes : Pipeline.Makes sha256 source.contentHash out
  document_eq : out.document.id = result.documentId ∧ out.document.title = result.title
  metadata : out.document.MetaContains request.metadataFilter
  chunk_mem : chunk ∈ out.chunks
  chunk_eq : chunk.id = result.chunkId ∧ chunk.text = result.text
  text_within : Str.essence result.text <:+: Str.essence out.document.rawText
  scored : ∃ embedding, chunk.embedding = some embedding ∧ result.score = score embedding
  previewed : ∀ query, ∃ preview, previewKbSource libs server.database server.files user
    result.sourceId query = .ok preview ∧ preview.Shows query out ∧
      (chunk.ordinal < query.chunkLimit → chunk.preview ∈ preview.chunks)

variable {libs : ParserLibraries} {sha256 : Bytes → Str} {server : Server} {user : Uuid}
  {request : SearchRequest} {retriever : Retriever} {queryVector : Embedding}

def similarity (retriever : Retriever) (queryVector embedding : Embedding) : Rat :=
  cosineDistanceToScore (retriever.cosineDistance embedding queryVector)

def SearchRow.result (retriever : Retriever) (queryVector : Embedding) (row : SearchRow) :
    SearchResult :=
  searchResult (row.retrieved retriever queryVector)

theorem SearchRow.distance_of_embedding {row : SearchRow} {embedding : Embedding}
    (h : row.chunk.embedding = some embedding) :
    row.distance retriever queryVector = retriever.cosineDistance embedding queryVector := by
  rw [distance, h]
  rfl

theorem mem_take_of_ordinal {chunks : List Chunk} {chunk : Chunk} {count : Nat}
    (hordinals : chunks.map Chunk.ordinal = List.range chunks.length) (hchunk : chunk ∈ chunks)
    (h : chunk.ordinal < count) : chunk ∈ chunks.take count := by
  obtain ⟨i, hi, rfl⟩ := List.getElem_of_mem hchunk
  have hordinal : (chunks.map Chunk.ordinal)[i]? = some i := by
    rw [hordinals, List.getElem?_range hi]
  rw [List.getElem?_map, List.getElem?_eq_getElem hi] at hordinal
  rw [Option.some.inj hordinal] at h
  exact List.mem_take_iff_getElem.mpr ⟨i, by omega, rfl⟩

theorem SearchRow.traced (libs : ParserLibraries) (retriever : Retriever) (queryVector : Embedding)
    (hfaithful : server.Faithful sha256) {row : SearchRow}
    (hrow : row ∈ matchingRows server.database user request.kind request.metadataFilter) :
    ∃ out, (row.result retriever queryVector).Traced libs sha256 server user request
      (similarity retriever queryVector) row.source row.collection out row.chunk := by
  obtain ⟨⟨chunk, hchunk, hjoin⟩, ⟨hembedding, _, hlive, hvisible⟩, hkind, hmeta⟩ :=
    mem_matchingRows_iff.mp hrow
  obtain ⟨out, htraces⟩ := traces_of_joined hfaithful.settled hfaithful.made hchunk hjoin hlive
  obtain ⟨hdocument, hordinals, hcuts⟩ := htraces.makes.wellFormed
  obtain ⟨embedding, hsome⟩ := Option.ne_none_iff_exists'.mp hembedding
  have hdocumentId := congrArg Document.id htraces.document.symm
  have htitle := congrArg Document.title htraces.document.symm
  refine ⟨out, htraces.source, ⟨rfl, rfl⟩, ⟨htraces.completed, hlive⟩,
    ⟨htraces.collection, htraces.collectionId⟩, ⟨hvisible, hkind⟩, htraces.makes,
    ⟨hdocumentId, htitle⟩, htraces.document ▸ hmeta, htraces.chunk, ⟨rfl, rfl⟩, ?_,
    ⟨embedding, hsome, ?_⟩, fun query => ?_⟩
  · exact hcuts.within _ (List.mem_map_of_mem htraces.chunk)
  · exact congrArg cosineDistanceToScore (row.distance_of_embedding hsome)
  · have hsees := visibleSource_ok htraces.source hlive htraces.collection htraces.collectionId
      hvisible
    obtain ⟨preview, hpreview, _, hshows⟩ :=
      previewKbSource_shows libs query hsees htraces.yields hdocument hordinals hcuts
    refine ⟨preview, hpreview, hshows, fun hshort => ?_⟩
    rw [hshows.chunks]
    exact List.mem_map_of_mem (mem_take_of_ordinal hordinals htraces.chunk hshort)

theorem finds_of_ranks {topK : Nat} {matching rows : List SearchRow}
    (hrows : TopK.Ranks (SearchRow.distance retriever queryVector) matching rows) {row : SearchRow}
    (hrow : row ∈ matching) :
    row ∈ rows.take topK ∨ (rows.take topK).length = topK ∧
      ∀ found ∈ rows.take topK, ∀ embedding ∈ row.chunk.embedding,
        similarity retriever queryVector embedding ≤ (found.retrieved retriever queryVector).score := by
  refine (hrows.mem_take_or hrow topK).imp_right fun ⟨hlength, hcloser⟩ => ⟨hlength, ?_⟩
  intro found hfound embedding hembedding
  have hanti := cosineDistanceToScore_anti (hcloser found hfound)
  rw [SearchRow.distance_of_embedding hembedding] at hanti
  exact hanti

end Reports

section Answers

variable {libs : ParserLibraries} {sha256 : Bytes → Str} {server : Server} {user : Uuid}
  {request : SearchRequest} {retriever : Retriever}

end Answers

namespace KbEvent

variable {libs : ParserLibraries} {limit : Nat} {sha256 : Bytes → Str}

end KbEvent

end YCStudio
