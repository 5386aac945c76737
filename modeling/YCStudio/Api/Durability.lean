import YCStudio.Api.Searches
import YCStudio.Api.UploadGate
import YCStudio.Consistency.Retention
import YCStudio.Consistency.RouteAgreement

namespace YCStudio

section Metadata

variable {β : Type} {dict update : List (Str × β)} {entry other : Str × β}

end Metadata

section Acknowledgement

variable {rt : Runtime} {user collectionId : Uuid} {kind : CollectionKind} {filename : Str}
  {fileBytes : Bytes} {metadata : List (Str × Str)} {w w' : World} {result : IngestResult}

end Acknowledgement

section Reads

variable {libs : ParserLibraries} {server server' : Server} {user : Uuid} {collection : Collection}
  {source : Source} {out : Ingested}

variable (h : server.database.Exhibits collection source out)
  (hfinished : source.Finished collection) (hvisible : collection.VisibleTo user)

include h hfinished hvisible

variable (h' : server'.database.Exhibits collection source out)
  (hsame : server'.original source = server.original source)

include h' hsame

end Reads

section Searches

def Chunk.FoundIn (chunk : Chunk) (retriever : Retriever) (query : Str) (topK : Nat)
    (retrieved : List RetrievedChunk) : Prop :=
  (∃ found ∈ retrieved, found.chunk = chunk) ∨ retrieved.length = topK ∧
    ∀ queryVector, retriever.embedQuery query = .ok queryVector → ∀ found ∈ retrieved,
      ∀ embedding ∈ chunk.embedding, similarity retriever queryVector embedding ≤ found.score

def Chunk.ListedIn (chunk : Chunk) (retriever : Retriever) (request : SearchRequest)
    (results : List SearchResult) : Prop :=
  (∃ found ∈ results, found.chunkId = chunk.id ∧ found.text = chunk.text) ∨
    results.length = request.topK ∧
      ∀ queryVector, retriever.embedQuery request.query = .ok queryVector → ∀ found ∈ results,
        ∀ embedding ∈ chunk.embedding, similarity retriever queryVector embedding ≤ found.score

theorem Chunk.FoundIn.listed {chunk : Chunk} {retriever : Retriever} {request : SearchRequest}
    {retrieved : List RetrievedChunk}
    (h : chunk.FoundIn retriever request.query request.topK retrieved) :
    chunk.ListedIn retriever request (retrieved.map searchResult) := by
  rcases h with ⟨found, hfound, rfl⟩ | ⟨hlength, hcloser⟩
  · exact Or.inl ⟨_, List.mem_map_of_mem hfound, rfl, rfl⟩
  · refine Or.inr ⟨by rw [List.length_map, hlength], fun queryVector hquery => ?_⟩
    rw [List.forall_mem_map]
    exact hcloser queryVector hquery

theorem Database.Exhibits.found {db : Database} {collection : Collection} {source : Source}
    {out : Ingested} (h : db.Exhibits collection source out) (hsettled : db.Settled)
    (hfinished : source.Finished collection) {user : Uuid} (hvisible : collection.VisibleTo user)
    {retriever : Retriever} {scan : ScanOrder} {request : SearchFields}
    (hsame : collection.kind = request.kind)
    (hmeta : out.document.MetaContains request.metadataFilter) {retrieved : List RetrievedChunk}
    (hreturned : searchChunks retriever scan db user request = .ok retrieved) :
    ∀ chunk ∈ out.chunks, chunk.FoundIn retriever request.query request.topK retrieved := by
  intro chunk hchunk
  obtain ⟨hkind, queryVector, rows, hquery, hrows, rfl⟩ := searchChunks_ranks hreturned
  obtain ⟨batchId, hstored⟩ := h.stored
  have hcid : collection.id = (source.inBatch batchId).collectionId := hfinished.collectionId
  have hdocument : out.document ∈ db.documentsOf (source.inBatch batchId).id := by
    change out.document ∈ db.documentsOf source.id
    rw [h.yields.documents]
    exact List.mem_singleton_self _
  have hchunk' : chunk ∈ db.chunksOf out.document.id := h.yields.chunks ▸ hchunk
  have hfound := mem_matchingRows_of_completed hsettled hkind hstored hfinished.completed
    hfinished.live h.collection_mem hcid hsame hvisible hdocument hmeta hchunk'
  rcases finds_of_ranks hrows hfound with htaken | ⟨hlength, hcloser⟩
  · exact Or.inl ⟨_, List.mem_map_of_mem htaken, rfl⟩
  · refine Or.inr ⟨by rw [List.length_map, hlength], fun queryVector' hquery' => ?_⟩
    obtain rfl : queryVector = queryVector' := Except.ok.inj (hquery.symm.trans hquery')
    rw [List.forall_mem_map]
    exact hcloser

end Searches

structure Server.Serves (libs : ParserLibraries) (acknowledged server : Server) (user : Uuid)
    (form : UploadForm) (sourceId : Uuid) (out : Ingested) : Prop where
  previews : ∀ query, ∃ preview, preview.Shows query out ∧
    previewKbSource libs acknowledged.database acknowledged.files user sourceId query =
      .ok preview ∧
    previewKbSource libs server.database server.files user sourceId query = .ok preview
  downloads : ∀ download,
    downloadKbSourceFile libs server.database server.files user sourceId download =
      downloadKbSourceFile libs acknowledged.database acknowledged.files user sourceId download
  searches : ∀ retriever scan, ∀ request : SearchFields, ∀ retrieved, request.kind = form.kind →
    request.metadataFilter ⊆ form.metadata →
      searchChunks retriever scan server.database user request = .ok retrieved →
        ∀ chunk ∈ out.chunks, chunk.FoundIn retriever request.query request.topK retrieved
  answers : ∀ retriever scan, ∀ request : SearchRequest, ∀ results, request.kind = form.kind →
    request.metadataFilter ⊆ form.metadata →
      searchKnowledgeBase retriever scan server.database user request = .ok results →
        ∀ chunk ∈ out.chunks, chunk.ListedIn retriever request results

namespace KbEvent

variable {libs : ParserLibraries} {limit : Nat}

def Deletes (user sourceId collectionId : Uuid) : KbEvent → Prop
  | deleteSource _ principal id => principal = user ∧ id = sourceId
  | deleteCollection principal id => principal = user ∧ id = collectionId
  | _ => False

end KbEvent

end YCStudio
