import YCStudio.Library.Memo
import YCStudio.Library.Traverse
import YCStudio.Services.Ingest

namespace YCStudio

structure EmbeddingSettings where
  embeddingProvider : Str
  embeddingModel : Str
  embeddingDimension : Int
  embeddingDevice : Str
  embeddingBatchSize : Int
  embeddingLocalFilesOnly : Bool

structure ModelArguments where
  modelName : Str
  device : Str
  localFilesOnly : Bool
  normalizeEmbeddings : Bool
  batchSize : Int

structure HuggingFaceEmbeddings where
  embedDocuments : List Str → Except Exn (List Embedding)
  -- None where the wrapped model has no encode.
  encode : Option (List Str → Int → Bool → Except Exn (List Embedding))

structure EmbeddingLibraries where
  settings : EmbeddingSettings
  lower : Str → Str
  cudaAvailable : Bool
  mpsAvailable : Bool
  -- What loading a model comes to, after so many loads.
  load : Nat → ModelArguments → Except Exn HuggingFaceEmbeddings

-- A LocalEmbedding object: each run of the constructor makes one of its own.
structure EmbeddingInstance where
  construction : Nat
  device : Str
  batchSize : Int
  modelName : Str
  dimension : Int
  hfEmbeddings : HuggingFaceEmbeddings

section Embeddings

variable (libs : EmbeddingLibraries)

def resolveDevice (deviceSetting : Option Str) : Str :=
  let target := libs.lower (deviceSetting.getD libs.settings.embeddingDevice).strip
  if target = "auto".toList then
    if libs.cudaAvailable then "cuda".toList
    else if libs.mpsAvailable then "mps".toList
    else "cpu".toList
  else target

def unsupportedProvider : Exn :=
  Exn.valueError ("不支持的 EMBEDDING_PROVIDER: ".toList ++ pyRepr libs.settings.embeddingProvider ++
    "；当前仅支持 'huggingface'。".toList)

namespace EmbeddingInstance

def init (construction : Nat) (device : Option Str) (batchSize : Option Int) :
    Except Exn EmbeddingInstance :=
  if libs.lower libs.settings.embeddingProvider.strip ≠ "huggingface".toList then
    .error (unsupportedProvider libs)
  else do
    let device := resolveDevice libs device
    let batchSize := batchSize.getD libs.settings.embeddingBatchSize
    let hfEmbeddings ← libs.load construction {
      modelName := libs.settings.embeddingModel
      device
      localFilesOnly := libs.settings.embeddingLocalFilesOnly
      normalizeEmbeddings := true
      batchSize }
    return {
      construction
      device
      batchSize
      modelName := libs.settings.embeddingModel
      dimension := libs.settings.embeddingDimension
      hfEmbeddings }

def encodeTexts (embedding : EmbeddingInstance) (texts : List Str) (batchSize : Option Int)
    (normalizeEmbeddings : Bool) : Except Exn (List Embedding) :=
  if texts = [] then .ok []
  else
    match embedding.hfEmbeddings.encode with
    | none => embedding.hfEmbeddings.embedDocuments texts
    | some encode => encode texts (batchSize.getD embedding.batchSize) normalizeEmbeddings

end EmbeddingInstance

abbrev EmbeddingCache := Memo Exn EmbeddingInstance

def getLocalEmbedding (forceReload : Bool) (device : Option Str) (batchSize : Option Int)
    (cache : EmbeddingCache) : Except Exn EmbeddingInstance × EmbeddingCache :=
  let default := device.isNone && batchSize.isNone
  let reloaded := cache.load
    (fun construction => EmbeddingInstance.init libs construction device batchSize) default
  match cache.cached with
  | some embedding => if !forceReload && default then (.ok embedding, cache) else reloaded
  | none => reloaded

structure EncodedTexts where
  -- What get_local_embedding answered, where it was called.
  service : Option (Except Exn EmbeddingInstance)
  vectors : Except Exn (List Embedding)

def encodeTexts (texts : List Str) (batchSize : Option Int) (normalizeEmbeddings : Bool)
    (device : Option Str) (cache : EmbeddingCache) : EncodedTexts × EmbeddingCache :=
  if texts = [] then ({ service := none, vectors := .ok [] }, cache)
  else
    let (service, cache) := getLocalEmbedding libs false device batchSize cache
    ({
      service := some service
      vectors := do (← service).encodeTexts texts batchSize normalizeEmbeddings }, cache)

inductive EmbeddingCall where
  | getLocalEmbedding
  | encodeTexts (texts : List Str) (batchSize : Option Int)

inductive EmbeddingAnswer where
  | got (outcome : Except Exn EmbeddingInstance)
  | encoded (answer : EncodedTexts)

namespace EmbeddingCall

def answer (cache : EmbeddingCache) : EmbeddingCall → EmbeddingAnswer × EmbeddingCache
  | .getLocalEmbedding => (YCStudio.getLocalEmbedding libs false none none cache).map .got id
  | .encodeTexts texts batchSize =>
      (YCStudio.encodeTexts libs texts batchSize true none cache).map .encoded id

def run : EmbeddingCache → List EmbeddingCall → List EmbeddingAnswer × EmbeddingCache
  | cache, [] => ([], cache)
  | cache, call :: calls =>
      let (answer, cache) := call.answer libs cache
      let (answers, cache) := run cache calls
      (answer :: answers, cache)

def needsModel : EmbeddingCall → Bool
  | .getLocalEmbedding => true
  | .encodeTexts texts _ => texts ≠ []

def sizesBatch : EmbeddingCall → Bool
  | .getLocalEmbedding => false
  | .encodeTexts texts batchSize => texts ≠ [] ∧ batchSize.isSome

end EmbeddingCall

structure LoadedOnce (calls : List EmbeddingCall) : Prop where
  constructedOnce : (EmbeddingCall.run libs Memo.empty calls).2.loads.length ≤ 1
  sameInstance : ∀ (i j : Nat) embedding encoded service, i < j →
    (EmbeddingCall.run libs Memo.empty calls).1[i]? = some (.got (.ok embedding)) →
    (EmbeddingCall.run libs Memo.empty calls).1[j]? = some (.encoded encoded) →
    encoded.service = some (.ok service) → service = embedding

variable {libs} {cache : EmbeddingCache} {call : EmbeddingCall} {calls : List EmbeddingCall}

def EmbeddingAnswer.service : EmbeddingAnswer → Option (Except Exn EmbeddingInstance)
  | .got outcome => some outcome
  | .encoded answer => answer.service

def EmbeddingCall.use (libs : EmbeddingLibraries) : EmbeddingCall → Memo.Use Exn EmbeddingInstance
  | .getLocalEmbedding => .shared
  | .encodeTexts texts batchSize =>
      if texts = [] then .idle
      else if batchSize.isSome then
        .apart fun construction => EmbeddingInstance.init libs construction none batchSize
      else .shared

theorem getLocalEmbedding_default (cache : EmbeddingCache) :
    getLocalEmbedding libs false none none cache =
      cache.fetch fun construction => EmbeddingInstance.init libs construction none none := by
  rw [getLocalEmbedding, Memo.fetch]
  cases cache.cached with
  | some embedding => rfl
  | none => rfl

theorem getLocalEmbedding_batch (size : Int) (cache : EmbeddingCache) :
    getLocalEmbedding libs false none (some size) cache =
      cache.load (fun construction => EmbeddingInstance.init libs construction none (some size))
        false := by
  rw [getLocalEmbedding]
  cases cache.cached with
  | some embedding => rfl
  | none => rfl

theorem answer_use (call : EmbeddingCall) (cache : EmbeddingCache) :
    (call.answer libs cache).2 = ((call.use libs).serve
      (fun construction => EmbeddingInstance.init libs construction none none) cache).2 ∧
    (call.answer libs cache).1.service = ((call.use libs).serve
      (fun construction => EmbeddingInstance.init libs construction none none) cache).1 := by
  cases call with
  | getLocalEmbedding =>
    rw [EmbeddingCall.answer, getLocalEmbedding_default]
    exact ⟨rfl, rfl⟩
  | encodeTexts texts batchSize =>
    rw [EmbeddingCall.answer, EmbeddingCall.use]
    by_cases htexts : texts = []
    · rw [if_pos htexts, htexts]
      exact ⟨rfl, rfl⟩
    rw [if_neg htexts, encodeTexts, if_neg htexts]
    cases batchSize with
    | none =>
      rw [getLocalEmbedding_default]
      exact ⟨rfl, rfl⟩
    | some size =>
      rw [getLocalEmbedding_batch]
      exact ⟨rfl, rfl⟩

theorem run_uses (libs : EmbeddingLibraries) (calls : List EmbeddingCall) (cache : EmbeddingCache) :
    (EmbeddingCall.run libs cache calls).2 =
      (Memo.run (fun construction => EmbeddingInstance.init libs construction none none) cache
        (calls.map (EmbeddingCall.use libs))).2 ∧
    (EmbeddingCall.run libs cache calls).1.map EmbeddingAnswer.service =
      (Memo.run (fun construction => EmbeddingInstance.init libs construction none none) cache
        (calls.map (EmbeddingCall.use libs))).1 := by
  induction calls generalizing cache with
  | nil => exact ⟨rfl, rfl⟩
  | cons call calls ih =>
    obtain ⟨hcache, hservice⟩ := answer_use call cache
    obtain ⟨hfinal, hservices⟩ := ih (call.answer libs cache).2
    rw [EmbeddingCall.run, List.map_cons, Memo.run, ← hcache, ← hservice, ← hfinal, ← hservices]
    exact ⟨rfl, rfl⟩

theorem needsModel_use (call : EmbeddingCall) : (call.use libs).active = call.needsModel := by
  cases call with
  | getLocalEmbedding => rfl
  | encodeTexts texts batchSize =>
    rw [EmbeddingCall.use, EmbeddingCall.needsModel]
    by_cases htexts : texts = []
    · simp [htexts, Memo.Use.active]
    · cases batchSize <;> simp [htexts, Memo.Use.active]

theorem sizesBatch_use (call : EmbeddingCall) : (call.use libs).isApart = call.sizesBatch := by
  cases call with
  | getLocalEmbedding => rfl
  | encodeTexts texts batchSize =>
    rw [EmbeddingCall.use, EmbeddingCall.sizesBatch]
    by_cases htexts : texts = []
    · simp [htexts, Memo.Use.isApart]
    · cases batchSize <;> simp [htexts, Memo.Use.isApart]

theorem constructedOnce_iff (libs : EmbeddingLibraries) (calls : List EmbeddingCall) :
    (EmbeddingCall.run libs Memo.empty calls).2.loads.length ≤ 1 ↔
      calls.countP EmbeddingCall.needsModel ≤ 1 ∨
        (∃ embedding, EmbeddingInstance.init libs 0 none none = .ok embedding) ∧
          ∀ call ∈ calls, call.sizesBatch = false := by
  have hneeds : (calls.map (EmbeddingCall.use libs)).countP Memo.Use.active =
      calls.countP EmbeddingCall.needsModel := by
    rw [List.countP_map]
    exact List.countP_congr fun call _ => by rw [Function.comp_apply, needsModel_use]
  rw [(run_uses libs calls Memo.empty).1, Memo.run_loads_le_one_iff, hneeds, List.forall_mem_map]
  simp only [sizesBatch_use]

theorem LoadedOnce.of_constructedOnce
    (h : (EmbeddingCall.run libs Memo.empty calls).2.loads.length ≤ 1) : LoadedOnce libs calls := by
  refine ⟨h, ?_⟩
  intro i j embedding answer service _ hgot hencoded hservice
  obtain ⟨hfinal, hservices⟩ := run_uses libs calls Memo.empty
  rw [hfinal] at h
  have hmem : ∀ (k : Nat) answer e, (EmbeddingCall.run libs Memo.empty calls).1[k]? = some answer →
      answer.service = some (.ok e) → some (.ok e) ∈ (Memo.run
        (fun construction => EmbeddingInstance.init libs construction none none) Memo.empty
          (calls.map (EmbeddingCall.use libs))).1 := by
    intro k answer e hanswer he
    rw [← hservices, ← he]
    exact List.mem_map_of_mem (List.mem_of_getElem? hanswer)
  exact Memo.eq_of_loads_le_one h (hmem j _ service hencoded hservice)
    (hmem i _ embedding hgot rfl)

theorem embeddings_loadedOnce (libs : EmbeddingLibraries) (calls : List EmbeddingCall) :
    LoadedOnce libs calls ↔ calls.countP EmbeddingCall.needsModel ≤ 1 ∨
      (∃ embedding, EmbeddingInstance.init libs 0 none none = .ok embedding) ∧
        ∀ call ∈ calls, call.sizesBatch = false := by
  constructor
  · exact fun h => (constructedOnce_iff libs calls).mp h.constructedOnce
  · exact fun h => .of_constructedOnce ((constructedOnce_iff libs calls).mpr h)

end Embeddings

inductive EmbeddingCaller where
  | searchChunks
  | retrieveForEvaluation
  | runPipeline (kind : CollectionKind) (texts : List Str) (embeddingBatchSize : Int)

def EmbeddingCaller.calls : EmbeddingCaller → List EmbeddingCall
  | .searchChunks => [.getLocalEmbedding]
  | .retrieveForEvaluation => [.getLocalEmbedding]
  | .runPipeline kind texts embeddingBatchSize =>
      if isWholeDocumentKind kind then []
      else if texts = [] then [.getLocalEmbedding]
      else [.getLocalEmbedding, .encodeTexts texts (some embeddingBatchSize)]

theorem runPipeline_not_loadedOnce {libs : EmbeddingLibraries} {kind : CollectionKind}
    (hkind : isWholeDocumentKind kind = false) {texts : List Str} (htexts : texts ≠ []) {size : Int}
    {calls : List EmbeddingCall}
    (hissued : ((EmbeddingCaller.runPipeline kind texts size).calls).Sublist calls) :
    ¬ LoadedOnce libs calls := by
  have hcalls : (EmbeddingCaller.runPipeline kind texts size).calls =
      [.getLocalEmbedding, .encodeTexts texts (some size)] := by
    rw [EmbeddingCaller.calls, hkind, if_neg htexts]
    rfl
  rw [hcalls] at hissued
  intro h
  rcases (constructedOnce_iff libs calls).mp h.constructedOnce with hfew | ⟨-, hshared⟩
  · have htwo : [EmbeddingCall.getLocalEmbedding, .encodeTexts texts (some size)].countP
        EmbeddingCall.needsModel = 2 := by simp [List.countP_cons, EmbeddingCall.needsModel, htexts]
    have hcount := hissued.countP_le (p := EmbeddingCall.needsModel)
    omega
  · have hsized := hshared _ (hissued.subset (List.mem_cons_of_mem _ List.mem_cons_self))
    simp [EmbeddingCall.sizesBatch, htexts] at hsized

def workingLibraries : EmbeddingLibraries where
  settings := {
    embeddingProvider := "huggingface".toList
    embeddingModel := "BAAI/bge-base-zh-v1.5".toList
    embeddingDimension := 768
    embeddingDevice := "auto".toList
    embeddingBatchSize := 32
    embeddingLocalFilesOnly := true }
  lower := fun s => s.map Char.toLower
  cudaAvailable := false
  mpsAvailable := false
  load := fun _ _ => .ok {
    embedDocuments := fun texts => .ok (texts.map fun _ => [1])
    encode := some fun texts _ _ => .ok (texts.map fun _ => [1]) }

theorem ingest_loads_twice : ¬ LoadedOnce workingLibraries
    [.getLocalEmbedding, .encodeTexts ["a chunk".toList] (some 32)] := by
  intro h
  exact absurd h.constructedOnce (by decide)

end YCStudio
