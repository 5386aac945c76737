import YCStudio.Rag.ChunkLimits
import YCStudio.Services.DocumentSchema
import YCStudio.Services.PipelineRun

namespace YCStudio

def windowed (m : Int) (window : Option Int) : Int := window.elim m (min m)

structure FittedBudget (m o : Int) (window : Option Int) (budget : Int × Int) : Prop where
  capped : budget.1 = windowed m window
  nonneg : 0 ≤ budget.2
  smaller : budget.2 < budget.1
  share : budget.2 * m ≤ o * budget.1

section Budget

variable {m o : Int} {window : Option Int}

theorem FittedBudget.le_window {budget : Int × Int} (h : FittedBudget m o window budget) :
    ∀ W ∈ window, budget.1 ≤ W := by
  rintro W rfl
  exact h.capped.trans_le (min_le_right m W)

theorem fitChunkBudget_fitted (hm : 0 < m) (ho : 0 ≤ o) (hom : o < m)
    (hwindow : ∀ W ∈ window, 1 ≤ W) : FittedBudget m o window (fitChunkBudget m o window) := by
  cases window with
  | none => exact ⟨rfl, ho, hom, le_rfl⟩
  | some W =>
    have hW : 1 ≤ W := hwindow W rfl
    simp only [fitChunkBudget]
    split
    case isTrue hle => exact ⟨(min_eq_left hle).symm, ho, hom, le_rfl⟩
    case isFalse hlt =>
      have hscaled : 0 ≤ W * o := Int.mul_nonneg (by omega) ho
      have htrunc : (W * o).tdiv m = W * o / m := Int.tdiv_eq_ediv_of_nonneg hscaled
      have hshare : W * o / m * m ≤ W * o := Int.ediv_mul_le _ (by omega)
      rw [htrunc]
      refine ⟨(min_eq_right (by omega)).symm, ?_, ?_, ?_⟩
      · have hpart : 0 ≤ W * o / m := Int.ediv_nonneg hscaled hm.le
        dsimp only
        omega
      · dsimp only
        omega
      · calc min (W * o / m) (W - 1) * m
            ≤ W * o / m * m := Int.mul_le_mul_of_nonneg_right (min_le_left _ _) hm.le
          _ ≤ o * W := by rw [Int.mul_comm o W]; exact hshare

namespace TextChunker

theorem init_ok (countTokens : Str → Nat) (hm : 0 < m) (ho : 0 ≤ o) (hom : o < m) :
    ∃ chunker, TextChunker.init countTokens m o = .ok chunker ∧
      chunker.countTokens = countTokens ∧ (chunker.maxTokens : Int) = m := by
  have hover : ¬ (o < 0 ∨ m ≤ o) := by omega
  have hsep : ¬ (defaultSeparators = [] ∨ ∃ separator ∈ defaultSeparators, separator = []) := by
    decide
  rw [TextChunker.init, dif_neg (by omega), dif_neg hover, dif_neg hsep]
  exact ⟨_, rfl, rfl, Int.toNat_of_nonneg hm.le⟩

theorem split_within {chunker : TextChunker}
    (hstrip : ∀ s, chunker.countTokens (Str.strip s) ≤ chunker.countTokens s)
    (hcharacter : ∀ c, chunker.countTokens [c] ≤ chunker.maxTokens) (text : Str) :
    ∃ chunks, chunker.split text = .ok chunks ∧
      ∀ chunk ∈ chunks, chunker.countTokens chunk.text ≤ chunker.maxTokens := by
  have hlimit := chunker.split_respectsLimit hstrip text
  cases hsplit : chunker.split text with
  | ok chunks =>
    rw [hsplit] at hlimit
    refine ⟨chunks, rfl, fun chunk hchunk => ?_⟩
    have hvalid := hlimit.2.1 chunk hchunk
    exact hvalid.counted ▸ hvalid.within
  | error e =>
    rw [hsplit] at hlimit
    cases e with
    | valueError message =>
      obtain ⟨c, _, _, hc⟩ := hlimit
      exact absurd (hcharacter c) (Nat.not_le.mpr hc)
    | assertionError message => exact hlimit.elim

end TextChunker

end Budget

structure LocalEmbedding.Measures (embedding : LocalEmbedding) (m : Int) : Prop where
  window : ∀ W ∈ embedding.maxInputTokens, 1 ≤ W
  strip : ∀ s, embedding.countTokens (Str.strip s) ≤ embedding.countTokens s
  character : ∀ c, (embedding.countTokens [c] : Int) ≤ windowed m embedding.maxInputTokens

structure Settings.Chunkable (settings : Settings) : Prop where
  size_pos : 0 < settings.chunkSize
  overlap_nonneg : 0 ≤ settings.chunkOverlap
  overlap_lt : settings.chunkOverlap < settings.chunkSize

def Settings.budget (settings : Settings) (embedding : LocalEmbedding) : Int × Int :=
  fitChunkBudget settings.chunkSize settings.chunkOverlap embedding.maxInputTokens

def ChunksWithin (embedding : LocalEmbedding) (limit : Int) (text : Str) (kind : CollectionKind)
    (chunker : TextChunker) : Prop :=
  ∃ chunks, chunkForCollection text kind chunker = .ok chunks ∧
    ∀ chunk ∈ chunks, (embedding.countTokens chunk.text : Int) ≤ limit

section Chunking

variable {rt : Runtime} {embedding : LocalEmbedding} {kind : CollectionKind}

theorem Settings.Chunkable.fitted {settings : Settings} (hsettings : settings.Chunkable)
    (hmeasures : embedding.Measures settings.chunkSize) :
    FittedBudget settings.chunkSize settings.chunkOverlap embedding.maxInputTokens
      (settings.budget embedding) :=
  fitChunkBudget_fitted hsettings.size_pos hsettings.overlap_nonneg hsettings.overlap_lt
    hmeasures.window

theorem chunkerFor_within (hsettings : rt.settings.Chunkable)
    (hmeasures : embedding.Measures rt.settings.chunkSize)
    (hlocal : rt.localEmbedding = .ok embedding) (hkind : isWholeDocumentKind kind = false) :
    ∃ chunker, TextChunker.init embedding.countTokens (rt.settings.budget embedding).1
        (rt.settings.budget embedding).2 = .ok chunker ∧
      chunkerFor rt kind none = .ok (some embedding, chunker) ∧
      ∀ text, ChunksWithin embedding (rt.settings.budget embedding).1 text kind chunker := by
  have hfitted := hsettings.fitted hmeasures
  have hpos : 0 < (rt.settings.budget embedding).1 :=
    lt_of_le_of_lt hfitted.nonneg hfitted.smaller
  obtain ⟨chunker, hinit, hcount, hmax⟩ :=
    TextChunker.init_ok embedding.countTokens hpos hfitted.nonneg hfitted.smaller
  refine ⟨chunker, hinit, ?_, fun text => ?_⟩
  · rw [chunkerFor, if_neg (by simp [hkind]), hlocal]
    change (Except.mapError _ (TextChunker.init embedding.countTokens
      (rt.settings.budget embedding).1 (rt.settings.budget embedding).2) >>= _) = _
    rw [hinit]
    rfl
  · have hcharacter : ∀ c, chunker.countTokens [c] ≤ chunker.maxTokens := by
      intro c
      have hc := hmeasures.character c
      rw [← hfitted.capped, ← hmax] at hc
      rw [hcount]
      exact Int.ofNat_le.mp hc
    have hstrip : ∀ s, chunker.countTokens (Str.strip s) ≤ chunker.countTokens s :=
      hcount ▸ hmeasures.strip
    obtain ⟨chunks, hchunks, hwithin⟩ := TextChunker.split_within hstrip hcharacter text
    refine ⟨chunks, ?_, fun chunk hchunk => ?_⟩
    · rw [chunkForCollection, if_neg (by simp [hkind])]
      exact hchunks
    · rw [← hmax, ← hcount]
      exact Int.ofNat_le.mpr (hwithin chunk hchunk)

end Chunking

section Handed

theorem attempt_bind_congr {α β : Type} {result : Except Exn α} {f g : α → Program β}
    (h : ∀ a, result = .ok a → f a = g a) : attempt result >>= f = attempt result >>= g := by
  cases result with
  | ok a => exact h a rfl
  | error e => rfl

theorem runPipeline_congr {rt : Runtime} {source : Source} {collection : Collection}
    {filename : Str} {fileBytes : Bytes} {metadata : Option (List (Str × Str))}
    {countTokens : Option (Str → Nat)} {encodeTexts : List Str → Nat → Except Exn (List Embedding)}
    (h : ∀ text embedding chunker chunkData,
      chunkerFor rt collection.kind countTokens = .ok (embedding, chunker) →
      chunkForCollection text collection.kind chunker = .ok chunkData →
      encodeTexts (chunkData.map ChunkData.text) rt.settings.embeddingBatchSize =
        rt.encodeTexts (chunkData.map ChunkData.text) rt.settings.embeddingBatchSize) :
    runPipeline { rt with encodeTexts } source collection filename fileBytes metadata countTokens =
      runPipeline rt source collection filename fileBytes metadata countTokens := by
  unfold runPipeline
  refine bind_congr fun source => bind_congr fun parsed => bind_congr fun cleanedText => ?_
  refine bind_congr fun documentId => bind_congr fun createdAt => bind_congr fun _ => ?_
  refine bind_congr fun source => ?_
  refine attempt_bind_congr fun built hbuilt => attempt_bind_congr fun chunkData hchunkData => ?_
  have hencode := h cleanedText built.1 built.2 chunkData hbuilt
    (chunkForCollection_eq_ok hchunkData)
  have hchunks : ∀ fault, encodeChunks { rt with encodeTexts } fault source collection.kind built.1
      chunkData = encodeChunks rt fault source collection.kind built.1 chunkData := by
    intro fault
    unfold encodeChunks encodeSearchable
    dsimp only
    rw [hencode]
  dsimp only
  rw [hchunks]

end Handed

def StoresAs (rt : Runtime) (source : Source) (collection : Collection) (filename : Str)
    (fileBytes : Bytes) (metadata : Option (List (Str × Str)))
    (countTokens : Option (Str → Nat)) (p : Ingested → Prop) : Prop :=
  ∀ w result w', w.session.health = .active → w.Sound → source ∈ w.view.sources →
    collection ∈ w.view.kbCollections →
    exec (runPipeline rt source collection filename fileBytes metadata countTokens) w =
      (.ok result, w') →
    ∃ out, w'.view = w.view.complete source out ∧ p out

section Stored

variable {rt : Runtime} {source : Source} {collection : Collection} {filename : Str}
  {fileBytes : Bytes} {metadata : Option (List (Str × Str))} {countTokens : Option (Str → Nat)}
  {documentId : Uuid} {createdAt : Timestamp} {out : Ingested}

def Pipeline.Cut (rt : Runtime) (collection : Collection) (filename : Str) (fileBytes : Bytes)
    (countTokens : Option (Str → Nat)) (out : Ingested) : Prop :=
  ∃ parsed embedding chunker chunkData, rt.parseFile filename fileBytes = .ok parsed ∧
    rt.clean parsed.text = .ok out.document.rawText ∧
    chunkerFor rt collection.kind countTokens = .ok (embedding, chunker) ∧
    chunkForCollection out.document.rawText collection.kind chunker = .ok chunkData ∧
    out.chunks.map Chunk.text = chunkData.map ChunkData.text

theorem Pipeline.rows_texts {collection : Collection} {documentId : Uuid} {encoded : Vectors}
    {chunkData : List ChunkData} {zipped : List (ChunkData × Option Embedding)}
    (h : zipStrict chunkData encoded.vectors = .ok zipped) :
    (rows collection documentId encoded zipped).map Chunk.text = chunkData.map ChunkData.text := by
  obtain ⟨rfl, hlength⟩ := zipStrict_eq_ok h
  have hfst : (chunkData.zip encoded.vectors).map Prod.fst = chunkData :=
    List.map_fst_zip (Nat.le_of_eq hlength)
  have hsnd : ((chunkIds documentId (chunkData.zip encoded.vectors).length).zip
      (chunkData.zip encoded.vectors)).map Prod.snd = chunkData.zip encoded.vectors :=
    List.map_snd_zip (Nat.le_of_eq (length_chunkIds _ _).symm)
  have hmap := congrArg (List.map fun entry : ChunkData × Option Embedding => entry.1.text) hsnd
  have htexts := congrArg (List.map ChunkData.text) hfst
  rw [List.map_map] at hmap htexts
  rw [rows, List.map_map]
  exact hmap.trans htexts

theorem Pipeline.outcome_cut
    (h : outcome rt source collection filename fileBytes metadata countTokens documentId createdAt =
      .ok out) : Cut rt collection filename fileBytes countTokens out := by
  obtain ⟨parsed, cleanedText, embedding, chunker, chunkData, hparsed, hcleaned, hbuilt, hchunks,
    hdocument, hrows⟩ := outcome_eq_ok h
  have htext : out.document.rawText = cleanedText := congrArg Document.rawText hdocument
  refine ⟨parsed, embedding, chunker, chunkData, hparsed, htext ▸ hcleaned, hbuilt, htext ▸ hchunks, ?_⟩
  rcases hrows with ⟨hempty, hnone⟩ | ⟨encoded, zipped, _, hzipped, hsome⟩
  · rw [hempty, hnone]
    rfl
  · rw [hsome]
    exact rows_texts hzipped

theorem storesAs_of_outcome {p : Ingested → Prop}
    (h : ∀ documentId createdAt out, Pipeline.outcome rt source collection filename fileBytes
      metadata countTokens documentId createdAt = .ok out → p out) :
    StoresAs rt source collection filename fileBytes metadata countTokens p := by
  intro w result w' hactive hsound hsource hcollection hran
  have hattempts := runPipeline_attempts rt filename fileBytes metadata countTokens hactive hsound
    hsource hcollection
  cases houtcome : Pipeline.outcome rt source collection filename fileBytes metadata countTokens
      ⟨w.session.stream, w.session.drawn⟩ w.session.now with
  | ok out =>
    rw [houtcome] at hattempts
    obtain ⟨_, _, hexec, _, writes, rfl, hview⟩ := hattempts
    cases hran.symm.trans hexec
    refine ⟨out, ?_, h _ _ out houtcome⟩
    rw [World.view_advance]
    exact hview
  | error failure =>
    rw [houtcome] at hattempts
    cases failure with
    | raised e =>
      obtain ⟨_, _, hexec⟩ := hattempts
      cases hran.symm.trans hexec
    | refused e =>
      obtain ⟨_, hexec⟩ := hattempts
      cases hran.symm.trans hexec

end Stored

section Untruncated

variable {rt : Runtime} {source : Source} {collection : Collection} {filename : Str}
  {fileBytes : Bytes} {metadata : Option (List (Str × Str))}

def Ingested.Within (embedding : LocalEmbedding) (limit : Int) (out : Ingested) : Prop :=
  ∀ chunk ∈ out.chunks, (embedding.countTokens chunk.text : Int) ≤ limit

def Ingested.Whole (out : Ingested) : Prop :=
  out.chunks.map (fun chunk => (chunk.text, chunk.embedding)) =
    if out.document.rawText = [] then [] else [(out.document.rawText, none)]

structure Untruncated (rt : Runtime) (source : Source) (collection : Collection) (filename : Str)
    (fileBytes : Bytes) (metadata : Option (List (Str × Str))) (embedding : LocalEmbedding) :
    Prop where
  fitted : FittedBudget rt.settings.chunkSize rt.settings.chunkOverlap embedding.maxInputTokens
    (rt.settings.budget embedding)
  readable : ∀ W ∈ embedding.maxInputTokens, (rt.settings.budget embedding).1 ≤ W
  accepted : ∃ chunker, TextChunker.init embedding.countTokens (rt.settings.budget embedding).1
      (rt.settings.budget embedding).2 = .ok chunker ∧
    ∀ text, ChunksWithin embedding (rt.settings.budget embedding).1 text collection.kind chunker
  handed : ∀ encodeTexts : List Str → Nat → Except Exn (List Embedding),
    (∀ texts size, (∀ text ∈ texts, (embedding.countTokens text : Int) ≤
      (rt.settings.budget embedding).1) → encodeTexts texts size = rt.encodeTexts texts size) →
    runPipeline { rt with encodeTexts } source collection filename fileBytes metadata none =
      runPipeline rt source collection filename fileBytes metadata none
  stored : StoresAs rt source collection filename fileBytes metadata none
    (Ingested.Within embedding (rt.settings.budget embedding).1)

theorem untruncated {embedding : LocalEmbedding} (hsettings : rt.settings.Chunkable)
    (hmeasures : embedding.Measures rt.settings.chunkSize)
    (hlocal : rt.localEmbedding = .ok embedding)
    (hkind : isWholeDocumentKind collection.kind = false) :
    Untruncated rt source collection filename fileBytes metadata embedding := by
  obtain ⟨chunker, hinit, hbuilt, hwithin⟩ :=
    chunkerFor_within hsettings hmeasures hlocal hkind
  have hcut : ∀ text built chunkData, chunkerFor rt collection.kind none = .ok built →
      chunkForCollection text collection.kind built.2 = .ok chunkData →
      ∀ chunk ∈ chunkData,
        (embedding.countTokens chunk.text : Int) ≤ (rt.settings.budget embedding).1 := by
    intro text built chunkData hbuilt' hchunks
    cases hbuilt.symm.trans hbuilt'
    obtain ⟨chunks, hchunks', hchunk⟩ := hwithin text
    cases hchunks'.symm.trans hchunks
    exact hchunk
  have hfitted := hsettings.fitted hmeasures
  refine ⟨hfitted, hfitted.le_window, ⟨chunker, hinit, hwithin⟩, ?_, ?_⟩
  · intro encodeTexts hagree
    apply runPipeline_congr
    intro text _ _ chunkData hbuilt' hchunks
    apply hagree
    intro t ht
    obtain ⟨chunk, hchunk, rfl⟩ := List.mem_map.mp ht
    exact hcut text _ chunkData hbuilt' hchunks chunk hchunk
  · apply storesAs_of_outcome
    intro documentId createdAt out houtcome chunk hchunk
    obtain ⟨_, _, _, chunkData, _, _, hbuilt', hchunks, htexts⟩ := Pipeline.outcome_cut houtcome
    have hmem : chunk.text ∈ chunkData.map ChunkData.text := htexts ▸ List.mem_map_of_mem hchunk
    obtain ⟨data, hdata, heq⟩ := List.mem_map.mp hmem
    rw [← heq]
    exact hcut _ _ chunkData hbuilt' hchunks data hdata

-- The chunker only counts here, so no embedding model is loaded.
theorem chunkerFor_whole (hsettings : rt.settings.Chunkable)
    (hkind : isWholeDocumentKind collection.kind = true) :
    ∃ chunker, chunkerFor rt collection.kind none = .ok (none, chunker) := by
  obtain ⟨chunker, hinit, -, -⟩ := TextChunker.init_ok List.length hsettings.size_pos
    hsettings.overlap_nonneg hsettings.overlap_lt
  refine ⟨chunker, ?_⟩
  rw [chunkerFor, if_pos hkind]
  change (Except.mapError _ (TextChunker.init List.length _ _) >>= _) = _
  rw [hinit]
  rfl

theorem storesAs_whole (libs : ParserLibraries)
    (hkind : isWholeDocumentKind collection.kind = true) :
    StoresAs (rt.parsing libs) source collection filename fileBytes metadata none
      Ingested.Whole := by
  apply storesAs_of_outcome
  intro documentId createdAt out houtcome
  obtain ⟨parsed, _, chunker, chunkData, _, hclean, _, hchunks, htexts⟩ :=
    Pipeline.outcome_cut houtcome
  have hraw : TextCleaner.clean libs.nfkc parsed.text = out.document.rawText :=
    Except.ok.inj hclean
  have hstripped : Str.strip out.document.rawText = out.document.rawText := by
    rw [← hraw]
    exact Str.strip_strip _
  have hnone : ∀ chunk ∈ out.chunks, chunk.embedding = none := by
    intro chunk hchunk
    have hembedded := (Pipeline.outcome_wellFormed houtcome).embedded chunk hchunk
    rw [Chunk.EmbeddedFor, if_pos hkind] at hembedded
    exact hembedded.1
  have hpairs : out.chunks.map (fun chunk => (chunk.text, chunk.embedding)) =
      (out.chunks.map Chunk.text).map fun text => (text, none) := by
    rw [List.map_map]
    exact List.map_congr_left fun chunk hchunk => congrArg (Prod.mk chunk.text) (hnone chunk hchunk)
  have hdata : chunkData = chunker.preserveAsSingleChunk out.document.rawText := by
    rw [chunkForCollection, if_pos hkind] at hchunks
    exact (Except.ok.inj hchunks).symm
  rw [Ingested.Whole, hpairs, htexts, hdata, TextChunker.preserveAsSingleChunk, hstripped]
  split <;> rfl

structure Preserved (rt : Runtime) (source : Source) (collection : Collection) (filename : Str)
    (fileBytes : Bytes) (metadata : Option (List (Str × Str))) : Prop where
  accepted : ∃ chunker, chunkerFor rt collection.kind none = .ok (none, chunker)
  stored : StoresAs rt source collection filename fileBytes metadata none Ingested.Whole

theorem runPipeline_untruncated (libs : ParserLibraries) (rt : Runtime) (source : Source)
    (collection : Collection) (filename : Str) (fileBytes : Bytes)
    (metadata : Option (List (Str × Str))) (hsettings : rt.settings.Chunkable) :
    (isWholeDocumentKind collection.kind = false → ∀ embedding,
      rt.localEmbedding = .ok embedding → embedding.Measures rt.settings.chunkSize →
        Untruncated (rt.parsing libs) source collection filename fileBytes metadata embedding) ∧
    (isWholeDocumentKind collection.kind = true →
      Preserved (rt.parsing libs) source collection filename fileBytes metadata) :=
  ⟨fun hkind _ hlocal hmeasures => untruncated hsettings hmeasures hlocal hkind,
    fun hkind => ⟨chunkerFor_whole hsettings hkind, storesAs_whole libs hkind⟩⟩

def narrowEmbedding : LocalEmbedding where
  maxInputTokens := some 20
  countTokens text := text.length + 2
  embedModel := "BAAI/bge-base-zh-v1.5".toList
  embedVersion := "1".toList

theorem narrowEmbedding_measures : narrowEmbedding.Measures 512 where
  window := by
    intro W hW
    have hW : 20 = W := Option.some.inj hW
    omega
  strip s := Nat.add_le_add_right (Str.length_strip_le s) 2
  character c := by
    change ((1 + 2 : Nat) : Int) ≤ min 512 20
    decide

def narrowRuntime : Runtime := { Runtime.reliable with localEmbedding := .ok narrowEmbedding }

theorem runPipeline_untruncated_brief :
    Untruncated (narrowRuntime.parsing asciiLibraries) uploadedSource uploadCollection
      "brief.md".toList (asciiBytes "intro\n# Brief\n".toList) none narrowEmbedding ∧
    narrowRuntime.settings.budget narrowEmbedding = (20, 1) :=
  ⟨(runPipeline_untruncated asciiLibraries narrowRuntime uploadedSource uploadCollection
      "brief.md".toList (asciiBytes "intro\n# Brief\n".toList) none
      ⟨by decide, by decide, by decide⟩).1 rfl narrowEmbedding rfl narrowEmbedding_measures,
    by decide⟩

end Untruncated

end YCStudio
