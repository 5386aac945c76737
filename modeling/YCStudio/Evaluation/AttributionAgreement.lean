import YCStudio.Evaluation.CaseIsolation
import YCStudio.Evaluation.RankMetrics
import YCStudio.Evaluation.SearchScope

namespace YCStudio

open Ranking

section Labels

variable {K : Type} [Field K] [LinearOrder K]

structure LabelsAgree (visible : Set Str) (expectedIds : List Str) (label : AttributionLabel)
    («recall» mrr : K) : Prop where
  notInKb : label = .notInKb ↔ ∀ id ∈ expectedIds, id ∉ visible
  notRecalled : label = .notRecalled ↔ (∃ id ∈ expectedIds, id ∈ visible) ∧ «recall» = 0
  recalled : label = .hit ∨ label = .lowRank ∨ label = .ambiguous ↔ 0 < «recall»
  hit : label = .hit → 1 / 3 ≤ mrr
  lowRank : label = .lowRank → 0 < mrr ∧ mrr ≤ 1 / 4

theorem LabelsAgree.of_recalled {visible : Set Str} {expectedIds : List Str}
    {label : AttributionLabel} {«recall» mrr : K}
    (hlabel : label = .hit ∨ label = .lowRank ∨ label = .ambiguous)
    (hvisible : ∃ id ∈ expectedIds, id ∈ visible) (hrecall : 0 < «recall»)
    (hhit : label = .hit → 1 / 3 ≤ mrr) (hlow : label = .lowRank → 0 < mrr ∧ mrr ≤ 1 / 4) :
    LabelsAgree visible expectedIds label «recall» mrr := by
  obtain ⟨id, hid, hmem⟩ := hvisible
  constructor
  · refine iff_of_false ?_ fun hnone => hnone id hid hmem
    rcases hlabel with rfl | rfl | rfl <;> nofun
  · refine iff_of_false ?_ fun hzero => hrecall.ne' hzero.2
    rcases hlabel with rfl | rfl | rfl <;> nofun
  · exact iff_of_true hlabel hrecall
  · exact hhit
  · exact hlow

def hitRanks (expectedIds : List Str) (retrieved : List EvaluationHit) : List Nat :=
  ranksFrom (fun hit => hit.chunkId.str ∈ expectedIds) 1 retrieved

inductive Classifies (expectedIds : List Str) (retrieved : List EvaluationHit)
    (knownChunkIds : List Str) : AttributionLabel → Prop
  | notInKb (hknown : ∀ id ∈ expectedIds, id ∉ knownChunkIds) :
      Classifies expectedIds retrieved knownChunkIds .notInKb
  | notRecalled {id : Str} (hid : id ∈ expectedIds) (hknown : id ∈ knownChunkIds)
      (hranks : hitRanks expectedIds retrieved = []) :
      Classifies expectedIds retrieved knownChunkIds .notRecalled
  | ambiguous {id : Str} (hid : id ∈ expectedIds) (hknown : id ∈ knownChunkIds) {rank : Nat}
      {ranks : List Nat} (hranks : hitRanks expectedIds retrieved = rank :: ranks) :
      Classifies expectedIds retrieved knownChunkIds .ambiguous
  | lowRank {id : Str} (hid : id ∈ expectedIds) (hknown : id ∈ knownChunkIds) {rank : Nat}
      {ranks : List Nat} (hranks : hitRanks expectedIds retrieved = rank :: ranks)
      (hlow : 4 ≤ rank) : Classifies expectedIds retrieved knownChunkIds .lowRank
  | hit {id : Str} (hid : id ∈ expectedIds) (hknown : id ∈ knownChunkIds) {rank : Nat}
      {ranks : List Nat} (hranks : hitRanks expectedIds retrieved = rank :: ranks)
      (hhigh : rank ≤ 3) : Classifies expectedIds retrieved knownChunkIds .hit

theorem classifyAttribution_classifies (expectedIds : List Str) (retrieved : List EvaluationHit)
    (knownChunkIds : List Str) :
    Classifies expectedIds retrieved knownChunkIds
      (classifyAttribution expectedIds retrieved knownChunkIds) := by
  unfold classifyAttribution
  by_cases hknown : ∀ id ∈ expectedIds, id ∉ knownChunkIds
  · rw [if_pos hknown]
    exact .notInKb hknown
  · rw [if_neg hknown]
    push Not at hknown
    obtain ⟨id, hid, hmem⟩ := hknown
    change Classifies _ _ _ (if hitRanks expectedIds retrieved = [] then _ else
      if _ then _ else if 3 < (hitRanks expectedIds retrieved).min?.getD 0 then _ else _)
    cases hranks : hitRanks expectedIds retrieved with
    | nil => exact .notRecalled hid hmem hranks
    | cons rank ranks =>
      have hmin : (rank :: ranks).min?.getD 0 = rank := by
        rw [← hranks, hitRanks, min?_ranksFrom, ← hitRanks, hranks]
        rfl
      rw [if_neg (List.cons_ne_nil _ _), hmin]
      split
      · exact .ambiguous hid hmem hranks
      · split
        · exact .lowRank hid hmem hranks (by omega)
        · exact .hit hid hmem hranks (by omega)

variable {expectedIds : List Str} {retrieved : List EvaluationHit} {knownChunkIds : List Str} {k : Int}

theorem hitRanks_eq (hk : 0 ≤ k) (hlength : retrieved.length ≤ k) :
    hitRanks expectedIds retrieved =
      relevantPositions (retrieved.map (·.chunkId.str)) expectedIds k := by
  have hall : (retrieved.map (·.chunkId.str)).take k.toNat = retrieved.map (·.chunkId.str) :=
    List.take_of_length_le (by rw [List.length_map]; omega)
  rw [relevantPositions_eq, sliceTo_of_nonneg _ hk, hall, ranksFrom_map]
  rfl

variable [IsStrictOrderedRing K]

theorem recallAtK_nonneg (retrievedIds expectedIds : List Str) (k : Int) :
    (0 : K) ≤ recallAtK retrievedIds expectedIds k := by
  rw [recallAtK]
  dsimp only
  split
  · exact le_refl 0
  · exact le_min zero_le_one (le_max_left _ _)

theorem evaluateRetrieval_hitRanks (log2 : Nat → K) (expectedIds : List Str) (hk : 1 ≤ k)
    (hlength : retrieved.length ≤ k) :
    (match hitRanks expectedIds retrieved with
      | [] => 0
      | rank :: _ => 1 / rank) =
        (evaluateRetrieval log2 (retrieved.map (·.chunkId.str)) expectedIds k).mrr ∧
      (0 < (evaluateRetrieval log2 (retrieved.map (·.chunkId.str)) expectedIds k).«recall» ↔
        hitRanks expectedIds retrieved ≠ []) := by
  have hk' : 0 ≤ k := by omega
  rw [hitRanks_eq hk' hlength]
  exact ⟨(reciprocalRank_of_nonneg hk').symm, recallAtK_pos_iff hk'⟩

theorem classifyAttribution_agrees (log2 : Nat → K) (expectedIds : List Str) (hk : 1 ≤ k)
    (hlength : retrieved.length ≤ k)
    (hknown : ∀ hit ∈ retrieved, hit.chunkId.str ∈ knownChunkIds) :
    LabelsAgree {id | id ∈ knownChunkIds} expectedIds
      (classifyAttribution expectedIds retrieved knownChunkIds)
      (evaluateRetrieval log2 (retrieved.map (·.chunkId.str)) expectedIds k).«recall»
      (evaluateRetrieval log2 (retrieved.map (·.chunkId.str)) expectedIds k).mrr := by
  obtain ⟨hmrr, hrecall⟩ := evaluateRetrieval_hitRanks log2 expectedIds hk hlength
  have hzero : (0 : K) ≤ (evaluateRetrieval log2 (retrieved.map (·.chunkId.str)) expectedIds k).«recall» :=
    recallAtK_nonneg _ _ _
  have hclass := classifyAttribution_classifies expectedIds retrieved knownChunkIds
  revert hmrr hrecall hzero hclass
  generalize (evaluateRetrieval log2 (retrieved.map (·.chunkId.str)) expectedIds k).«recall» = «recall»
  generalize (evaluateRetrieval log2 (retrieved.map (·.chunkId.str)) expectedIds k).mrr = mrr
  generalize classifyAttribution expectedIds retrieved knownChunkIds = label
  intro hmrr hrecall hzero hclass
  cases hclass with
  | notInKb hnone =>
    have hranks : hitRanks expectedIds retrieved = [] :=
      ranksFrom_eq_nil_iff.mpr fun hit hhit hid => hnone _ hid (hknown hit hhit)
    constructor
    · exact iff_of_true rfl hnone
    · exact iff_of_false nofun fun ⟨⟨id, hid, hmem⟩, _⟩ => hnone id hid hmem
    · exact iff_of_false nofun fun hpos => hrecall.mp hpos hranks
    · exact nofun
    · exact nofun
  | notRecalled hid hmem hranks =>
    have hrecalled : ¬ 0 < «recall» := fun hpos => hrecall.mp hpos hranks
    constructor
    · exact iff_of_false nofun fun hnone => hnone _ hid hmem
    · exact iff_of_true rfl ⟨⟨_, hid, hmem⟩, le_antisymm (not_lt.mp hrecalled) hzero⟩
    · exact iff_of_false nofun hrecalled
    · exact nofun
    · exact nofun
  | @ambiguous id hid hmem rank ranks hranks =>
    have hpos := hrecall.mpr (by rw [hranks]; exact List.cons_ne_nil _ _)
    exact .of_recalled (Or.inr (Or.inr rfl)) ⟨id, hid, hmem⟩ hpos nofun nofun
  | @lowRank id hid hmem rank ranks hranks hlow =>
    have hpos := hrecall.mpr (by rw [hranks]; exact List.cons_ne_nil _ _)
    have hcast : (4 : K) ≤ rank := by exact_mod_cast hlow
    refine .of_recalled (Or.inr (Or.inl rfl)) ⟨id, hid, hmem⟩ hpos nofun fun _ => ?_
    rw [← hmrr, hranks]
    exact ⟨one_div_pos.mpr (four_pos.trans_le hcast), one_div_le_one_div_of_le four_pos hcast⟩
  | @hit id hid hmem rank ranks hranks hhigh =>
    have hpos := hrecall.mpr (by rw [hranks]; exact List.cons_ne_nil _ _)
    have hrank : 1 ≤ rank := (mem_ranksFrom.mp (hranks ▸ List.mem_cons_self : rank ∈ _)).1
    have hcast : (0 : K) < rank ∧ (rank : K) ≤ 3 := ⟨by exact_mod_cast hrank, by exact_mod_cast hhigh⟩
    refine .of_recalled (Or.inl rfl) ⟨id, hid, hmem⟩ hpos (fun _ => ?_) nofun
    rw [← hmrr, hranks]
    exact one_div_le_one_div_of_le hcast.1 hcast.2

end Labels

section Runs

variable {K : Type} [Field K] [LinearOrder K] {rt : EvalRuntime K} {db : EvalDatabase K}
  {run : EvalRun K}

omit [Field K] [LinearOrder K] in
theorem attemptOf_evaluationRetriever (rt : EvalRuntime K) (db : EvalDatabase K) (userId : Uuid)
    {topK : Int} (hk : 1 ≤ topK) (case : EvalCase) :
    ((attemptOf (evaluationRetriever rt userId) db topK case).retrieved.length : Int) ≤ topK ∧
      ∀ hit ∈ (attemptOf (evaluationRetriever rt userId) db topK case).retrieved,
        hit.chunkId.str ∈ visibleSearchableChunkIds db.knowledge userId := by
  have hnone : ((([] : List EvaluationHit).length : Nat) : Int) ≤ topK ∧ ∀ hit ∈ ([] : List EvaluationHit),
      hit.chunkId.str ∈ visibleSearchableChunkIds db.knowledge userId :=
    ⟨by simp; omega, nofun⟩
  rw [attemptOf, evaluationRetriever]
  cases hquery : rt.encoder.embedQuery case.query with
  | error e => exact hnone
  | ok queryVector =>
    dsimp only
    rw [if_neg (by omega)]
    cases rt.retrievalFault case with
    | some e => exact hnone
    | none =>
      obtain ⟨n, rfl⟩ := Int.eq_ofNat_of_zero_le (show 0 ≤ topK by omega)
      rw [Retrieval.outcome, retrieveForEvaluation_eq hquery]
      constructor
      · exact_mod_cast (List.length_map _).trans_le (List.length_take_le _ _)
      · intro hit hhit
        obtain ⟨row, hrow, rfl⟩ := List.mem_map.mp hhit
        exact List.mem_map_of_mem (mem_rankedRows.mp (List.mem_of_mem_take hrow))

def EvalResult.Agrees (row : EvalResult K) (db : EvalDatabase K) (userId : Uuid) (case : EvalCase) : Prop :=
  LabelsAgree (Set.image Uuid.str (served db.knowledge userId)) case.expectedChunkIds row.attribution
    row.recallAtK row.mrr

theorem resultOf_agrees [IsStrictOrderedRing K] (rt : EvalRuntime K) {topK : Int} (hk : 1 ≤ topK) (case : EvalCase) :
    (resultOf rt (run.actualRetriever rt none) db run topK
      (visibleSearchableChunkIds db.knowledge run.userId) case).Agrees db run.userId case := by
  obtain ⟨hlength, hknown⟩ := attemptOf_evaluationRetriever rt db run.userId hk case
  have hagrees := classifyAttribution_agrees rt.log2 case.expectedChunkIds hk hlength
    hknown
  have hvisible : {id | id ∈ visibleSearchableChunkIds db.knowledge run.userId} =
      Set.image Uuid.str (served db.knowledge run.userId) :=
    Set.ext fun id => mem_visibleSearchableChunkIds
  rw [hvisible] at hagrees
  exact hagrees

omit [Field K] [LinearOrder K] in
theorem asks_retrieval (retrieval : Retrieval) :
    (retrieval.program : EvalProgram K _).Asks (EvalOp.isCommit · = false) := by
  cases retrieval with
  | raised error => exact Script.asks_throw error
  | returned hits => exact Script.asks_pure hits
  | queried fault read =>
    exact Script.asks_bind (Script.asks_perform rfl) fun knowledge => Script.asks_attempt _

omit [Field K] [LinearOrder K] in
theorem asks_retrieveCase (retriever : CaseRetriever) (topK : Int) (case : EvalCase) :
    (retrieveCase retriever topK case : EvalProgram K _).Asks (EvalOp.isCommit · = false) := by
  apply Script.asks_recover
  · refine Script.asks_bind (Script.asks_perform rfl) fun _ => ?_
    exact Script.asks_bind (asks_retrieval _) fun retrieved => Script.asks_pure _
  · exact fun error => Script.asks_pure _

theorem asks_evaluateCases (retriever : CaseRetriever) (runId : Uuid) (topK : Int)
    (knownChunkIds : List Str) (cases : List EvalCase) :
    (evaluateCases rt retriever runId topK knownChunkIds cases).Asks (EvalOp.isCommit · = false) := by
  induction cases with
  | nil => exact Script.asks_pure _
  | cons case cases ih =>
    refine Script.asks_bind ?_ fun outcome => Script.asks_bind ih fun outcomes => Script.asks_pure _
    refine Script.asks_bind (asks_retrieveCase retriever topK case) fun attempted => ?_
    refine Script.asks_bind (Script.asks_perform rfl) fun _ => ?_
    exact Script.asks_bind (Script.asks_perform rfl) fun _ => Script.asks_pure _

theorem concludeEvaluation_failsClean (retriever : Option CaseRetriever) (run : EvalRun K) :
    FailsClean (concludeEvaluation rt retriever run) := by
  refine .bind (Script.asks_attempt _) fun topK => ?_
  refine .bind (Script.asks_perform rfl) fun cases => ?_
  refine .bind (Script.asks_perform rfl) fun knowledge => ?_
  refine .bind (asks_evaluateCases _ _ _ _ _) fun outcomes => ?_
  refine .bind (Script.asks_attempt _) fun summary => ?_
  refine .bind (Script.asks_perform rfl) fun _ => ?_
  exact (FailsClean.commit _).andReturn fun _ => summary

theorem results_of_raised {retriever : Option CaseRetriever} (hrun : run ∈ db.runs) {e : PyException}
    {w' : EvalWorld K}
    (h : execEval (runEvaluation rt retriever run.id) db.connect = (.error e, w')) :
    w'.database.results = db.results := by
  rcases Script.bind_ran_error h with hfailed | ⟨found, w₁, hfound, h⟩
  · have hsame := database_unchanged (asks_findRun rt run.id) db.connect
    rw [execEval, hfailed] at hsame
    exact congrArg EvalDatabase.results hsame
  · obtain ⟨_, rfl, rfl⟩ := findRun_ok hrun hfound
    rcases Script.bind_ran_error h with hfailed | ⟨_, w₂, hmarked, h⟩
    · exact congrArg EvalDatabase.results (markRunning_failsClean rt _ _ _ hfailed)
    · obtain ⟨db', hcommits, hmark⟩ := markRunning_during db found (markRunning_ok hmarked)
      cases hmark.symm.trans hmarked
      exact (congrArg EvalDatabase.results
        (concludeEvaluation_failsClean retriever found _ _ _ h)).trans hcommits.results

theorem runEvaluation_labels [IsStrictOrderedRing K] (rt : EvalRuntime K) {db : EvalDatabase K}
    {run : EvalRun K} {topK : Int} (hrun : run ∈ db.runs)
    (htopK : configTopK run.configSnapshot = .ok topK) (hk : 1 ≤ topK) :
    (∀ summary, (execEval (runEvaluation rt none run.id) db.connect).1 = .ok summary →
      ∀ case ∈ db.activeCases run.datasetId, ∃ row,
        (execEval (runEvaluation rt none run.id) db.connect).2.database.results.get?
          (run.id, case.id) = some row ∧ row.Agrees db run.userId case) ∧
    ∀ e, (execEval (runEvaluation rt none run.id) db.connect).1 = .error e →
      (execEval (runEvaluation rt none run.id) db.connect).2.database.results = db.results := by
  constructor
  · intro summary hok case hcase
    have hevaluable := evaluable_of_ok hrun hok
    obtain ⟨topK', htopK', hcompletes⟩ := hevaluable.completes hrun
    cases htopK.symm.trans htopK'
    have hmem : resultOf rt (run.actualRetriever rt none) db run topK
        (visibleSearchableChunkIds db.knowledge run.userId) case ∈
          (execEval (runEvaluation rt none run.id) db.connect).2.database.results.rows := by
      rw [hcompletes.committed]
      exact List.mem_append_right _ (List.mem_map_of_mem hcase)
    exact ⟨_, Table.get?_key hmem, resultOf_agrees rt hk case⟩
  · intro e herror
    exact results_of_raised hrun (Prod.ext herror rfl)

end Runs

def stockCase : EvalCase where
  id := ⟨1, 0⟩
  datasetId := ⟨0, 0⟩
  query := "a".toList
  expectedChunkIds := ["lost".toList, (⟨0, 7⟩ : Uuid).str]
  source := "manual".toList
  isActive := true
  createdAt := 0

def stockRun : EvalRun Rat := { sampleRun with userId := libraryUser }

def stockDatabase : EvalDatabase Rat where
  knowledge := libraryDatabase
  datasets := .empty
  cases := ⟨[stockCase], by decide⟩
  runs := ⟨[stockRun], by decide⟩
  results := .empty

def stockRuntime : EvalRuntime Rat :=
  { sampleRuntime [] fun _ => none with encoder := measuringRetriever }

def stockLabelled : Except PyException (RunSummary Rat) × EvalWorld Rat :=
  execEval (runEvaluation stockRuntime none stockRun.id) stockDatabase.connect

theorem runEvaluation_labels_stock :
    ∃ row, stockLabelled.2.database.results.get? (stockRun.id, stockCase.id) = some row ∧
      row.attribution = .hit ∧ 1 / 3 ≤ row.mrr := by
  have hrun : stockRun ∈ stockDatabase.runs := List.mem_singleton.mpr rfl
  have hlabels := runEvaluation_labels stockRuntime hrun rfl (show (1 : Int) ≤ 5 by decide)
  have hlabel : (stockLabelled.2.database.results.get? (stockRun.id, stockCase.id)).map
      EvalResult.attribution = some .hit := by decide +kernel
  have hok : stockLabelled.1.isOk = true := by decide +kernel
  obtain ⟨summary, hsummary⟩ : ∃ summary, stockLabelled.1 = .ok summary := by
    cases hresult : stockLabelled.1 with
    | error e => rw [hresult] at hok; cases hok
    | ok summary => exact ⟨summary, rfl⟩
  obtain ⟨row, hrow, hagrees⟩ := hlabels.1 summary hsummary stockCase (List.mem_singleton.mpr rfl)
  have hhit : row.attribution = .hit := by
    rw [stockLabelled, hrow] at hlabel
    exact Option.some.inj hlabel
  exact ⟨row, hrow, hhit, hagrees.hit hhit⟩

end YCStudio
