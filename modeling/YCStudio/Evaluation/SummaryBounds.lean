import YCStudio.Evaluation.Percentile
import YCStudio.Evaluation.Summary
import YCStudio.Evaluation.RunService
import YCStudio.Library.WeightedMean

namespace YCStudio

open WeightedMean

section Means

variable {α K : Type} [Field K] [LinearOrder K]

theorem weightedMean_map (value weight : α → K) (xs : List α) :
    weightedMean (.exact K) (xs.map value) (some (xs.map weight)) =
      if (∃ x ∈ xs, weight x ≠ 0) ∧ (xs.map weight).sum = 0 then .error zeroDivisionError
      else .ok (mean weight value xs) := by
  have hproducts : List.zipWith (FloatArithmetic.exact K).mul (xs.map value) (xs.map weight) =
      xs.map fun x => value x * weight x := by
    rw [List.zipWith_map, List.zipWith_self]
    rfl
  rw [weightedMean, hproducts]
  by_cases hempty : xs = []
  · subst hempty
    simp [mean]
  · rw [if_neg (by simpa using hempty)]
    by_cases hzero : ∀ x ∈ xs, weight x = 0
    · have hsum : (xs.map weight).sum = 0 := List.sum_eq_zero (by simpa using hzero)
      have hnone : ¬ ((∃ x ∈ xs, weight x ≠ 0) ∧ (xs.map weight).sum = 0) := by
        rintro ⟨⟨x, hx, hne⟩, _⟩
        exact hne (hzero x hx)
      rw [if_neg hnone, mean, hsum, div_zero]
      exact if_pos (Or.inr (by simpa using hzero))
    · have hsome : ∃ x ∈ xs, weight x ≠ 0 := by simpa using hzero
      simp only [hsome, true_and, List.length_map, ne_eq, not_true_eq_false, false_or,
        List.forall_mem_map, if_neg hzero]
      rfl

theorem weightedMean_perm {xs ys : List α} (h : xs.Perm ys) (value weight : α → K) :
    weightedMean (.exact K) (xs.map value) (some (xs.map weight)) =
      weightedMean (.exact K) (ys.map value) (some (ys.map weight)) := by
  have hsome : (∃ x ∈ xs, weight x ≠ 0) ↔ ∃ x ∈ ys, weight x ≠ 0 :=
    exists_congr fun x => and_congr h.mem_iff Iff.rfl
  rw [weightedMean_map, weightedMean_map, mean, mean, (h.map weight).sum_eq,
    (h.map fun x => value x * weight x).sum_eq]
  simp only [hsome]

end Means

section Bounds

variable {K : Type} [Field K] [LinearOrder K]

structure RetrievalMetrics.InUnit (metrics : RetrievalMetrics K) : Prop where
  «recall» : 0 ≤ metrics.recall ∧ metrics.recall ≤ 1
  mrr : 0 ≤ metrics.mrr ∧ metrics.mrr ≤ 1
  ndcg : 0 ≤ metrics.ndcg ∧ metrics.ndcg ≤ 1

structure RunSummary.Bounded (summary : RunSummary K) : Prop where
  «recall» : 0 ≤ summary.recallAtK ∧ summary.recallAtK ≤ 1
  mrr : 0 ≤ summary.mrr ∧ summary.mrr ≤ 1
  ndcg : 0 ≤ summary.ndcgAtK ∧ summary.ndcgAtK ≤ 1
  cases : summary.completedCases + summary.failedCases = summary.caseCount
  counts : (summary.attributionCounts.map Prod.snd).sum = summary.caseCount
  percentages : summary.caseCount ≠ 0 → (summary.attributionPercentages.map Prod.snd).sum = 100

structure Summarised (outcomes : List (CaseOutcome K)) (config : JsonDict) : Prop where
  bounded : ∃ summary, summarizeOutcomes (.exact K) outcomes config = .ok summary ∧
    summary.caseCount = outcomes.length ∧ summary.Bounded
  unordered : ∀ outcomes', outcomes'.Perm outcomes →
    summarizeOutcomes (.exact K) outcomes' config = summarizeOutcomes (.exact K) outcomes config

variable {outcomes outcomes' : List (CaseOutcome K)} {config : JsonDict}

def exactWeight (K : Type) [Field K] (config : JsonDict) (source : Str) : K :=
  ((configuredWeight config source).map fun value => (value : K)).getD 1

omit [LinearOrder K] in
theorem sourceWeight_exact (config : JsonDict) (source : Str) :
    sourceWeight (.exact K) config source = .ok (exactWeight K config source) := by
  rw [sourceWeight, exactWeight]
  cases configuredWeight config source <;> rfl

def outcomeWeight (config : JsonDict) (outcome : CaseOutcome K) : K :=
  exactWeight K config outcome.source

omit [LinearOrder K] in
theorem weights_exact (outcomes : List (CaseOutcome K)) (config : JsonDict) :
    (outcomes.mapM fun outcome => sourceWeight (.exact K) config outcome.source) =
      .ok (outcomes.map (outcomeWeight config)) :=
  Except.mapM_eq_ok fun outcome _ => sourceWeight_exact config outcome.source

theorem summarizeOutcomes_perm (h : outcomes'.Perm outcomes) :
    summarizeOutcomes (.exact K) outcomes' config = summarizeOutcomes (.exact K) outcomes config := by
  have hcount (p : CaseOutcome K → Bool) :
      (outcomes'.filter p).length = (outcomes.filter p).length := (h.filter p).length_eq
  have hmean (measure : CaseOutcome K → K) :=
    weightedMean_perm h measure (outcomeWeight config)
  have hlatency := percentile_perm (h.map CaseOutcome.latencyMs)
  simp only [summarizeOutcomes, weights_exact, bind, Except.bind, hmean, hlatency, hcount,
    h.length_eq]

omit [Field K] [LinearOrder K] in
theorem sum_attribution (outcomes : List (CaseOutcome K)) :
    (([.notInKb, .notRecalled, .lowRank, .hit, .ambiguous].map fun label =>
      (outcomes.filter (·.attribution = label)).length).sum) = outcomes.length := by
  induction outcomes with
  | nil => rfl
  | cons outcome outcomes ih =>
    rw [List.length_cons, ← ih]
    cases hlabel : outcome.attribution <;> simp [hlabel] <;> omega

theorem sum_percentages {counts : List Nat} {total : Nat} (hsum : counts.sum = total)
    (htotal : total ≠ 0) : (counts.map fun count : Nat => (count : Rat) / total * 100).sum = 100 := by
  have hcast : (total : Rat) ≠ 0 := by exact_mod_cast htotal
  have hcounts : (counts.map fun count : Nat => (count : Rat)).sum = total := by
    rw [← hsum]
    exact (map_list_sum (Nat.castRingHom Rat) counts).symm
  simp only [div_eq_mul_inv]
  rw [List.sum_map_mul_right, List.sum_map_mul_right, hcounts, mul_inv_cancel₀ hcast, one_mul]

theorem mean_of_summarizeOutcomes {summary : RunSummary K}
    (h : summarizeOutcomes (.exact K) outcomes config = .ok summary) :
    summary.recallAtK = mean (outcomeWeight config) (fun outcome => outcome.metrics.recall) outcomes ∧
      summary.mrr = mean (outcomeWeight config) (fun outcome => outcome.metrics.mrr) outcomes ∧
      summary.ndcgAtK = mean (outcomeWeight config) (fun outcome => outcome.metrics.ndcg) outcomes := by
  have hvalue {measure : CaseOutcome K → K} {value : K}
      (hmean : weightedMean (.exact K) (outcomes.map measure)
        (some (outcomes.map (outcomeWeight config))) = .ok value) :
      value = mean (outcomeWeight config) measure outcomes := by
    rw [weightedMean_map] at hmean
    split at hmean
    · cases hmean
    · exact (Except.ok.inj hmean).symm
  obtain ⟨weights, hweights, h⟩ := Except.bind_eq_ok h
  cases (weights_exact outcomes config).symm.trans hweights
  obtain ⟨«recall», hrecall, h⟩ := Except.bind_eq_ok h
  obtain ⟨mrr, hmrr, h⟩ := Except.bind_eq_ok h
  obtain ⟨ndcg, hndcg, h⟩ := Except.bind_eq_ok h
  obtain ⟨_, _, h⟩ := Except.bind_eq_ok h
  obtain ⟨_, _, h⟩ := Except.bind_eq_ok h
  cases h
  exact ⟨hvalue hrecall, hvalue hmrr, hvalue hndcg⟩

theorem counts_of_summarizeOutcomes {summary : RunSummary K}
    (h : summarizeOutcomes (.exact K) outcomes config = .ok summary) :
    summary.completedCases + summary.failedCases = summary.caseCount ∧
      (summary.attributionCounts.map Prod.snd).sum = summary.caseCount ∧
      (summary.caseCount ≠ 0 → (summary.attributionPercentages.map Prod.snd).sum = 100) := by
  obtain ⟨_, _, h⟩ := Except.bind_eq_ok h
  obtain ⟨_, _, h⟩ := Except.bind_eq_ok h
  obtain ⟨_, _, h⟩ := Except.bind_eq_ok h
  obtain ⟨_, _, h⟩ := Except.bind_eq_ok h
  obtain ⟨_, _, h⟩ := Except.bind_eq_ok h
  obtain ⟨_, _, h⟩ := Except.bind_eq_ok h
  cases h
  have hsum := sum_attribution outcomes
  have hpartition := outcomes.length_eq_length_filter_add fun outcome => outcome.errorMessage = none
  refine ⟨?_, ?_, fun hsome => ?_⟩
  · simpa using hpartition.symm
  · simpa using hsum
  · have hshares := sum_percentages hsum hsome
    simp only [List.map_map, if_neg (show outcomes.length ≠ 0 from hsome)] at hshares ⊢
    exact hshares

variable [IsStrictOrderedRing K]

theorem weighable_of_sameSign (h : SameSign (outcomeWeight config) outcomes) :
    Weighable (.exact K) config (outcomes.map CaseOutcome.source) := by
  refine weighable_iff.mpr ⟨_, weights_exact outcomes config, ?_⟩
  rintro ⟨weight, hweight, hne⟩ hsum
  obtain ⟨outcome, houtcome, rfl⟩ := List.mem_map.mp hweight
  exact hne (eq_zero_of_sameSign h hsum outcome houtcome)

theorem summarised_of_sameSign (hmetrics : ∀ outcome ∈ outcomes, outcome.metrics.InUnit)
    (hsign : SameSign (exactWeight K config) (outcomes.map CaseOutcome.source)) :
    Summarised outcomes config := by
  have hweights : SameSign (outcomeWeight config) outcomes := by
    simpa [SameSign, outcomeWeight] using hsign
  obtain ⟨summary, hsummary⟩ := summarizeOutcomes_ok_iff.mpr (weighable_of_sameSign hweights)
  obtain ⟨hrecall, hmrr, hndcg⟩ := mean_of_summarizeOutcomes hsummary
  obtain ⟨hcases, hcounts, hpercentages⟩ := counts_of_summarizeOutcomes hsummary
  refine ⟨⟨summary, hsummary, caseCount_of_summarizeOutcomes hsummary, ?_, ?_, ?_, hcases, hcounts,
    hpercentages⟩, fun _ => summarizeOutcomes_perm⟩
  · rw [hrecall]
    exact mean_mem_of_sameSign (fun outcome h => (hmetrics outcome h).«recall») hweights
  · rw [hmrr]
    exact mean_mem_of_sameSign (fun outcome h => (hmetrics outcome h).mrr) hweights
  · rw [hndcg]
    exact mean_mem_of_sameSign (fun outcome h => (hmetrics outcome h).ndcg) hweights

variable (K) in
def positiveOutcome (config : JsonDict) (source : Str) : CaseOutcome K where
  caseId := ⟨0, 0⟩
  source
  metrics := {
    «recall» := positivePart (exactWeight K config) source
    mrr := 0
    ndcg := 0
    hitPositions := [] }
  attribution := .hit
  latencyMs := 0
  errorMessage := none

theorem positiveOutcome_inUnit (config : JsonDict) (source : Str) :
    (positiveOutcome K config source).metrics.InUnit := by
  refine ⟨?_, ⟨le_rfl, zero_le_one⟩, ⟨le_rfl, zero_le_one⟩⟩
  simp only [positiveOutcome, positivePart]
  split
  · exact ⟨zero_le_one, le_rfl⟩
  · exact ⟨le_rfl, zero_le_one⟩

theorem sameSign_of_summarised {sources : List Str}
    (h : Summarised (sources.map (positiveOutcome K config)) config) :
    SameSign (exactWeight K config) sources := by
  by_contra hsign
  obtain ⟨summary, hsummary, _, hbounded⟩ := h.bounded
  have hrecall := hbounded.recall
  rw [(mean_of_summarizeOutcomes hsummary).1] at hrecall
  have hsources : (sources.map (positiveOutcome K config)).map CaseOutcome.source = sources := by
    rw [List.map_map]
    exact List.map_id sources
  have hmean : mean (outcomeWeight config) (fun outcome => outcome.metrics.recall)
      (sources.map (positiveOutcome K config)) =
        mean (exactWeight K config) (positivePart (exactWeight K config)) sources := by
    simp only [mean, List.map_map]
    rfl
  rw [hmean] at hrecall
  refine mean_positivePart_not_mem hsign (fun hsum => ?_) hrecall
  obtain ⟨weights, hweights, hnonzero⟩ :=
    weighable_iff.mp (summarizeOutcomes_ok_iff.mp ⟨summary, hsummary⟩)
  cases (weights_exact _ config).symm.trans hweights
  obtain ⟨⟨source, hsource, hneg⟩, _⟩ := not_sameSign_iff.mp hsign
  rw [List.map_map] at hnonzero
  exact hnonzero ⟨_, List.mem_map_of_mem hsource, hneg.ne⟩ hsum

end Bounds

theorem summarised_iff_sameSign (config : JsonDict) (sources : List Str) :
    (∀ outcomes : List (CaseOutcome Rat), outcomes.map CaseOutcome.source = sources →
      (∀ outcome ∈ outcomes, outcome.metrics.InUnit) → Summarised outcomes config) ↔
    SameSign (exactWeight Rat config) sources := by
  constructor
  · intro h
    refine sameSign_of_summarised (h _ ?_ ?_)
    · rw [List.map_map]
      exact List.map_id sources
    · exact List.forall_mem_map.mpr fun source _ => positiveOutcome_inUnit config source
  · rintro hsign outcomes rfl hmetrics
    exact summarised_of_sameSign hmetrics hsign

def opposedConfig (synthetic manual : Rat) : JsonDict :=
  mergeConfigSnapshot
    [("source_weights".toList,
      .dict [("synthetic".toList, .number 1), ("manual".toList, .number 2)])]
    [("source_weights".toList,
      .dict [("synthetic".toList, .number synthetic), ("manual".toList, .number manual)])]

def opposedOutcomes : List (CaseOutcome Rat) :=
  ["synthetic".toList, "manual".toList].map (positiveOutcome Rat (opposedConfig 1 (-1)))

theorem not_summarised_opposedWeights :
    ¬ (∀ (outcomes : List (CaseOutcome Rat)) (config : JsonDict),
      (∀ outcome ∈ outcomes, outcome.metrics.InUnit) → Summarised outcomes config) ∧
    summarizeOutcomes (.exact Rat) opposedOutcomes (opposedConfig 1 (-1)) =
      .error zeroDivisionError ∧
    (summarizeOutcomes (.exact Rat) opposedOutcomes (opposedConfig 3 (-1))).toOption.map
      RunSummary.recallAtK = some (3 / 2) := by
  have herror : summarizeOutcomes (.exact Rat) opposedOutcomes (opposedConfig 1 (-1)) =
      .error zeroDivisionError := by decide +kernel
  refine ⟨fun h => ?_, herror, by decide +kernel⟩
  have hmetrics : ∀ outcome ∈ opposedOutcomes, outcome.metrics.InUnit :=
    List.forall_mem_map.mpr fun source _ => positiveOutcome_inUnit _ source
  obtain ⟨summary, hsummary, _⟩ := (h opposedOutcomes (opposedConfig 1 (-1)) hmetrics).bounded
  cases herror.symm.trans hsummary

end YCStudio
