import Mathlib.Data.Rat.Cast.Defs
import YCStudio.Evaluation.Metrics
import YCStudio.Library.Traverse

namespace YCStudio

inductive Json where
  | null
  | flag (value : Bool)
  | number (value : Rat)
  | text (value : Str)
  | array (items : List Json)
  | dict (entries : List (Str × Json))

abbrev JsonDict := List (Str × Json)

-- Single underscores may stand between digits.
def decimalDigits (digits : Str) : Option (List Nat) :=
  let groups := digits.splitOn '_'
  if [] ∈ groups then none else groups.flatten.mapM digitValue

def maxStrDigits : Nat := 4300

def parseMagnitude (literal digits : Str) : Except PyException Nat :=
  match decimalDigits digits with
  | none =>
      .error {
        typeName := "ValueError".toList
        message := "invalid literal for int() with base 10: ".toList ++ (pyRepr literal).take 200 }
  | some values =>
      if maxStrDigits < values.length then
        .error {
          typeName := "ValueError".toList
          message := "Exceeds the limit (4300 digits) for integer string conversion: value has ".toList
            ++ (Nat.repr values.length).toList ++
            " digits; use sys.set_int_max_str_digits() to increase the limit".toList }
      else .ok (values.foldl (fun n digit => 10 * n + digit) 0)

def intOfText (literal : Str) : Except PyException Int :=
  match literal.strip with
  | '-' :: digits => (parseMagnitude literal digits).map fun n => -(n : Int)
  | '+' :: digits => (parseMagnitude literal digits).map fun n => (n : Int)
  | digits => (parseMagnitude literal digits).map fun n => (n : Int)

def configTopK (config : JsonDict) : Except PyException Int :=
  match config.lookup "top_k".toList with
  | some (.number value) => .ok (value.num.tdiv value.den)
  | some (.flag value) => .ok (if value then 1 else 0)
  | some (.text value) => intOfText value
  | _ => .ok 5

inductive AttributionLabel where
  | notInKb
  | notRecalled
  | lowRank
  | hit
  | ambiguous
  deriving DecidableEq, Repr

def classifyAttribution (expectedIds : List Str) (retrieved : List EvaluationHit)
    (knownChunkIds : List Str) : AttributionLabel :=
  if ∀ id ∈ expectedIds, id ∉ knownChunkIds then .notInKb
  else
    let hitIndexes := ((retrieved.zipIdx 1).filter (·.1.chunkId.str ∈ expectedIds)).map Prod.snd
    let topScores := (retrieved.take 3).map EvaluationHit.score
    let spread := topScores.max?.getD 0 - topScores.min?.getD 0
    if hitIndexes = [] then .notRecalled
    else if 1 < ((retrieved.take 3).map EvaluationHit.documentId).dedup.length ∧
        2 ≤ retrieved.length ∧ spread ≤ 3 / 100 then .ambiguous
    else if 3 < hitIndexes.min?.getD 0 then .lowRank
    else .hit

structure CaseOutcome (K : Type) where
  caseId : Uuid
  source : Str
  metrics : RetrievalMetrics K
  attribution : AttributionLabel
  latencyMs : Rat
  errorMessage : Option Str
  deriving DecidableEq, Repr

structure RunSummary (K : Type) where
  caseCount : Nat
  completedCases : Nat
  failedCases : Nat
  recallAtK : K
  mrr : K
  ndcgAtK : K
  latencyP50Ms : Rat
  latencyP95Ms : Rat
  attributionCounts : List (AttributionLabel × Nat)
  attributionPercentages : List (AttributionLabel × Rat)
  deriving DecidableEq, Repr

section Summary

def configuredWeight (config : JsonDict) (source : Str) : Option Rat :=
  match config.lookup "source_weights".toList with
  | some (.dict weights) =>
      match weights.lookup source with
      | some (.number value) => some value
      | some (.flag value) => some (if value then 1 else 0)
      | _ => none
  | _ => none

variable {K : Type} [Field K] [LinearOrder K] (floats : FloatArithmetic K)

def sourceWeight (config : JsonDict) (source : Str) : Except PyException K :=
  match configuredWeight config source with
  | some value => floats.float value
  | none => .ok 1

def summarizeOutcomes (outcomes : List (CaseOutcome K)) (config : JsonDict) :
    Except PyException (RunSummary K) := do
  let weights ← outcomes.mapM fun outcome => sourceWeight floats config outcome.source
  let latencies := outcomes.map CaseOutcome.latencyMs
  let recallAtK ← weightedMean floats (outcomes.map fun outcome => outcome.metrics.recall)
    (some weights)
  let mrr ← weightedMean floats (outcomes.map fun outcome => outcome.metrics.mrr) (some weights)
  let ndcgAtK ← weightedMean floats (outcomes.map fun outcome => outcome.metrics.ndcg) (some weights)
  let latencyP50Ms ← percentile latencies 50
  let latencyP95Ms ← percentile latencies 95
  let attributionCounts := [.notInKb, .notRecalled, .lowRank, .hit, .ambiguous].map
    fun label => (label, (outcomes.filter (·.attribution = label)).length)
  let denominator := if outcomes.length = 0 then 1 else outcomes.length
  return {
    caseCount := outcomes.length
    completedCases := (outcomes.filter (·.errorMessage = none)).length
    failedCases := (outcomes.filter (·.errorMessage ≠ none)).length
    recallAtK
    mrr
    ndcgAtK
    latencyP50Ms
    latencyP95Ms
    attributionCounts
    attributionPercentages := attributionCounts.map
      fun entry => (entry.1, (entry.2 : Rat) / denominator * 100) }

def Weighable (config : JsonDict) (sources : List Str) : Prop :=
  ∃ weights ∈ (sources.mapM (sourceWeight floats config)).toOption,
    (∃ weight ∈ weights, weight ≠ 0) → floats.sum weights ≠ 0

instance (config : JsonDict) (sources : List Str) : Decidable (Weighable floats config sources) :=
  inferInstanceAs (Decidable (∃ weights ∈ _, _))

variable {floats}

theorem weightedMean_ok_iff {values weights : List K} (hlength : values.length = weights.length) :
    (∃ mean, weightedMean floats values (some weights) = .ok mean) ↔
      ((∃ weight ∈ weights, weight ≠ 0) → floats.sum weights ≠ 0) := by
  by_cases hempty : values = []
  · subst hempty
    have hweights : weights = [] := List.length_eq_zero_iff.mp hlength.symm
    simp [weightedMean, hweights]
  · rw [weightedMean, if_neg hempty]
    by_cases hzero : ∀ weight ∈ weights, weight = 0
    · have hnone : ¬ ∃ weight ∈ weights, weight ≠ 0 := by simpa using hzero
      simp only [hnone, false_imp_iff, iff_true]
      exact ⟨0, if_pos (Or.inr hzero)⟩
    · have hsome : ∃ weight ∈ weights, weight ≠ 0 := by simpa using hzero
      by_cases hsum : floats.sum weights = 0 <;> simp [hlength, hzero, hsome, hsum]

theorem exists_percentile (values : List Rat) {percentileValue : Rat}
    (hrange : 0 ≤ percentileValue ∧ percentileValue ≤ 100) :
    ∃ value, percentile values percentileValue = .ok value := by
  rw [percentile]
  by_cases hempty : values = []
  · exact ⟨0, if_pos hempty⟩
  · rw [if_neg hempty, if_neg (not_not_intro hrange)]
    exact ⟨_, rfl⟩

omit [LinearOrder K] in
theorem weighable_iff {outcomes : List (CaseOutcome K)} {config : JsonDict} :
    Weighable floats config (outcomes.map CaseOutcome.source) ↔
      ∃ weights, (outcomes.mapM fun outcome => sourceWeight floats config outcome.source) =
        .ok weights ∧ ((∃ weight ∈ weights, weight ≠ 0) → floats.sum weights ≠ 0) := by
  rw [Weighable, List.mapM_map]
  refine exists_congr fun weights => and_congr_left fun _ => ?_
  exact Except.toOption_eq_some_iff 

theorem summarizeOutcomes_ok_iff {outcomes : List (CaseOutcome K)} {config : JsonDict} :
    (∃ summary, summarizeOutcomes floats outcomes config = .ok summary) ↔
      Weighable floats config (outcomes.map CaseOutcome.source) := by
  rw [weighable_iff]
  constructor
  · rintro ⟨summary, h⟩
    obtain ⟨weights, hweights, h⟩ := Except.bind_eq_ok h
    obtain ⟨mean, hrecall, _⟩ := Except.bind_eq_ok h
    have hlength := (Except.forall₂_of_mapM hweights).length_eq
    rw [← List.length_map (f := fun outcome : CaseOutcome K => outcome.metrics.recall)] at hlength
    exact ⟨weights, hweights, (weightedMean_ok_iff hlength).mp ⟨mean, hrecall⟩⟩
  · rintro ⟨weights, hweights, hsum⟩
    have hmean (measure : CaseOutcome K → K) :
        ∃ mean, weightedMean floats (outcomes.map measure) (some weights) = .ok mean := by
      refine (weightedMean_ok_iff ?_).mpr hsum
      rw [List.length_map]
      exact (Except.forall₂_of_mapM hweights).length_eq
    obtain ⟨«recall», hrecall⟩ := hmean fun outcome => outcome.metrics.recall
    obtain ⟨mrr, hmrr⟩ := hmean fun outcome => outcome.metrics.mrr
    obtain ⟨ndcg, hndcg⟩ := hmean fun outcome => outcome.metrics.ndcg
    obtain ⟨p50, hp50⟩ := exists_percentile (outcomes.map CaseOutcome.latencyMs)
      (show 0 ≤ (50 : Rat) ∧ (50 : Rat) ≤ 100 by norm_num)
    obtain ⟨p95, hp95⟩ := exists_percentile (outcomes.map CaseOutcome.latencyMs)
      (show 0 ≤ (95 : Rat) ∧ (95 : Rat) ≤ 100 by norm_num)
    simp only [summarizeOutcomes, hweights, bind, Except.bind, hrecall, hmrr, hndcg, hp50, hp95]
    exact ⟨_, rfl⟩

theorem caseCount_of_summarizeOutcomes {outcomes : List (CaseOutcome K)} {config : JsonDict}
    {summary : RunSummary K} (h : summarizeOutcomes floats outcomes config = .ok summary) :
    summary.caseCount = outcomes.length := by
  obtain ⟨_, _, h⟩ := Except.bind_eq_ok h
  obtain ⟨_, _, h⟩ := Except.bind_eq_ok h
  obtain ⟨_, _, h⟩ := Except.bind_eq_ok h
  obtain ⟨_, _, h⟩ := Except.bind_eq_ok h
  obtain ⟨_, _, h⟩ := Except.bind_eq_ok h
  obtain ⟨_, _, h⟩ := Except.bind_eq_ok h
  cases h
  rfl

end Summary

end YCStudio
