import Mathlib.Data.Char
import Mathlib.Data.List.Lex
import YCStudio.Evaluation.CaseIsolation
import YCStudio.Library.TopK

namespace YCStudio

mutual

-- Python's == on parsed JSON: true equals 1, and a dict has no order.
def Json.equals : Json → Json → Bool
  | .null, .null => true
  | .text a, .text b => a = b
  | .array items, .array items' => equalItems items items'
  | .dict entries, .dict entries' =>
      entries.length = entries'.length && equalEntries entries entries'
  | .number a, .number b => a = b
  | .number a, .flag b => a = if b then 1 else 0
  | .flag a, .number b => b = if a then 1 else 0
  | .flag a, .flag b => a = b
  | _, _ => false

def equalItems : List Json → List Json → Bool
  | [], [] => true
  | item :: items, item' :: items' => item.equals item' && equalItems items items'
  | _, _ => false

def equalEntries : List (Str × Json) → List (Str × Json) → Bool
  | [], _ => true
  | (key, value) :: entries, entries' =>
      (match entries'.lookup key with
        | some value' => value.equals value'
        | none => false) && equalEntries entries entries'

end

def configDiff (before after : JsonDict) : List (Str × (Json × Json)) :=
  let keys := ((before ++ after).map Prod.fst).dedup
  ((keys.insertionSort (· ≤ ·)).map fun key =>
    (key, (before.lookup key).getD .null, (after.lookup key).getD .null)).filter
      fun entry => ¬ entry.2.1.equals entry.2.2

structure ResultValues (K : Type) where
  recallAtK : K
  mrr : K
  ndcgAtK : K
  deriving DecidableEq, Repr

inductive DiffState where
  | improved
  | regressed
  | unchanged
  deriving DecidableEq, Repr

structure CaseDiff (K : Type) where
  caseId : Str
  query : Str
  state : DiffState
  baseline : ResultValues K
  current : ResultValues K
  delta : ResultValues K
  deriving DecidableEq, Repr

structure RunComparison (K : Type) where
  baselineRunId : Str
  currentRunId : Str
  baselineSummary : Option (RunSummary K)
  currentSummary : Option (RunSummary K)
  configDiff : List (Str × (Json × Json))
  caseDiffs : List (CaseDiff K)
  improvedCases : List (CaseDiff K)
  regressedCases : List (CaseDiff K)

def evaluationRunsNotFound : PyException where
  typeName := "LookupError".toList
  message := "One of the evaluation runs was not found".toList

def comparisonForbidden : PyException where
  typeName := "PermissionError".toList
  message := "Only the run owner may compare evaluation runs".toList

section Compare

variable {K : Type} [Field K] [LinearOrder K]

omit [LinearOrder K] in
def resultValues : Option (EvalResult K) → ResultValues K
  | none => { recallAtK := 0, mrr := 0, ndcgAtK := 0 }
  | some result => {
      recallAtK := result.recallAtK
      mrr := result.mrr
      ndcgAtK := result.ndcgAtK }

def caseDiff (caseId : Uuid) (query : Option Str) (before after : Option (EvalResult K)) :
    CaseDiff K :=
  let beforeValues := resultValues before
  let afterValues := resultValues after
  let delta : ResultValues K := {
    recallAtK := afterValues.recallAtK - beforeValues.recallAtK
    mrr := afterValues.mrr - beforeValues.mrr
    ndcgAtK := afterValues.ndcgAtK - beforeValues.ndcgAtK }
  let scoreDelta : K := [delta.recallAtK, delta.mrr, delta.ndcgAtK].sum
  { caseId := caseId.str
    query := query.getD []
    state := if 0 < scoreDelta then .improved else if scoreDelta < 0 then .regressed else .unchanged
    baseline := beforeValues
    current := afterValues
    delta }

omit [Field K] [LinearOrder K] in
def resultRows (db : EvalDatabase K) (runId : Uuid) : List (Uuid × EvalResult K) :=
  (db.results.rows.filter (·.runId = runId)).map fun row => (row.caseId, row)

omit [Field K] [LinearOrder K] in
def comparedCaseIds (baselineRows currentRows : List (Uuid × EvalResult K)) : List Uuid :=
  ((baselineRows ++ currentRows).map Prod.fst).dedup.insertionSort fun a b => a.str ≤ b.str

def caseDiffs (db : EvalDatabase K) (baselineRows currentRows : List (Uuid × EvalResult K)) :
    List (CaseDiff K) :=
  let caseIds := comparedCaseIds baselineRows currentRows
  let cases := db.cases.rows.filter (·.id ∈ caseIds)
  caseIds.map fun caseId =>
    caseDiff caseId ((cases.find? (·.id = caseId)).map EvalCase.query)
      (baselineRows.lookup caseId) (currentRows.lookup caseId)

def compareRuns (db : EvalDatabase K) (currentRunId baselineRunId userId : Uuid) :
    Except PyException (RunComparison K) :=
  match db.runs.get? currentRunId, db.runs.get? baselineRunId with
  | some current, some baseline =>
      if current.userId ≠ userId ∨ baseline.userId ≠ userId then .error comparisonForbidden
      else
        let diffs := caseDiffs db (resultRows db baseline.id) (resultRows db current.id)
        .ok {
          baselineRunId := baseline.id.str
          currentRunId := current.id.str
          baselineSummary := baseline.summaryMetrics
          currentSummary := current.summaryMetrics
          configDiff := configDiff baseline.configSnapshot current.configSnapshot
          caseDiffs := diffs
          improvedCases := diffs.filter (·.state = .improved)
          regressedCases := diffs.filter (·.state = .regressed) }
  | _, _ => .error evaluationRunsNotFound

end Compare

section Diffs

variable {K : Type} [Field K] [LinearOrder K]

def ResultValues.neg (values : ResultValues K) : ResultValues K where
  recallAtK := - values.recallAtK
  mrr := - values.mrr
  ndcgAtK := - values.ndcgAtK

def DiffState.flip : DiffState → DiffState
  | improved => regressed
  | regressed => improved
  | unchanged => unchanged

def CaseDiff.flip (diff : CaseDiff K) : CaseDiff K :=
  { diff with
    state := diff.state.flip
    baseline := diff.current
    current := diff.baseline
    delta := diff.delta.neg }

theorem caseDiff_flip [IsStrictOrderedRing K] (caseId : Uuid) (query : Option Str)
    (before after : Option (EvalResult K)) :
    caseDiff caseId query after before = (caseDiff caseId query before after).flip := by
  have hneg (a b c a' b' c' : K) :
      [a - a', b - b', c - c'].sum = - [a' - a, b' - b, c' - c].sum := by
    simp only [List.sum_cons, List.sum_nil]
    ring
  have hstate (scoreDelta : K) :
      (if 0 < - scoreDelta then DiffState.improved
        else if - scoreDelta < 0 then .regressed else .unchanged) =
      (if 0 < scoreDelta then DiffState.improved
        else if scoreDelta < 0 then .regressed else .unchanged).flip := by
    rcases lt_trichotomy scoreDelta 0 with hneg | rfl | hpos
    · simp [hneg, hneg.not_gt, DiffState.flip]
    · simp [DiffState.flip]
    · simp [hpos, hpos.not_gt, DiffState.flip]
  simp only [caseDiff, CaseDiff.flip, ResultValues.neg, neg_sub]
  rw [hneg, hstate]

omit [Field K] [LinearOrder K] in
theorem mem_map_resultRows {db : EvalDatabase K} {runId caseId : Uuid} :
    caseId ∈ (resultRows db runId).map Prod.fst ↔
      ∃ row ∈ db.results, row.runId = runId ∧ row.caseId = caseId := by
  simp [resultRows, Table.mem_def, and_assoc]

omit [Field K] [LinearOrder K] in
theorem mem_comparedCaseIds {baselineRows currentRows : List (Uuid × EvalResult K)} {caseId : Uuid} :
    caseId ∈ comparedCaseIds baselineRows currentRows ↔
      caseId ∈ baselineRows.map Prod.fst ∨ caseId ∈ currentRows.map Prod.fst := by
  rw [comparedCaseIds, List.mem_insertionSort, List.mem_dedup, List.map_append, List.mem_append]

omit [Field K] [LinearOrder K] in
theorem nodup_comparedCaseIds (baselineRows currentRows : List (Uuid × EvalResult K)) :
    ((comparedCaseIds baselineRows currentRows).map Uuid.str).Nodup :=
  (((List.perm_insertionSort _ _).nodup_iff).mpr (List.nodup_dedup _)).map Uuid.str_injective

omit [Field K] [LinearOrder K] in
theorem comparedCaseIds_comm (baselineRows currentRows : List (Uuid × EvalResult K)) :
    comparedCaseIds currentRows baselineRows = comparedCaseIds baselineRows currentRows := by
  have hperm : ((currentRows ++ baselineRows).map Prod.fst).dedup.Perm
      ((baselineRows ++ currentRows).map Prod.fst).dedup :=
    (List.perm_append_comm.map Prod.fst).dedup
  refine TopK.Ranks.unique (TopK.insertionSort_ranks _) ⟨?_, (TopK.insertionSort_ranks _).sorted⟩
    ((List.nodup_dedup _).map Uuid.str_injective)
  exact (List.perm_insertionSort _ _).trans hperm.symm

theorem caseDiffs_flip [IsStrictOrderedRing K] (db : EvalDatabase K)
    (baselineRows currentRows : List (Uuid × EvalResult K)) :
    caseDiffs db currentRows baselineRows =
      (caseDiffs db baselineRows currentRows).map CaseDiff.flip := by
  simp only [caseDiffs, comparedCaseIds_comm baselineRows currentRows, List.map_map]
  exact List.map_congr_left fun caseId _ => caseDiff_flip caseId _ _ _

theorem map_caseId_caseDiffs (db : EvalDatabase K)
    (baselineRows currentRows : List (Uuid × EvalResult K)) :
    (caseDiffs db baselineRows currentRows).map CaseDiff.caseId =
      (comparedCaseIds baselineRows currentRows).map Uuid.str := by
  simp only [caseDiffs, List.map_map]
  rfl

end Diffs

section Soundness

variable {K : Type} [Field K] [LinearOrder K]

omit [Field K] [LinearOrder K] in
def EvalDatabase.HasResult (db : EvalDatabase K) (run : EvalRun K) (caseId : Uuid) : Prop :=
  ∃ row ∈ db.results, row.runId = run.id ∧ row.caseId = caseId

structure RunComparison.Sound (comparison : RunComparison K) (inBoth : Uuid → Prop) : Prop where
  listed : ∀ diff, diff ∈ comparison.improvedCases ∨ diff ∈ comparison.regressedCases →
    ∃ caseId, inBoth caseId ∧ diff.caseId = caseId.str
  once : (comparison.caseDiffs.map CaseDiff.caseId).Nodup
  covered : ∀ caseId, inBoth caseId ↔ ∃ diff ∈ comparison.caseDiffs, diff.caseId = caseId.str

structure RunComparison.Reverses (comparison comparison' : RunComparison K) : Prop where
  caseDiffs : comparison'.caseDiffs = comparison.caseDiffs.map CaseDiff.flip
  improved : comparison'.improvedCases = comparison.regressedCases.map CaseDiff.flip
  regressed : comparison'.regressedCases = comparison.improvedCases.map CaseDiff.flip

def ComparesSoundly (db : EvalDatabase K) (current baseline : EvalRun K) : Prop :=
  ∃ comparison comparison',
    compareRuns db current.id baseline.id current.userId = .ok comparison ∧
      compareRuns db baseline.id current.id current.userId = .ok comparison' ∧
      comparison.Sound (fun caseId => db.HasResult current caseId ∧ db.HasResult baseline caseId) ∧
      comparison.Reverses comparison'

variable {db : EvalDatabase K} {current baseline : EvalRun K}

theorem mem_caseDiffs {caseId : Uuid} :
    (∃ diff ∈ caseDiffs db (resultRows db baseline.id) (resultRows db current.id),
      diff.caseId = caseId.str) ↔
        db.HasResult baseline caseId ∨ db.HasResult current caseId := by
  rw [EvalDatabase.HasResult, EvalDatabase.HasResult, ← mem_map_resultRows, ← mem_map_resultRows,
    ← mem_comparedCaseIds, ← List.mem_map, map_caseId_caseDiffs,
    List.mem_map_of_injective Uuid.str_injective]

theorem compareRuns_ok (hcurrent : current ∈ db.runs) (hbaseline : baseline ∈ db.runs)
    {userId : Uuid} (howner : current.userId = userId) (howner' : baseline.userId = userId) :
    ∃ comparison, compareRuns db current.id baseline.id userId = .ok comparison ∧
      comparison.caseDiffs = caseDiffs db (resultRows db baseline.id) (resultRows db current.id) ∧
      comparison.improvedCases = comparison.caseDiffs.filter (·.state = .improved) ∧
      comparison.regressedCases = comparison.caseDiffs.filter (·.state = .regressed) := by
  simp only [compareRuns, Table.get?_key hcurrent, Table.get?_key hbaseline, howner, howner',
    ne_eq, not_true_eq_false, or_self, if_false]
  exact ⟨_, rfl, rfl, rfl, rfl⟩

omit [Field K] [LinearOrder K] in
theorem filter_map_flip [Field K] (state : DiffState) (diffs : List (CaseDiff K)) :
    (diffs.map CaseDiff.flip).filter (·.state = state) =
      (diffs.filter (·.state = state.flip)).map CaseDiff.flip := by
  rw [List.filter_map]
  congr 1
  apply List.filter_congr
  rintro diff -
  cases state <;> cases hstate : diff.state <;> simp [CaseDiff.flip, DiffState.flip, hstate]

theorem comparesSoundly_iff [IsStrictOrderedRing K] (hcurrent : current ∈ db.runs)
    (hbaseline : baseline ∈ db.runs) (howner : baseline.userId = current.userId) :
    ComparesSoundly db current baseline ↔
      ∀ caseId, db.HasResult current caseId ↔ db.HasResult baseline caseId := by
  obtain ⟨comparison, hcompare, hdiffs, himproved, hregressed⟩ :=
    compareRuns_ok hcurrent hbaseline rfl howner
  obtain ⟨comparison', hcompare', hdiffs', himproved', hregressed'⟩ :=
    compareRuns_ok hbaseline hcurrent howner rfl
  constructor
  · rintro ⟨found, found', hfound, hfound', hsound, hreverses⟩ caseId
    cases hcompare.symm.trans hfound
    have hboth := hsound.covered caseId
    rw [hdiffs, mem_caseDiffs] at hboth
    constructor
    · exact fun hresult => (hboth.mpr (Or.inr hresult)).2
    · exact fun hresult => (hboth.mpr (Or.inl hresult)).1
  · intro hsame
    have hflip : comparison'.caseDiffs = comparison.caseDiffs.map CaseDiff.flip := by
      rw [hdiffs, hdiffs', caseDiffs_flip]
    have hboth (caseId : Uuid) : (db.HasResult current caseId ∧ db.HasResult baseline caseId) ↔
        ∃ diff ∈ comparison.caseDiffs, diff.caseId = caseId.str := by
      rw [hdiffs, mem_caseDiffs, hsame caseId, and_self, or_self]
    refine ⟨comparison, comparison', hcompare, hcompare', ⟨?_, ?_, hboth⟩, hflip, ?_, ?_⟩
    · intro diff hdiff
      have hmem : diff ∈ comparison.caseDiffs := by
        rw [himproved, hregressed] at hdiff
        rcases hdiff with hdiff | hdiff
        · exact List.mem_of_mem_filter hdiff
        · exact List.mem_of_mem_filter hdiff
      have hid : diff.caseId ∈ comparison.caseDiffs.map CaseDiff.caseId :=
        List.mem_map_of_mem hmem
      rw [hdiffs, map_caseId_caseDiffs] at hid
      obtain ⟨caseId, _, hid⟩ := List.mem_map.mp hid
      exact ⟨caseId, (hboth caseId).mpr ⟨diff, hmem, hid.symm⟩, hid.symm⟩
    · rw [hdiffs, map_caseId_caseDiffs]
      exact nodup_comparedCaseIds _ _
    · rw [himproved', hregressed, hflip, filter_map_flip]
      rfl
    · rw [hregressed', himproved, hflip, filter_map_flip]
      rfl

end Soundness

def judgedResult (run : EvalRun Rat) (draw : Nat) (score : Rat) : EvalResult Rat where
  runId := run.id
  caseId := ⟨1, draw⟩
  retrievedChunkIds := []
  retrievedDocumentIds := []
  retrievedScores := []
  hitPositions := []
  recallAtK := score
  mrr := score
  ndcgAtK := score
  attribution := .hit
  latencyMs := 3
  errorMessage := none

def laterRun : EvalRun Rat := { sampleRun with id := ⟨2, 1⟩ }

def judgedDatabase (results : List (EvalResult Rat)) : EvalDatabase Rat :=
  { sampleDatabase with
    runs := ⟨[sampleRun, laterRun], by decide⟩
    results := (Table.empty : Table EvalResult.key).insertAll results }

theorem mem_judgedRuns (results : List (EvalResult Rat)) :
    sampleRun ∈ (judgedDatabase results).runs ∧ laterRun ∈ (judgedDatabase results).runs :=
  ⟨List.mem_cons_self, List.mem_cons_of_mem _ List.mem_cons_self⟩

theorem comparesSoundly_sameCase :
    ComparesSoundly
      (judgedDatabase [judgedResult sampleRun 0 (1 / 2), judgedResult laterRun 0 1]) laterRun
        sampleRun := by
  refine (comparesSoundly_iff (mem_judgedRuns _).2 (mem_judgedRuns _).1 rfl).mpr fun caseId => ?_
  have hresults (run : EvalRun Rat) : EvalDatabase.HasResult
      (judgedDatabase [judgedResult sampleRun 0 (1 / 2), judgedResult laterRun 0 1]) run caseId ↔
        ∃ row ∈ [judgedResult sampleRun 0 (1 / 2), judgedResult laterRun 0 1],
          row.runId = run.id ∧ row.caseId = caseId := Iff.rfl
  rw [hresults, hresults]
  simp [judgedResult, laterRun, sampleRun]

def reviewedDatabase : EvalDatabase Rat :=
  judgedDatabase [judgedResult sampleRun 0 1, judgedResult laterRun 1 1]

theorem not_comparesSoundly_reviewed :
    ¬ (∀ (db : EvalDatabase Rat) (current baseline : EvalRun Rat), current ∈ db.runs →
      baseline ∈ db.runs → baseline.userId = current.userId → ComparesSoundly db current baseline) ∧
    (compareRuns reviewedDatabase laterRun.id sampleRun.id laterRun.userId).toOption.map
      (fun comparison => (comparison.improvedCases.map CaseDiff.caseId,
        comparison.regressedCases.map CaseDiff.caseId)) =
      some (["1-1".toList], ["1-0".toList]) := by
  have hcompared : (compareRuns reviewedDatabase laterRun.id sampleRun.id
      laterRun.userId).toOption.map (fun comparison =>
        (comparison.improvedCases.map CaseDiff.caseId,
          comparison.regressedCases.map CaseDiff.caseId)) =
      some (["1-1".toList], ["1-0".toList]) := by decide +kernel
  refine ⟨fun h => ?_, hcompared⟩
  obtain ⟨comparison, _, hcompare, _, hsound, _⟩ :=
    h reviewedDatabase laterRun sampleRun (mem_judgedRuns _).2 (mem_judgedRuns _).1 rfl
  rw [hcompare] at hcompared
  have himproved : comparison.improvedCases.map CaseDiff.caseId = ["1-1".toList] :=
    congrArg Prod.fst (Option.some.inj hcompared)
  obtain ⟨diff, hdiff, _⟩ := List.mem_map.mp (himproved ▸ List.mem_singleton.mpr rfl :
    "1-1".toList ∈ comparison.improvedCases.map CaseDiff.caseId)
  obtain ⟨caseId, ⟨⟨row, hrow, hrun, hcase⟩, row', hrow', hrun', hcase'⟩, _⟩ :=
    hsound.listed diff (Or.inl hdiff)
  have hdistinct : ∀ row ∈ reviewedDatabase.results.rows, row.runId = laterRun.id →
      ∀ row' ∈ reviewedDatabase.results.rows, row'.runId = sampleRun.id →
        row.caseId ≠ row'.caseId := by decide +kernel
  exact hdistinct row hrow hrun row' hrow' hrun' (hcase.trans hcase'.symm)

end YCStudio
