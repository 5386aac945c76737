import YCStudio.Evaluation.CaseRuns

namespace YCStudio

open EvalDatabase

def EvalDatabase.connect {K : Type} (db : EvalDatabase K) : EvalWorld K where
  database := db
  session := .start K

section Isolation

variable {K : Type} [Field K] [LinearOrder K] (rt : EvalRuntime K)
  (retriever : Option CaseRetriever) (db : EvalDatabase K) (run : EvalRun K)

def EvalRun.Raises (case : EvalCase) : Prop :=
  ∃ topK e, configTopK run.configSnapshot = .ok topK ∧
    ((run.actualRetriever rt retriever) case topK).outcome db.knowledge = .error e

def EvalRun.Calms (calm : CaseRetriever) : Prop :=
  ∀ case topK, ∃ hits, (calm case topK).outcome db.knowledge = .ok hits ∧
    ∀ hits', ((run.actualRetriever rt retriever) case topK).outcome db.knowledge = .ok hits' →
      hits = hits'

structure EvalRun.Completes (rows : List (EvalResult K)) : Prop where
  returned : ∃ summary, (execEval (runEvaluation rt retriever run.id) db.connect).1 = .ok summary
  status : ((execEval (runEvaluation rt retriever run.id) db.connect).2.database.runs.get?
    run.id).map EvalRun.status = some .completed
  committed : (execEval (runEvaluation rt retriever run.id) db.connect).2.database.results.rows =
    db.results.rows ++ rows
  onePerCase : rows.map EvalResult.key =
    (db.activeCases run.datasetId).map fun case => (run.id, case.id)

def EvalResult.findings (row : EvalResult K) :
    List Str × List Str × List Rat × List Nat × K × K × K × AttributionLabel :=
  (row.retrievedChunkIds, row.retrievedDocumentIds, row.retrievedScores, row.hitPositions,
    row.recallAtK, row.mrr, row.ndcgAtK, row.attribution)

def EvalRun.IsolatesCases : Prop :=
  ∃ rows, run.Completes rt retriever db rows ∧
    (∀ case ∈ db.activeCases run.datasetId, ∀ row ∈ rows, row.caseId = case.id →
      (row.errorMessage.isSome ↔ run.Raises rt retriever db case)) ∧
    ∀ calm, run.Calms rt retriever db calm → ∃ rows', run.Completes rt (some calm) db rows' ∧
      ∀ row ∈ rows, row.errorMessage = none → ∀ row' ∈ rows', row'.caseId = row.caseId →
        row.findings = row'.findings

structure EvalRun.Evaluable : Prop extends run.Concludable rt retriever db where
  found : rt.fault .getRun = none
  marked : rt.fault .markRunning = none

variable {rt retriever db run}

theorem EvalDatabase.Commits.concludable {db' : EvalDatabase K} {tracked : Tracked K}
    (h : db.Commits tracked [] db') :
    run.Concludable rt retriever db' ↔ run.Concludable rt retriever db := by
  have hcases : db'.activeCases run.datasetId = db.activeCases run.datasetId := by
    rw [activeCases, activeCases, h.cases]
  have hcase (topK : Int) (case : EvalCase) : run.CaseEvaluable rt retriever db' topK case ↔
      run.CaseEvaluable rt retriever db topK case := by
    constructor
    · rintro ⟨hserved, hrecordable, hunrecorded⟩
      rw [h.knowledge] at hrecordable
      rw [h.results] at hunrecorded
      exact ⟨hserved, hrecordable, hunrecorded⟩
    · rintro ⟨hserved, hrecordable, hunrecorded⟩
      refine ⟨hserved, ?_, ?_⟩
      · rw [h.knowledge]
        exact hrecordable
      · rw [h.results]
        exact hunrecorded
  constructor
  · rintro ⟨haccepted, hweighted, topK, htopK, hall⟩
    rw [hcases] at hweighted hall
    exact ⟨haccepted, hweighted, topK, htopK, fun case hmem => (hcase topK case).mp (hall case hmem)⟩
  · rintro ⟨haccepted, hweighted, topK, htopK, hall⟩
    rw [← hcases] at hweighted hall
    exact ⟨haccepted, hweighted, topK, htopK, fun case hmem => (hcase topK case).mpr (hall case hmem)⟩

section Begins

variable (hrun : run ∈ db.runs)

include hrun

omit [Field K] in
theorem findRun_connect (hfault : rt.fault .getRun = none) :
    execEval (findRun rt run.id) db.connect = (.ok run, EvalWorld.during db run [] []) := by
  have hget : execEval (getRun (rt.fault .getRun) run.id) db.connect =
      (.ok (some run), EvalWorld.during db run [] []) := by
    rw [hfault]
    change serveEval (EvalOp.getRun none run.id) db.connect = _
    have hfound : db.connect.view.runs.get? run.id = some run := Table.get?_key hrun
    simp only [serveEval, connect, EvalSession.start, Health.usable] at hfound ⊢
    rw [hfound]
    rfl
  exact Script.run_bind_of_ok hget

omit [Field K] in
theorem findRun_ok {found : EvalRun K} {w' : EvalWorld K}
    (h : execEval (findRun rt run.id) db.connect = (.ok found, w')) :
    rt.fault .getRun = none ∧ found = run ∧ w' = EvalWorld.during db run [] [] := by
  cases hfault : rt.fault .getRun with
  | some e =>
    have hget : execEval (getRun (rt.fault .getRun) run.id) db.connect =
        (.error e, db.connect.abort) := by
      rw [hfault]
      rfl
    cases (Script.run_bind_of_error hget).symm.trans h
  | none =>
    cases (findRun_connect hrun hfault).symm.trans h
    exact ⟨rfl, rfl, rfl⟩

end Begins

omit [Field K] in
theorem markRunning_during (db : EvalDatabase K) (run : EvalRun K) (hfault : rt.fault .markRunning = none) :
    ∃ db', db.Commits ⟨run, run.started rt⟩ [] db' ∧
      execEval (markRunning rt) (EvalWorld.during db run [] []) =
        (.ok (), EvalWorld.during db' (run.started rt) [] []) := by
  have hempty : Storable db.results ([] ++ []) := ⟨by simp, by simp⟩
  obtain ⟨db', hcommits, hcommit⟩ := commit_during run hempty (EvalRun.started rt) rfl
  refine ⟨db', hcommits, ?_⟩
  rw [execEval, markRunning, hfault]
  exact (Script.run_bind_of_ok (Script.run_perform _ _ _)).trans hcommit

omit [Field K] in
theorem markRunning_ok {w' : EvalWorld K}
    (h : execEval (markRunning rt) (EvalWorld.during db run [] []) = (.ok (), w')) :
    rt.fault .markRunning = none := by
  obtain ⟨_, w₁, hassign, hcommit⟩ := Script.bind_ran_ok h
  cases hassign
  exact (commitEval_ok rfl hcommit).1

omit [Field K] [LinearOrder K] in
theorem started_amends : run.Amends (run.started rt) := ⟨rfl, rfl, rfl, rfl⟩

omit [Field K] [LinearOrder K] in
theorem finished_amends (summary : RunSummary K) : run.Amends (run.finished rt summary) :=
  ⟨rfl, rfl, rfl, rfl⟩

theorem evaluable_of_ok (hrun : run ∈ db.runs) {summary : RunSummary K}
    (h : (execEval (runEvaluation rt retriever run.id) db.connect).1 = .ok summary) :
    run.Evaluable rt retriever db := by
  rcases hran : execEval (runEvaluation rt retriever run.id) db.connect with ⟨result, w'⟩
  rw [hran] at h
  subst h
  obtain ⟨found, w₁, hfind, hran⟩ := Script.bind_ran_ok hran
  obtain ⟨hfound, rfl, rfl⟩ := findRun_ok hrun hfind
  obtain ⟨_, w₂, hmark, hran⟩ := Script.bind_ran_ok hran
  have hmarked := markRunning_ok hmark
  obtain ⟨db', hcommits, hmark'⟩ := markRunning_during db found hmarked
  cases hmark'.symm.trans hmark
  exact { hcommits.concludable.mp (concludable_of_ok hran) with
    found := hfound
    marked := hmarked }

def EvalRun.rowsAt (rt : EvalRuntime K) (retriever : Option CaseRetriever) (db : EvalDatabase K)
    (run : EvalRun K) (topK : Int) : List (EvalResult K) :=
  (db.activeCases run.datasetId).map (resultOf rt (run.actualRetriever rt retriever) db run topK
    (visibleSearchableChunkIds db.knowledge run.userId))

theorem EvalDatabase.Commits.rowsAt {db' : EvalDatabase K} {tracked : Tracked K}
    (h : db.Commits tracked [] db') (topK : Int) :
    run.rowsAt rt retriever db' topK = run.rowsAt rt retriever db topK := by
  have hcases : db'.activeCases run.datasetId = db.activeCases run.datasetId := by
    rw [activeCases, activeCases, h.cases]
  rw [EvalRun.rowsAt, EvalRun.rowsAt, hcases, h.knowledge]
  apply List.map_congr_left
  intro case _
  simp only [resultOf, outcomeOf, attemptOf, h.knowledge]

theorem EvalRun.Concludable.storable (h : run.Concludable rt retriever db) {topK : Int}
    (htopK : configTopK run.configSnapshot = .ok topK) :
    Storable db.results (run.rowsAt rt retriever db topK) := by
  obtain ⟨topK', htopK', hcases⟩ := h.evaluable
  cases htopK.symm.trans htopK'
  rw [rowsAt, storable_resultOf (nodup_activeCases run.datasetId)]
  exact fun case hcase => ⟨(hcases case hcase).unrecorded, (hcases case hcase).recordable⟩

theorem EvalRun.Evaluable.completes (hrun : run ∈ db.runs) (h : run.Evaluable rt retriever db) :
    ∃ topK, configTopK run.configSnapshot = .ok topK ∧
      run.Completes rt retriever db (run.rowsAt rt retriever db topK) := by
  obtain ⟨db₁, hstart, hmark⟩ := markRunning_during db run h.marked
  obtain ⟨topK, summary, db₂, htopK, _, hfinish, hconclude⟩ :=
    concludeEvaluation_ok (hstart.concludable.mpr h.toConcludable)
  have hran : execEval (runEvaluation rt retriever run.id) db.connect =
      (.ok summary, EvalWorld.during db₂ ((run.started rt).finished rt summary) [] []) :=
    (Script.run_bind_of_ok (findRun_connect hrun h.found)).trans
      ((Script.run_bind_of_ok hmark).trans hconclude)
  have hstarted := hstart.get?_run started_amends (Table.get?_key hrun)
  have hfinished := hfinish.get?_run (finished_amends summary) hstarted
  have hrows : db₂.results = db.results.insertAll (run.rowsAt rt retriever db topK) := by
    rw [hfinish.results, hstart.results, ← hstart.rowsAt topK]
    rfl
  refine ⟨topK, htopK, ?_⟩
  constructor
  · rw [hran]
    exact ⟨summary, rfl⟩
  · rw [hran]
    exact congrArg (Option.map EvalRun.status) hfinished
  · rw [hran]
    exact (congrArg Table.rows hrows).trans (h.storable htopK).rows_insertAll
  · exact map_key_resultOf _ _ _ _

theorem eq_resultOf {topK : Int} {case : EvalCase} (hcase : case ∈ db.activeCases run.datasetId)
    {row : EvalResult K} (hrow : row ∈ run.rowsAt rt retriever db topK)
    (hid : row.caseId = case.id) :
    row = resultOf rt (run.actualRetriever rt retriever) db run topK
      (visibleSearchableChunkIds db.knowledge run.userId) case := by
  obtain ⟨case', hcase', rfl⟩ := List.mem_map.mp hrow
  rw [List.inj_on_of_nodup_map (nodup_activeCases run.datasetId) hcase' hcase hid]

theorem errorMessage_rowsAt {topK : Int} (htopK : configTopK run.configSnapshot = .ok topK)
    {case : EvalCase} (hcase : case ∈ db.activeCases run.datasetId) {row : EvalResult K}
    (hrow : row ∈ run.rowsAt rt retriever db topK) (hid : row.caseId = case.id) :
    row.errorMessage.isSome ↔ run.Raises rt retriever db case := by
  rw [eq_resultOf hcase hrow hid, errorMessage_resultOf]
  constructor
  · intro hsome
    cases houtcome : (run.actualRetriever rt retriever case topK).outcome db.knowledge with
    | ok hits => simp [houtcome] at hsome
    | error e => exact ⟨topK, e, htopK, houtcome⟩
  · rintro ⟨topK', e, htopK', houtcome⟩
    cases htopK.symm.trans htopK'
    simp [houtcome]

theorem findings_rowsAt {calm : CaseRetriever} (hcalm : run.Calms rt retriever db calm) {topK : Int}
    {row row' : EvalResult K} (hrow : row ∈ run.rowsAt rt retriever db topK)
    (hmessage : row.errorMessage = none) (hrow' : row' ∈ run.rowsAt rt (some calm) db topK)
    (hid : row'.caseId = row.caseId) : row.findings = row'.findings := by
  obtain ⟨case, hcase, rfl⟩ := List.mem_map.mp hrow
  rw [errorMessage_resultOf] at hmessage
  rw [eq_resultOf hcase hrow' hid]
  obtain ⟨hits, hquiet, hsame⟩ := hcalm case topK
  cases houtcome : (run.actualRetriever rt retriever case topK).outcome db.knowledge with
  | error e => simp [houtcome] at hmessage
  | ok hits' =>
    cases hsame hits' houtcome
    have hattempt : attemptOf (run.actualRetriever rt retriever) db topK case =
        attemptOf (run.actualRetriever rt (some calm)) db topK case := by
      rw [attemptOf, attemptOf, houtcome]
      exact congrArg Attempted.ofOutcome hquiet.symm
    simp only [EvalResult.findings, resultOf, outcomeOf, hattempt]

omit [LinearOrder K] in
theorem EvalRun.Evaluable.calm {calm : CaseRetriever} (hcalm : run.Calms rt retriever db calm)
    (h : run.Evaluable rt retriever db) : run.Evaluable rt (some calm) db := by
  obtain ⟨topK, htopK, hcases⟩ := h.evaluable
  refine { h with evaluable := ⟨topK, htopK, fun case hcase => ?_⟩ }
  obtain ⟨hits, hquiet, _⟩ := hcalm case topK
  refine ⟨?_, fun e he => ?_, (hcases case hcase).unrecorded⟩
  · change (calm case topK).Served
    revert hquiet
    cases calm case topK with
    | raised error => exact fun _ => trivial
    | returned hits => exact fun _ => trivial
    | queried fault read =>
      cases fault with
      | none => exact fun _ => trivial
      | some e => exact fun hquiet => nomatch hquiet
  · cases hquiet.symm.trans he

theorem EvalRun.isolatesCases_iff (rt : EvalRuntime K) (retriever : Option CaseRetriever)
    {db : EvalDatabase K} {run : EvalRun K} (hrun : run ∈ db.runs) :
    run.IsolatesCases rt retriever db ↔ run.Evaluable rt retriever db := by
  constructor
  · rintro ⟨rows, hcompletes, _⟩
    obtain ⟨summary, hran⟩ := hcompletes.returned
    exact evaluable_of_ok hrun hran
  · intro h
    obtain ⟨topK, htopK, hcompletes⟩ := h.completes hrun
    refine ⟨_, hcompletes, fun case hcase row hrow hid => errorMessage_rowsAt htopK hcase hrow hid,
      fun calm hcalm => ?_⟩
    obtain ⟨topK', htopK', hcompletes'⟩ := (h.calm hcalm).completes hrun
    cases htopK.symm.trans htopK'
    exact ⟨_, hcompletes', fun row hrow hmessage row' hrow' hid =>
      findings_rowsAt hcalm hrow hmessage hrow' hid⟩

end Isolation

def sampleCase (draw : Nat) (query : String) : EvalCase where
  id := ⟨1, draw⟩
  datasetId := ⟨0, 0⟩
  query := query.toList
  expectedChunkIds := ["7-1".toList]
  source := "manual".toList
  isActive := true
  createdAt := draw

def sampleRun : EvalRun Rat where
  id := ⟨2, 0⟩
  datasetId := ⟨0, 0⟩
  userId := ⟨9, 0⟩
  status := .queued
  configSnapshot := [("top_k".toList, .number 5)]
  startedAt := none
  finishedAt := none
  summaryMetrics := none
  errorMessage := none

def sampleDatabase : EvalDatabase Rat where
  knowledge := .empty [⟨9, 0⟩]
  datasets := .empty
  cases := ⟨[sampleCase 0 "first", sampleCase 1 "second"], by decide⟩
  runs := ⟨[sampleRun], by decide⟩
  results := .empty

-- On the ranks met here log2 is exact.
def sampleRuntime (unencodable : List Str) (retrievalFault : EvalCase → Option PyException) :
    EvalRuntime Rat where
  defaultConfig := []
  log2 := fun n => n.log2
  floats := .exact Rat
  encoder := {
    embedQuery := fun query =>
      if query ∈ unencodable then
        .error { errorClass := .valueError, message := "cannot encode".toList }
      else .ok [1]
    cosineDistance := fun _ _ => 0 }
  elapsedMs := fun _ => 3
  now := fun _ => 100
  fault := fun _ => none
  retrievalFault

def encoderFails : EvalRuntime Rat := sampleRuntime ["first".toList] fun _ => none

theorem EvalRun.isolatesCases_encoderFails :
    sampleRun.IsolatesCases encoderFails none sampleDatabase := by
  have hrun : sampleRun ∈ sampleDatabase.runs := List.mem_singleton.mpr rfl
  refine (EvalRun.isolatesCases_iff encoderFails none hrun).mpr ?_
  have hcases : sampleDatabase.activeCases sampleRun.datasetId =
      [sampleCase 0 "first", sampleCase 1 "second"] := by decide +kernel
  constructor
  · constructor
    · exact fun _ _ => rfl
    · rw [hcases]
      decide +kernel
    · refine ⟨5, rfl, ?_⟩
      rw [hcases, List.forall_mem_cons, List.forall_mem_singleton]
      constructor
      · exact ⟨trivial, fun e he => by cases he; decide +kernel, rfl⟩
      · exact ⟨trivial, (fun e he => nomatch he), rfl⟩
  · rfl
  · rfl

-- The server cancels the statement of the first of two cases.
def statementTimesOut : EvalRuntime Rat := sampleRuntime [] fun case =>
  if case.id = ⟨1, 0⟩ then
    some {
      typeName := "DBAPIError".toList
      message := "canceling statement due to statement timeout".toList }
  else none

def afterTimeout : Except PyException (RunSummary Rat) × EvalWorld Rat :=
  execEval (evaluateRun statementTimesOut sampleRun.id) sampleDatabase.connect

theorem EvalRun.not_isolatesCases_timeout :
    ¬ sampleRun.IsolatesCases statementTimesOut none sampleDatabase ∧
      (afterTimeout.2.database.runs.get? sampleRun.id).map EvalRun.status = some .failed ∧
        afterTimeout.2.database.results.rows = [] := by
  refine ⟨?_, by decide +kernel, by decide +kernel⟩
  rintro ⟨rows, hcompletes, _⟩
  have hcommitted := hcompletes.status
  revert hcommitted
  decide +kernel

end YCStudio
