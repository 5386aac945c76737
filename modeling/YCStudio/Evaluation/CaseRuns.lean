import YCStudio.Evaluation.RunRules

namespace YCStudio

open EvalDatabase

def Retrieval.outcome (knowledge : Database) :
    Retrieval → Except PyException (List EvaluationHit)
  | raised error => .error error
  | returned hits => .ok hits
  | queried (some error) _ => .error error
  | queried none read => read knowledge

def Retrieval.Served : Retrieval → Prop
  | queried (some _) _ => False
  | _ => True

def Attempted.ofOutcome : Except PyException (List EvaluationHit) → Attempted
  | .ok retrieved => { retrieved, errorMessage := none }
  | .error error => { retrieved := [], errorMessage := some error.text }

section Session

variable {K : Type}

structure EvalRun.Amends (run run' : EvalRun K) : Prop where
  id : run'.id = run.id
  datasetId : run'.datasetId = run.datasetId
  userId : run'.userId = run.userId
  configSnapshot : run'.configSnapshot = run.configSnapshot

variable [DecidableEq K]

def EvalWorld.during (db : EvalDatabase K) (run : EvalRun K) (sent pending : List (EvalResult K)) :
    EvalWorld K where
  database := db
  session := {
    run := some ⟨run, run⟩
    pending := resultWrites pending
    flushed := resultWrites sent
    health := .active }

def Doomed (w : EvalWorld K) : Prop :=
  ∃ rows, w.session.pending = resultWrites rows ∧ rows ≠ [] ∧
    (w.session.health = .active → ¬ Storable w.view.results rows)

variable {db : EvalDatabase K} {run : EvalRun K} {sent pending : List (EvalResult K)}
  {w w' : EvalWorld K}

namespace Doomed

theorem unsent (h : Doomed w) : w.session.unsent ≠ [] ∧
    (w.session.health = .active → ¬ w.view.AcceptsAll w.session.unsent) := by
  obtain ⟨rows, hpending, hrows, hactive⟩ := h
  have hupdate : (w.view.applyAll ((w.session.run.map Tracked.update).getD [])).results =
      w.view.results := by
    cases w.session.run with
    | none => rfl
    | some tracked => exact results_update _ tracked
  constructor
  · simp [EvalSession.unsent, hpending, resultWrites, hrows]
  · intro hhealth haccepts
    apply hactive hhealth
    rw [EvalSession.unsent, acceptsAll_append, hpending, acceptsAll_resultWrites, hupdate]
      at haccepts
    exact haccepts.2

omit [DecidableEq K] in
theorem add (h : Doomed w) (row : EvalResult K) : Doomed (w.add (.insertResult row)) := by
  obtain ⟨rows, hpending, hrows, hactive⟩ := h
  refine ⟨rows ++ [row], ?_, by simp, fun hhealth hstorable => hactive hhealth hstorable.of_append⟩
  simp [EvalWorld.add, hpending, resultWrites]

omit [DecidableEq K] in
theorem assign (h : Doomed w) (f : EvalRun K → EvalRun K) : Doomed (w.assign f) := h

theorem retrieval (h : Doomed w) (retrieval : Retrieval) :
    (execEval retrieval.program w).2 = w ∨
      (execEval retrieval.program w).2.session.health = .inactive := by
  cases retrieval with
  | raised error => exact Or.inl rfl
  | returned hits => exact Or.inl rfl
  | queried fault read =>
    obtain ⟨e, w', hflush, hhealth⟩ := flushUnsent_refused none h.unsent.1 h.unsent.2
    right
    rw [execEval, Retrieval.program, Script.run_bind_of_error (selectEval_unsent hflush)]
    exact hhealth

end Doomed

theorem retrieveCase_inactive (h : w.session.health = .inactive) (retriever : CaseRetriever)
    (topK : Int) (case : EvalCase) :
    execEval (retrieveCase retriever topK case) w =
      (.ok (.ofOutcome (.error inactiveTransaction)), w) :=
  Script.run_recover_of_error (Script.run_bind_of_error (readAttributes_inactive h))

theorem retrieveCase_run (h : w.session.health ≠ .inactive) (retriever : CaseRetriever)
    (topK : Int) (case : EvalCase) :
    execEval (retrieveCase retriever topK case) w =
      (.ok (.ofOutcome (execEval (retriever case topK).program w).1),
        (execEval (retriever case topK).program w).2) := by
  have hbody : execEval (do
      readAttributes
      let retrieved ← (retriever case topK).program
      return ({ retrieved, errorMessage := none } : Attempted)) w = _ :=
    Script.run_bind_of_ok (readAttributes_usable h)
  rcases hprogram : execEval (retriever case topK).program w with ⟨e | hits, w'⟩
  · rw [Script.run_bind_of_error hprogram] at hbody
    exact Script.run_recover_of_error hbody
  · rw [Script.run_bind_of_ok hprogram] at hbody
    exact Script.run_recover_of_ok hbody

omit [DecidableEq K] in
theorem knowledge_applyAll (db : EvalDatabase K) (writes : List (EvalWrite K)) :
    (db.applyAll writes).knowledge = db.knowledge := by
  induction writes generalizing db with
  | nil => rfl
  | cons write writes ih =>
    refine (ih (db.apply write)).trans ?_
    cases write <;> rfl

@[simp] theorem unsent_during :
    (EvalWorld.during db run sent pending).session.unsent = resultWrites pending := by
  simp [EvalWorld.during, EvalSession.unsent]

omit [DecidableEq K] in
theorem accepts_during (run : EvalRun K) (h : Storable db.results (sent ++ pending)) :
    (EvalWorld.during db run sent pending).view.AcceptsAll (resultWrites pending) := by
  have hall := acceptsAll_resultWrites.mpr h
  rw [resultWrites, List.map_append, acceptsAll_append] at hall
  exact hall.2

theorem flush_during (h : Storable db.results (sent ++ pending)) :
    flushUnsent none (EvalWorld.during db run sent pending) =
      (.ok (), EvalWorld.during db run (sent ++ pending) []) := by
  by_cases hempty : pending = []
  · subst hempty
    rw [flushUnsent_nil unsent_during, List.append_nil]
  · have hunsent : (EvalWorld.during db run sent pending).session.unsent ≠ [] := by
      simpa [resultWrites] using hempty
    rw [flushUnsent_sent rfl (by rw [unsent_during]; exact accepts_during run h) hunsent,
      EvalWorld.send, unsent_during]
    simp [EvalWorld.during, resultWrites]

section Commits

variable {run' : EvalRun K}

theorem accepts_update {tracked : Tracked K}
    (htext : ∀ message ∈ (tracked.loaded.changes tracked.current).errorMessage.join,
      '\x00' ∉ message) : db.AcceptsAll tracked.update := by
  unfold Tracked.update
  dsimp only
  split
  · trivial
  · exact ⟨htext, trivial⟩

theorem EvalRun.Amends.get?_update (hamends : run.Amends run') (db : EvalDatabase K)
    (hrun : db.runs.get? run.id = some run) :
    (db.applyAll (Tracked.mk run run').update).runs.get? run'.id = some run' := by
  have hpatch := EvalRun.patch_changes hamends.id hamends.datasetId hamends.userId
    hamends.configSnapshot
  unfold Tracked.update
  dsimp only
  rw [hamends.id]
  split
  · rename_i hnone
    rw [hnone, EvalRun.patch_none] at hpatch
    rw [hpatch.symm]
    exact hrun
  · have hupdated := get?_runs_updateRun hrun (run.changes run')
    rw [hpatch] at hupdated
    exact hupdated

omit [DecidableEq K] in
theorem cases_applyAll (db : EvalDatabase K) (writes : List (EvalWrite K)) :
    (db.applyAll writes).cases = db.cases := by
  induction writes generalizing db with
  | nil => rfl
  | cons write writes ih =>
    refine (ih (db.apply write)).trans ?_
    cases write <;> rfl

structure EvalDatabase.Commits (db : EvalDatabase K) (tracked : Tracked K)
    (rows : List (EvalResult K)) (db' : EvalDatabase K) : Prop where
  runs : db'.runs = (db.applyAll tracked.update).runs
  results : db'.results = db.results.insertAll rows
  cases : db'.cases = db.cases
  knowledge : db'.knowledge = db.knowledge

omit [DecidableEq K] in
theorem applyAll_runs_congr {db db' : EvalDatabase K} (h : db.runs = db'.runs)
    (writes : List (EvalWrite K)) : (db.applyAll writes).runs = (db'.applyAll writes).runs := by
  induction writes generalizing db db' with
  | nil => exact h
  | cons write writes ih =>
    apply ih
    cases write <;> simp only [apply, h]

theorem commits_during (db : EvalDatabase K) (run run' : EvalRun K)
    (sent pending : List (EvalResult K)) :
    db.Commits ⟨run, run'⟩ (sent ++ pending)
      (((db.applyAll (resultWrites sent)).applyAll (Tracked.mk run run').update).applyAll
        (resultWrites pending)) where
  runs := by
    rw [runs_applyAll_resultWrites]
    exact applyAll_runs_congr (runs_applyAll_resultWrites sent) _
  results := by
    rw [results_applyAll_resultWrites, results_update, results_applyAll_resultWrites,
      Table.insertAll_append]
  cases := by rw [cases_applyAll, cases_applyAll, cases_applyAll]
  knowledge := by rw [knowledge_applyAll, knowledge_applyAll, knowledge_applyAll]

theorem EvalDatabase.Commits.get?_run {rows : List (EvalResult K)} {db' : EvalDatabase K}
    (h : db.Commits ⟨run, run'⟩ rows db') (hamends : run.Amends run')
    (hrun : db.runs.get? run.id = some run) : db'.runs.get? run'.id = some run' := by
  rw [h.runs]
  exact hamends.get?_update db hrun

theorem commit_during (run : EvalRun K) (hstorable : Storable db.results (sent ++ pending))
    (f : EvalRun K → EvalRun K) (hmessage : (f run).errorMessage = run.errorMessage) :
    ∃ db', db.Commits ⟨run, f run⟩ (sent ++ pending) db' ∧
      execEval (commitEval none) ((EvalWorld.during db run sent pending).assign f) =
        (.ok (), EvalWorld.during db' (f run) [] []) := by
  have hunsent : ((EvalWorld.during db run sent pending).assign f).session.unsent =
      (Tracked.mk run (f run)).update ++ resultWrites pending := rfl
  have hview : ((EvalWorld.during db run sent pending).assign f).view =
      db.applyAll (resultWrites sent) := rfl
  have hdatabase := commits_during db run (f run) sent pending
  refine ⟨_, hdatabase, ?_⟩
  rw [← applyAll_append, ← hunsent, ← hview]
  apply commitEval_sent rfl
  rw [hunsent, hview, acceptsAll_append]
  constructor
  · apply accepts_update
    simp [EvalRun.changes, hmessage]
  · rw [acceptsAll_resultWrites, results_update, ← acceptsAll_resultWrites]
    exact accepts_during run hstorable

end Commits

theorem select_during (query : EvalQuery) :
    execEval (selectEval none query) (EvalWorld.during db run [] []) =
      (.ok (query.answer db), EvalWorld.during db run [] []) :=
  selectEval_sent (flushUnsent_nil unsent_during) rfl

theorem select_during_refused (query : EvalQuery) (e : PyException) :
    execEval (selectEval (some e) query) (EvalWorld.during db run [] []) =
      (.error e, (EvalWorld.during db run [] []).abort) :=
  selectEval_aborts (flushUnsent_nil unsent_during) rfl e

section Retrievals

variable (run) (hstorable : Storable db.results (sent ++ pending)) (retrieval : Retrieval)

include hstorable

theorem retrieval_during (hserved : retrieval.Served) :
    ∃ sent' pending', sent' ++ pending' = sent ++ pending ∧
      execEval retrieval.program (EvalWorld.during db run sent pending) =
        (retrieval.outcome db.knowledge, EvalWorld.during db run sent' pending') := by
  cases retrieval with
  | raised error => exact ⟨sent, pending, rfl, rfl⟩
  | returned hits => exact ⟨sent, pending, rfl, rfl⟩
  | queried fault read =>
    cases fault with
    | some e => exact absurd hserved id
    | none =>
      have hknowledge : (EvalWorld.during db run (sent ++ pending) []).view.knowledge =
          db.knowledge := knowledge_applyAll db _
      refine ⟨sent ++ pending, [], List.append_nil _, ?_⟩
      rw [execEval, Retrieval.program,
        Script.run_bind_of_ok (selectEval_sent (flush_during hstorable) rfl)]
      simp only [EvalQuery.answer, hknowledge]
      rfl

theorem retrieval_during_refused (hserved : ¬ retrieval.Served) :
    execEval retrieval.program (EvalWorld.during db run sent pending) =
      (retrieval.outcome db.knowledge, (EvalWorld.during db run (sent ++ pending) []).abort) := by
  cases retrieval with
  | raised error => exact absurd trivial hserved
  | returned hits => exact absurd trivial hserved
  | queried fault read =>
    cases fault with
    | none => exact absurd trivial hserved
    | some e =>
      rw [execEval, Retrieval.program,
        Script.run_bind_of_error (selectEval_aborts (flush_during hstorable) rfl e)]
      rfl

end Retrievals

end Session

section Loop

variable {K : Type} [Field K] [LinearOrder K] (rt : EvalRuntime K) (retriever : CaseRetriever)
  (db : EvalDatabase K) (run : EvalRun K) (topK : Int) (knownChunkIds : List Str)

def attemptOf (case : EvalCase) : Attempted :=
  .ofOutcome ((retriever case topK).outcome db.knowledge)

def outcomeOf (case : EvalCase) : CaseOutcome K :=
  caseOutcome rt topK knownChunkIds case (attemptOf retriever db topK case)

def resultOf (case : EvalCase) : EvalResult K :=
  caseResult run.id (attemptOf retriever db topK case)
    (outcomeOf rt retriever db topK knownChunkIds case)

variable {rt retriever db run topK knownChunkIds} {sent pending : List (EvalResult K)}
  {w w' : EvalWorld K}

theorem evaluateCase_run (h : w.session.health ≠ .inactive) {case : EvalCase}
    (h' : (execEval (retriever case topK).program w).2.session.health ≠ .inactive) :
    execEval (evaluateCase rt retriever run.id topK knownChunkIds case) w =
      (let attempted := .ofOutcome (execEval (retriever case topK).program w).1
      let outcome := caseOutcome rt topK knownChunkIds case attempted
      (.ok outcome, (execEval (retriever case topK).program w).2.add
        (.insertResult (caseResult run.id attempted outcome)))) := by
  rw [execEval, evaluateCase, Script.run_bind_of_ok (retrieveCase_run h retriever topK case),
    Script.run_bind_of_ok (readAttributes_usable h')]
  rfl

theorem evaluateCase_usable {case : EvalCase} {outcome : CaseOutcome K}
    (h : execEval (evaluateCase rt retriever run.id topK knownChunkIds case) w =
      (.ok outcome, w')) :
    w.session.health ≠ .inactive ∧
      (execEval (retriever case topK).program w).2.session.health ≠ .inactive := by
  obtain ⟨attempted, w₁, hretrieve, h⟩ := Script.bind_ran_ok h
  obtain ⟨_, w₂, hread, _⟩ := Script.bind_ran_ok h
  have husable : w₁.session.health ≠ .inactive := by
    intro hinactive
    cases (readAttributes_inactive hinactive).symm.trans hread
  by_cases hinactive : w.session.health = .inactive
  · cases (retrieveCase_inactive hinactive retriever topK case).symm.trans hretrieve
    exact absurd hinactive husable
  · cases (retrieveCase_run hinactive retriever topK case).symm.trans hretrieve
    exact ⟨hinactive, husable⟩

theorem Doomed.evaluateCase (hdoomed : Doomed w) {case : EvalCase} {outcome : CaseOutcome K}
    (h : execEval (evaluateCase rt retriever run.id topK knownChunkIds case) w =
      (.ok outcome, w')) : Doomed w' := by
  obtain ⟨husable, husable'⟩ := evaluateCase_usable h
  rw [evaluateCase_run husable husable'] at h
  rcases hdoomed.retrieval (retriever case topK) with hsame | hinactive
  · cases h
    rw [hsame]
    exact hdoomed.add _
  · exact absurd hinactive husable'

theorem Doomed.evaluateCases (hdoomed : Doomed w) {cases : List EvalCase}
    {outcomes : List (CaseOutcome K)}
    (h : execEval (evaluateCases rt retriever run.id topK knownChunkIds cases) w =
      (.ok outcomes, w')) : Doomed w' := by
  induction cases generalizing w outcomes with
  | nil =>
    cases h
    exact hdoomed
  | cons case cases ih =>
    obtain ⟨outcome, w₁, hcase, h⟩ := Script.bind_ran_ok h
    obtain ⟨rest, w₂, hcases, h⟩ := Script.bind_ran_ok h
    cases h
    exact ih (hdoomed.evaluateCase hcase) hcases

section Step

variable (rt run knownChunkIds) (hstorable : Storable db.results (sent ++ pending)) (case : EvalCase)

include hstorable

theorem evaluateCase_during (hserved : (retriever case topK).Served) :
    ∃ sent' pending', sent' ++ pending' = sent ++ pending ∧
      execEval (evaluateCase rt retriever run.id topK knownChunkIds case)
        (EvalWorld.during db run sent pending) =
          (.ok (outcomeOf rt retriever db topK knownChunkIds case),
            EvalWorld.during db run sent'
              (pending' ++ [resultOf rt retriever db run topK knownChunkIds case])) := by
  obtain ⟨sent', pending', hsame, hprogram⟩ :=
    retrieval_during run hstorable (retriever case topK) hserved
  refine ⟨sent', pending', hsame, ?_⟩
  rw [evaluateCase_run (by simp [EvalWorld.during]) (by rw [hprogram]; simp [EvalWorld.during]),
    hprogram]
  simp only [EvalWorld.add, EvalWorld.during, resultWrites, List.map_append]
  rfl

theorem evaluateCase_refused (hserved : ¬ (retriever case topK).Served) :
    ∃ outcome w', execEval (evaluateCase rt retriever run.id topK knownChunkIds case)
      (EvalWorld.during db run sent pending) = (.ok outcome, w') ∧ Doomed w' := by
  have hprogram := retrieval_during_refused run hstorable (retriever case topK) hserved
  rw [evaluateCase_run (by simp [EvalWorld.during])
    (by rw [hprogram]; simp [EvalWorld.abort]), hprogram]
  exact ⟨_, _, rfl, [_], rfl, List.cons_ne_nil _ _, fun h => by cases h⟩

end Step

omit [Field K] [LinearOrder K] in
theorem doomed_during (hstorable : ¬ Storable db.results (sent ++ pending)) (hpending : pending ≠ [])
    (hsent : Storable db.results sent) : Doomed (EvalWorld.during db run sent pending) := by
  refine ⟨pending, rfl, hpending, fun _ hrest => hstorable ?_⟩
  have hall : db.AcceptsAll (resultWrites sent ++ resultWrites pending) :=
    acceptsAll_append.mpr ⟨acceptsAll_resultWrites.mpr hsent, acceptsAll_resultWrites.mpr hrest⟩
  rw [resultWrites, resultWrites, ← List.map_append] at hall
  exact acceptsAll_resultWrites.mp hall

theorem evaluateCases_during {cases : List EvalCase}
    (hserved : ∀ case ∈ cases, (retriever case topK).Served)
    (hstorable : Storable db.results
      (sent ++ pending ++ cases.map (resultOf rt retriever db run topK knownChunkIds))) :
    ∃ sent' pending',
      sent' ++ pending' =
        sent ++ pending ++ cases.map (resultOf rt retriever db run topK knownChunkIds) ∧
      execEval (evaluateCases rt retriever run.id topK knownChunkIds cases)
        (EvalWorld.during db run sent pending) =
          (.ok (cases.map (outcomeOf rt retriever db topK knownChunkIds)),
            EvalWorld.during db run sent' pending') := by
  induction cases generalizing sent pending with
  | nil => exact ⟨sent, pending, (List.append_nil _).symm, rfl⟩
  | cons case cases ih =>
    obtain ⟨hcase, hcases⟩ := List.forall_mem_cons.mp hserved
    obtain ⟨sent₁, pending₁, hsame, hran⟩ :=
      evaluateCase_during rt run knownChunkIds hstorable.of_append case hcase
    have hrest : sent₁ ++ (pending₁ ++ [resultOf rt retriever db run topK knownChunkIds case]) ++
        cases.map (resultOf rt retriever db run topK knownChunkIds) =
        sent ++ pending ++
          (case :: cases).map (resultOf rt retriever db run topK knownChunkIds) := by
      simp [← hsame]
    obtain ⟨sent', pending', hrows, hrun⟩ := ih hcases (by rw [hrest]; exact hstorable)
    refine ⟨sent', pending', hrows.trans hrest, ?_⟩
    rw [execEval, evaluateCases, Script.run_bind_of_ok hran, Script.run_bind_of_ok hrun]
    rfl

theorem evaluateCases_doomed {cases : List EvalCase}
    (hbefore : Storable db.results (sent ++ pending))
    (hafter : ¬ ((∀ case ∈ cases, (retriever case topK).Served) ∧ Storable db.results
      (sent ++ pending ++ cases.map (resultOf rt retriever db run topK knownChunkIds))))
    {outcomes : List (CaseOutcome K)}
    (h : execEval (evaluateCases rt retriever run.id topK knownChunkIds cases)
      (EvalWorld.during db run sent pending) = (.ok outcomes, w')) : Doomed w' := by
  induction cases generalizing sent pending outcomes with
  | nil => exact absurd ⟨by simp, by simpa using hbefore⟩ hafter
  | cons case cases ih =>
    obtain ⟨outcome, w₁, hcase, h⟩ := Script.bind_ran_ok h
    obtain ⟨rest, w₂, hcases, h⟩ := Script.bind_ran_ok h
    cases h
    by_cases hserved : (retriever case topK).Served
    · obtain ⟨sent₁, pending₁, hsame, hran⟩ :=
        evaluateCase_during rt run knownChunkIds hbefore case hserved
      cases hran.symm.trans hcase
      have hsent : Storable db.results (sent₁ ++ pending₁) := by
        rw [hsame]
        exact hbefore
      by_cases hrow : Storable db.results
          (sent₁ ++ (pending₁ ++ [resultOf rt retriever db run topK knownChunkIds case]))
      · refine ih hrow ?_ hcases
        rintro ⟨hserveds, hstorable⟩
        refine hafter ⟨List.forall_mem_cons.mpr ⟨hserved, hserveds⟩, ?_⟩
        rw [← List.append_assoc, hsame] at hstorable
        simpa using hstorable
      · exact (doomed_during hrow (by simp) hsent.of_append).evaluateCases hcases
    · obtain ⟨_, _, hran, hdoomed⟩ :=
        evaluateCase_refused rt run knownChunkIds hbefore case hserved
      cases hran.symm.trans hcase
      exact hdoomed.evaluateCases hcases

end Loop

section Conclusion

variable {K : Type} [Field K] [LinearOrder K] (rt : EvalRuntime K)
  (retriever : Option CaseRetriever) (db : EvalDatabase K) (run : EvalRun K)

def EvalRun.actualRetriever : CaseRetriever := retriever.getD (evaluationRetriever rt run.userId)

structure EvalRun.CaseEvaluable (topK : Int) (case : EvalCase) : Prop where
  served : ((run.actualRetriever rt retriever) case topK).Served
  recordable : ∀ e, ((run.actualRetriever rt retriever) case topK).outcome db.knowledge =
    .error e → '\x00' ∉ e.text
  unrecorded : db.results.get? (run.id, case.id) = none

structure EvalRun.Concludable : Prop where
  accepted : ∀ statement ∈ [.activeCases, .visibleChunks, .complete], rt.fault statement = none
  weighted : Weighable rt.floats run.configSnapshot
    ((db.activeCases run.datasetId).map EvalCase.source)
  evaluable : ∃ topK, configTopK run.configSnapshot = .ok topK ∧
    ∀ case ∈ db.activeCases run.datasetId, run.CaseEvaluable rt retriever db topK case

def EvalRun.started : EvalRun K :=
  { run with
    status := .running
    startedAt := some (rt.now .markRunning) }

def EvalRun.finished (summary : RunSummary K) : EvalRun K :=
  { run with
    status := .completed
    finishedAt := some (rt.now .complete)
    summaryMetrics := some summary }

variable {rt retriever db run}

omit [Field K] [LinearOrder K] in
theorem nodup_activeCases (datasetId : Uuid) :
    ((db.activeCases datasetId).map EvalCase.id).Nodup := by
  have hsorted : (db.activeCases datasetId).Perm (db.cases.rows.filter fun row =>
      row.datasetId = datasetId ∧ row.isActive) := List.perm_insertionSort _ _
  rw [(hsorted.map EvalCase.id).nodup_iff]
  exact db.cases.nodup.sublist (List.filter_sublist.map EvalCase.id)

theorem map_key_resultOf (retriever : CaseRetriever) (topK : Int) (knownChunkIds : List Str)
    (cases : List EvalCase) :
    (cases.map (resultOf rt retriever db run topK knownChunkIds)).map EvalResult.key =
      cases.map fun case => (run.id, case.id) := List.map_map

theorem errorMessage_resultOf (retriever : CaseRetriever) (topK : Int) (knownChunkIds : List Str)
    (case : EvalCase) :
    (resultOf rt retriever db run topK knownChunkIds case).errorMessage =
      match (retriever case topK).outcome db.knowledge with
      | .ok _ => none
      | .error e => some e.text := by
  change (attemptOf retriever db topK case).errorMessage = _
  unfold attemptOf
  cases (retriever case topK).outcome db.knowledge <;> rfl

theorem storable_resultOf {retriever : CaseRetriever} {topK : Int} {knownChunkIds : List Str}
    {cases : List EvalCase} (hnodup : (cases.map EvalCase.id).Nodup) :
    Storable db.results (cases.map (resultOf rt retriever db run topK knownChunkIds)) ↔
      ∀ case ∈ cases, db.results.get? (run.id, case.id) = none ∧
        ∀ e, (retriever case topK).outcome db.knowledge = .error e → '\x00' ∉ e.text := by
  have hkeys : ((cases.map (resultOf rt retriever db run topK knownChunkIds)).map
      EvalResult.key).Nodup := by
    rw [map_key_resultOf]
    have hpair : cases.map (fun case => (run.id, case.id)) =
        (cases.map EvalCase.id).map (Prod.mk run.id) := List.map_map.symm
    rw [hpair]
    exact hnodup.map (Prod.mk_right_injective run.id)
  rw [Storable, and_iff_left hkeys, List.forall_mem_map]
  refine forall₂_congr fun case _ => and_congr Iff.rfl ?_
  rw [errorMessage_resultOf]
  cases (retriever case topK).outcome db.knowledge with
  | ok hits => simp
  | error e => simp

theorem resultOf_started (retriever : CaseRetriever) (topK : Int) (knownChunkIds : List Str) :
    resultOf rt retriever db (run.started rt) topK knownChunkIds =
      resultOf rt retriever db run topK knownChunkIds := rfl

theorem concludeEvaluation_ok (h : run.Concludable rt retriever db) :
    ∃ topK summary db', configTopK run.configSnapshot = .ok topK ∧
      summary.caseCount = (db.activeCases run.datasetId).length ∧
      db.Commits ⟨run.started rt, (run.started rt).finished rt summary⟩
        ((db.activeCases run.datasetId).map (resultOf rt (run.actualRetriever rt retriever) db run
          topK (visibleSearchableChunkIds db.knowledge run.userId))) db' ∧
      execEval (concludeEvaluation rt retriever run)
        (EvalWorld.during db (run.started rt) [] []) =
          (.ok summary, EvalWorld.during db' ((run.started rt).finished rt summary) [] []) := by
  obtain ⟨topK, htopK, hcases⟩ := h.evaluable
  have hstorable : Storable db.results ([] ++ [] ++ (db.activeCases run.datasetId).map
      (resultOf rt (run.actualRetriever rt retriever) db (run.started rt) topK
        (visibleSearchableChunkIds db.knowledge run.userId))) := by
    rw [List.nil_append, List.nil_append, resultOf_started,
      storable_resultOf (nodup_activeCases run.datasetId)]
    exact fun case hcase => ⟨(hcases case hcase).unrecorded, (hcases case hcase).recordable⟩
  obtain ⟨sent, pending, hrows, hran⟩ := evaluateCases_during
    (fun case hcase => (hcases case hcase).served) hstorable
  have hsources : ((db.activeCases run.datasetId).map
      (outcomeOf rt (run.actualRetriever rt retriever) db topK
        (visibleSearchableChunkIds db.knowledge run.userId))).map CaseOutcome.source =
      (db.activeCases run.datasetId).map EvalCase.source := List.map_map
  obtain ⟨summary, hsummary⟩ := summarizeOutcomes_ok_iff.mpr (hsources ▸ h.weighted)
  rw [← hrows] at hstorable
  obtain ⟨db', hcommits, hcommit⟩ := commit_during (run.started rt) hstorable
    (EvalRun.finished rt · summary) rfl
  rw [hrows, List.nil_append, List.nil_append, resultOf_started] at hcommits
  refine ⟨topK, summary, db', htopK, ?_, hcommits, ?_⟩
  · rw [caseCount_of_summarizeOutcomes hsummary, List.length_map]
  · have hfault (statement) (hmem) := h.accepted statement hmem
    rw [execEval, concludeEvaluation, hfault .activeCases (by simp), hfault .visibleChunks (by simp),
      hfault .complete (by simp), htopK]
    refine (Script.run_bind_of_ok (Script.run_attempt _ _ _)).trans ?_
    refine (Script.run_bind_of_ok (select_during _)).trans ?_
    refine (Script.run_bind_of_ok (select_during _)).trans ?_
    refine (Script.run_bind_of_ok hran).trans ?_
    rw [hsummary]
    refine (Script.run_bind_of_ok (Script.run_attempt _ _ _)).trans ?_
    refine (Script.run_bind_of_ok (Script.run_perform _ _ _)).trans ?_
    refine (Script.run_bind_of_ok hcommit).trans ?_
    rfl

omit [Field K] in
theorem select_during_ok {tracked : EvalRun K} {fault : Option PyException} {query : EvalQuery}
    {reply : query.Reply} {w' : EvalWorld K}
    (h : execEval (selectEval fault query) (EvalWorld.during db tracked [] []) = (.ok reply, w')) :
    fault = none ∧ reply = query.answer db ∧ w' = EvalWorld.during db tracked [] [] := by
  cases fault with
  | some e => cases (select_during_refused query e).symm.trans h
  | none =>
    cases (select_during query).symm.trans h
    exact ⟨rfl, rfl, rfl⟩

theorem concludable_of_ok {summary : RunSummary K} {w' : EvalWorld K}
    (h : execEval (concludeEvaluation rt retriever run)
      (EvalWorld.during db (run.started rt) [] []) = (.ok summary, w')) :
    run.Concludable rt retriever db := by
  obtain ⟨topK, w₁, htopK, h⟩ := Script.bind_ran_ok h
  obtain ⟨hreadable, rfl⟩ := Prod.mk.inj htopK
  obtain ⟨cases, w₂, hcases, h⟩ := Script.bind_ran_ok h
  obtain ⟨hfaultCases, rfl, rfl⟩ := select_during_ok hcases
  obtain ⟨knowledge, w₃, hknowledge, h⟩ := Script.bind_ran_ok h
  obtain ⟨hfaultChunks, rfl, rfl⟩ := select_during_ok hknowledge
  obtain ⟨outcomes, w₄, hran, h⟩ := Script.bind_ran_ok h
  obtain ⟨summary', w₅, hsummary, h⟩ := Script.bind_ran_ok h
  obtain ⟨hsummarized, rfl⟩ := Prod.mk.inj hsummary
  obtain ⟨_, w₆, hassign, h⟩ := Script.bind_ran_ok h
  cases hassign
  obtain ⟨_, w₇, hcommit, h⟩ := Script.bind_ran_ok h
  have hbefore : Storable db.results ([] ++ []) := ⟨by simp, by simp⟩
  have hran : execEval (evaluateCases rt (run.actualRetriever rt retriever) (run.started rt).id topK
      (visibleSearchableChunkIds db.knowledge run.userId) (db.activeCases run.datasetId))
      (EvalWorld.during db (run.started rt) [] []) = (.ok outcomes, w₄) := hran
  have hcleared : (∀ case ∈ db.activeCases run.datasetId,
      ((run.actualRetriever rt retriever) case topK).Served) ∧
      Storable db.results ([] ++ [] ++ (db.activeCases run.datasetId).map
        (resultOf rt (run.actualRetriever rt retriever) db (run.started rt) topK
          (visibleSearchableChunkIds db.knowledge run.userId))) := by
    by_contra hcontra
    have hdoomed := (evaluateCases_doomed hbefore hcontra hran).assign
      fun run => run.finished rt summary'
    obtain ⟨e, w', herror⟩ := commitEval_refused hdoomed.unsent.1 hdoomed.unsent.2
    cases herror.symm.trans hcommit
  obtain ⟨hserved, hstorable⟩ := hcleared
  obtain ⟨sent, pending, hrows, hran'⟩ := evaluateCases_during hserved hstorable
  cases hran'.symm.trans hran
  have hweighted := summarizeOutcomes_ok_iff.mp ⟨summary', hsummarized⟩
  obtain ⟨hfaultComplete, _⟩ := commitEval_ok rfl hcommit
  rw [List.nil_append, List.nil_append, resultOf_started,
    storable_resultOf (nodup_activeCases run.datasetId)] at hstorable
  constructor
  · simp [hfaultCases, hfaultChunks, hfaultComplete]
  · rw [List.map_map] at hweighted
    exact hweighted
  · exact ⟨topK, hreadable, fun case hcase =>
      ⟨hserved case hcase, (hstorable case hcase).2, (hstorable case hcase).1⟩⟩

end Conclusion

end YCStudio
