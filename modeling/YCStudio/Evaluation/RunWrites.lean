import YCStudio.Evaluation.RunDeliveries
import YCStudio.Library.Contracts

namespace YCStudio

open EvalDatabase

structure RunScope where
  runId : Uuid
  datasetId : Uuid
  userId : Uuid
  cases : List EvalCase
  -- Whether the row of the run is already stored, so that results may refer to it.
  stored : Prop

section Scope

variable {K : Type} (scope : RunScope)

namespace RunScope

structure Holds (run : EvalRun K) : Prop where
  id : run.id = scope.runId
  datasetId : run.datasetId = scope.datasetId
  userId : run.userId = scope.userId

def Within : EvalWrite K → Prop
  | .insertRun run => scope.Holds run
  | .updateRun id _ => id = scope.runId
  | .insertResult row =>
      scope.stored ∧ row.runId = scope.runId ∧ ∃ case ∈ scope.cases, case.id = row.caseId
  | .setCaseCount datasetId caseCount =>
      datasetId = scope.datasetId ∧ caseCount = scope.cases.length

def Keeps (f : EvalRun K → EvalRun K) : Prop :=
  ∀ run, (f run).id = run.id ∧ (f run).datasetId = run.datasetId ∧ (f run).userId = run.userId

theorem Holds.assign {run : EvalRun K} (h : scope.Holds run) {f : EvalRun K → EvalRun K}
    (hf : Keeps f) : scope.Holds (f run) :=
  ⟨(hf run).1.trans h.id, (hf run).2.1.trans h.datasetId, (hf run).2.2.trans h.userId⟩

def asks : EvalOp K → Prop
  | .getRun _ id => id = scope.runId
  | .assign f => Keeps f
  | .add write => scope.Within write
  | .track run => scope.Holds run
  | .select _ (.dataset id) => id = scope.datasetId
  | .select _ (.activeCount id) => id = scope.datasetId
  | .select _ (.activeCases id) => id = scope.datasetId
  | _ => True

def replies : (op : EvalOp K) → op.Reply → Prop
  | .getRun _ _, (found : Option (EvalRun K)) => ∀ run ∈ found, scope.Holds run
  | .select _ (.dataset _), (found : Option EvalDataset) =>
      ∀ dataset ∈ found, dataset.id = scope.datasetId
  | .select _ (.activeCount _), (count : Nat) => count = scope.cases.length
  | .select _ (.activeCases _), (cases : List EvalCase) => cases = scope.cases
  | _, _ => True

def contract (K : Type) : Script.Contract (EvalOp K) EvalOp.Reply where
  asks := scope.asks
  replies := scope.replies

structure Fits (db : EvalDatabase K) : Prop where
  cases : db.activeCases scope.datasetId = scope.cases
  runs : ∀ run ∈ db.runs, run.id = scope.runId → scope.Holds run
  stored : scope.stored → ∃ run ∈ db.runs, run.id = scope.runId

end RunScope

end Scope

section Programs

variable {K : Type} {scope : RunScope} {rt : EvalRuntime K}

open RunScope

theorem abides_getRun {fault : Option PyException} :
    (getRun fault scope.runId : EvalProgram K _).Abides (scope.contract K)
      fun found => ∀ run ∈ found, scope.Holds run :=
  Script.abides_perform (EvalOp.getRun fault scope.runId) rfl fun _ h => h

theorem abides_assignRun {f : EvalRun K → EvalRun K} (h : Keeps f) :
    (assignRun f).Abides (scope.contract K) fun _ => True :=
  Script.abides_perform (EvalOp.assign f) h fun _ _ => trivial

theorem abides_addRow {write : EvalWrite K} (h : scope.Within write) :
    (addRow write).Abides (scope.contract K) fun _ => True :=
  Script.abides_perform (EvalOp.add write) h fun _ _ => trivial

theorem abides_commitEval (fault : Option PyException) :
    (commitEval fault : EvalProgram K _).Abides (scope.contract K) fun _ => True :=
  Script.abides_perform (EvalOp.commit fault) trivial fun _ _ => trivial

theorem abides_flushEval (fault : Option PyException) :
    (flushEval fault : EvalProgram K _).Abides (scope.contract K) fun _ => True :=
  Script.abides_perform (EvalOp.flush fault) trivial fun _ _ => trivial

theorem abides_rollbackEval : (rollbackEval : EvalProgram K _).Abides (scope.contract K) fun _ => True :=
  Script.abides_perform EvalOp.rollback trivial fun _ _ => trivial

theorem abides_readAttributes :
    (readAttributes : EvalProgram K _).Abides (scope.contract K) fun _ => True :=
  Script.abides_perform EvalOp.readAttributes trivial fun _ _ => trivial

theorem abides_knowledge (fault : Option PyException) :
    (selectEval fault .knowledge : EvalProgram K _).Abides (scope.contract K) fun _ => True :=
  Script.abides_perform (EvalOp.select fault .knowledge) trivial fun _ _ => trivial

theorem abides_markFailed (message : Str) :
    (markFailed rt message).Abides (scope.contract K) fun _ => True :=
  Script.abides_bind _ (abides_assignRun fun _ => ⟨rfl, rfl, rfl⟩) fun _ _ => abides_commitEval _

variable (scope rt) in
theorem abides_failEvaluationRun (message : Str) :
    (failEvaluationRun rt scope.runId message).Abides (scope.contract K) fun _ => True := by
  refine Script.abides_bind _ abides_getRun fun found _ => ?_
  cases found with
  | none => exact Script.abides_pure trivial
  | some run => exact abides_markFailed message

variable (scope rt) in
theorem abides_storeRun (configOverrides : JsonDict) :
    (storeRun rt scope.runId scope.userId scope.datasetId configOverrides).Abides (scope.contract K)
      scope.Holds := by
  refine Script.abides_bind scope.Holds ?_ fun run hrun => ?_
  · refine Script.abides_bind _
      (Script.abides_perform (EvalOp.select _ (.dataset scope.datasetId)) rfl fun _ h => h) ?_
    · intro found hfound
      cases found with
      | none => exact Script.abides_throw _
      | some dataset =>
        have hid : dataset.id = scope.datasetId := hfound dataset rfl
        dsimp only
        split
        · exact Script.abides_throw _
        · refine Script.abides_bind (fun count => count = scope.cases.length) ?_ ?_
          · exact Script.abides_perform (EvalOp.select none (.activeCount scope.datasetId)) rfl fun _ h => h
          · rintro _ rfl
            refine Script.abides_bind _ (abides_addRow ⟨rfl, rfl⟩) fun _ _ => ?_
            refine Script.abides_bind (fun _ => True) ?_ fun _ _ => ?_
            · exact Script.abides_perform (EvalOp.track _) ⟨rfl, hid, rfl⟩ fun _ _ => trivial
            · refine Script.abides_bind _ (abides_addRow ⟨rfl, hid, rfl⟩) fun _ _ => ?_
              refine Script.abides_bind _ (abides_flushEval _) fun _ _ => ?_
              exact Script.abides_pure ⟨rfl, hid, rfl⟩
  · exact Script.abides_bind _ (abides_commitEval _) fun _ _ => Script.abides_pure hrun

section Evaluation

variable [Field K] [LinearOrder K]

omit [Field K] [LinearOrder K] in
theorem abides_retrieval (retrieval : Retrieval) :
    (retrieval.program : EvalProgram K _).Abides (scope.contract K) fun _ => True := by
  cases retrieval with
  | raised error => exact Script.abides_throw _
  | returned hits => exact Script.abides_pure trivial
  | queried fault read =>
    exact Script.abides_bind _ (abides_knowledge fault) fun _ _ =>
      Script.abides_attempt fun _ _ => trivial

omit [Field K] [LinearOrder K] in
theorem abides_retrieveCase (retriever : CaseRetriever) (topK : Int) (case : EvalCase) :
    (retrieveCase retriever topK case : EvalProgram K _).Abides (scope.contract K)
      fun _ => True := by
  refine Script.abides_recover ?_ fun _ => Script.abides_pure trivial
  refine Script.abides_bind _ abides_readAttributes fun _ _ => ?_
  exact Script.abides_bind _ (abides_retrieval _) fun _ _ => Script.abides_pure trivial

variable (rt) in
theorem abides_evaluateCases (hstored : scope.stored) (retriever : CaseRetriever) (topK : Int)
    (knownChunkIds : List Str) {cases : List EvalCase} (hcases : ∀ case ∈ cases, case ∈ scope.cases) :
    (evaluateCases rt retriever scope.runId topK knownChunkIds cases).Abides (scope.contract K)
      fun _ => True := by
  induction cases with
  | nil => exact Script.abides_pure trivial
  | cons case cases ih =>
    obtain ⟨hcase, hrest⟩ := List.forall_mem_cons.mp hcases
    refine Script.abides_bind (fun _ => True) ?_ fun _ _ => ?_
    · refine Script.abides_bind _ (abides_retrieveCase _ _ _) fun _ _ => ?_
      refine Script.abides_bind _ abides_readAttributes fun _ _ => ?_
      refine Script.abides_bind _ (abides_addRow ⟨hstored, rfl, case, hcase, rfl⟩) fun _ _ => ?_
      exact Script.abides_pure trivial
    · exact Script.abides_bind _ (ih hrest) fun _ _ => Script.abides_pure trivial

theorem abides_concludeEvaluation (hstored : scope.stored) {run : EvalRun K}
    (hrun : scope.Holds run) :
    (concludeEvaluation rt none run).Abides (scope.contract K) fun _ => True := by
  refine Script.abides_bind (fun _ => True) (Script.abides_attempt fun _ _ => trivial)
    fun topK _ => ?_
  refine Script.abides_bind (fun cases => cases = scope.cases) ?_ fun cases hcases => ?_
  · exact Script.abides_perform (EvalOp.select _ (.activeCases run.datasetId)) hrun.datasetId fun _ h => h
  · refine Script.abides_bind _ (abides_knowledge _) fun knowledge _ => ?_
    have hmem : ∀ case ∈ cases, case ∈ scope.cases := fun case hcase => hcases ▸ hcase
    have hevaluated := abides_evaluateCases rt hstored
      (evaluationRetriever rt run.userId) topK (visibleSearchableChunkIds knowledge run.userId) hmem
    rw [← hrun.id] at hevaluated
    refine Script.abides_bind _ hevaluated fun outcomes _ => ?_
    refine Script.abides_bind (fun _ => True) (Script.abides_attempt fun _ _ => trivial)
      fun summary _ => ?_
    refine Script.abides_bind _ (abides_assignRun fun _ => ⟨rfl, rfl, rfl⟩) fun _ _ => ?_
    exact Script.abides_bind _ (abides_commitEval _) fun _ _ => Script.abides_pure trivial

theorem abides_runEvaluation (hstored : scope.stored) :
    (runEvaluation rt none scope.runId).Abides (scope.contract K) fun _ => True := by
  refine Script.abides_bind scope.Holds ?_ fun run hrun => ?_
  · refine Script.abides_bind _ abides_getRun fun found hfound => ?_
    cases found with
    | none => exact Script.abides_throw _
    | some run => exact Script.abides_pure (hfound run rfl)
  · refine Script.abides_bind (fun _ => True) ?_ fun _ _ =>
      abides_concludeEvaluation hstored hrun
    exact Script.abides_bind _ (abides_assignRun fun _ => ⟨rfl, rfl, rfl⟩) fun _ _ =>
      abides_commitEval _

variable (scope rt) in
theorem abides_evaluateRun (hstored : scope.stored) :
    (evaluateRun rt scope.runId).Abides (scope.contract K) fun _ => True := by
  refine Script.abides_recover (abides_runEvaluation hstored) fun error => ?_
  refine Script.abides_bind _ abides_rollbackEval fun _ _ => ?_
  exact Script.abides_bind _ (abides_failEvaluationRun scope rt _) fun _ _ => Script.abides_throw _

end Evaluation

end Programs

section Serving

variable {K : Type} {scope : RunScope} {db : EvalDatabase K}

namespace RunScope

@[simp] theorem cases_apply (write : EvalWrite K) : (db.apply write).cases = db.cases := by
  cases write <;> rfl

@[simp] theorem knowledge_apply (write : EvalWrite K) :
    (db.apply write).knowledge = db.knowledge := by
  cases write <;> rfl

theorem mem_runs_updateRun {id : Uuid} {changes : RunChanges K} {run : EvalRun K} :
    run ∈ (db.apply (.updateRun id changes)).runs ↔
      ∃ old ∈ db.runs, (if old.id = id then old.patch changes else old) = run := by
  rw [EvalDatabase.apply, Table.mem_def, Table.rows_modify, List.mem_map]
  exact Iff.rfl

theorem Fits.apply (h : scope.Fits db) {write : EvalWrite K} (hwrite : scope.Within write) :
    scope.Fits (db.apply write) := by
  refine ⟨?_, ?_, ?_⟩
  · rw [activeCases, cases_apply]
    exact h.cases
  · intro run hrun hid
    cases write with
    | insertRun created =>
      rcases Table.mem_of_mem_insert hrun with hold | rfl
      · exact h.runs run hold hid
      · exact hwrite
    | updateRun id changes =>
      obtain ⟨old, hold, rfl⟩ := mem_runs_updateRun.mp hrun
      by_cases hmine : old.id = id
      · rw [if_pos hmine] at hid ⊢
        have hholds := h.runs old hold hid
        exact ⟨hid, hholds.datasetId, hholds.userId⟩
      · rw [if_neg hmine] at hid ⊢
        exact h.runs old hold hid
    | insertResult row => exact h.runs run hrun hid
    | setCaseCount datasetId caseCount => exact h.runs run hrun hid
  · intro hstored
    obtain ⟨run, hrun, hid⟩ := h.stored hstored
    cases write with
    | insertRun created => exact ⟨run, Table.subset_insert _ _ hrun, hid⟩
    | updateRun id changes =>
      refine ⟨_, mem_runs_updateRun.mpr ⟨run, hrun, rfl⟩, ?_⟩
      split <;> exact hid
    | insertResult row => exact ⟨run, hrun, hid⟩
    | setCaseCount datasetId caseCount => exact ⟨run, hrun, hid⟩

theorem Fits.applyAll (h : scope.Fits db) {writes : List (EvalWrite K)}
    (hwrites : ∀ write ∈ writes, scope.Within write) : scope.Fits (db.applyAll writes) := by
  induction writes generalizing db with
  | nil => exact h
  | cons write writes ih =>
    obtain ⟨hwrite, hrest⟩ := List.forall_mem_cons.mp hwrites
    exact ih (h.apply hwrite) hrest

structure Serves (scope : RunScope) (db : EvalDatabase K) (w : EvalWorld K) : Prop where
  committed : ∃ writes, (∀ write ∈ writes, scope.Within write) ∧ w.database = db.applyAll writes
  flushed : ∀ write ∈ w.session.flushed, scope.Within write
  pending : ∀ write ∈ w.session.pending, scope.Within write
  tracked : ∀ tracked ∈ w.session.run, scope.Holds tracked.loaded ∧ scope.Holds tracked.current

theorem serves_connect (scope : RunScope) (db : EvalDatabase K) : scope.Serves db db.connect where
  committed := ⟨[], fun _ h => absurd h List.not_mem_nil, rfl⟩
  flushed _ h := absurd h List.not_mem_nil
  pending _ h := absurd h List.not_mem_nil
  tracked _ h := by cases h

variable {w : EvalWorld K}

theorem Serves.viewed (h : scope.Serves db w) :
    ∃ writes, (∀ write ∈ writes, scope.Within write) ∧ w.view = db.applyAll writes := by
  obtain ⟨writes, hwrites, hdatabase⟩ := h.committed
  refine ⟨writes ++ w.session.flushed, ?_, ?_⟩
  · intro write hwrite
    rcases List.mem_append.mp hwrite with hwrite | hwrite
    · exact hwrites write hwrite
    · exact h.flushed write hwrite
  · rw [EvalWorld.view, hdatabase, applyAll_append]

theorem Serves.fits_view (h : scope.Serves db w) (hfits : scope.Fits db) : scope.Fits w.view := by
  obtain ⟨writes, hwrites, hview⟩ := h.viewed
  rw [hview]
  exact hfits.applyAll hwrites

theorem Serves.refuse (h : scope.Serves db w) : scope.Serves db w.refuse where
  committed := h.committed
  flushed _ h := absurd h List.not_mem_nil
  pending _ h := absurd h List.not_mem_nil
  tracked _ h := by cases h

theorem Serves.settled (h : scope.Serves db w) {database : EvalDatabase K}
    (hcommitted : ∃ writes, (∀ write ∈ writes, scope.Within write) ∧ database = db.applyAll writes) :
    scope.Serves db { database, session := w.session.settled } where
  committed := hcommitted
  flushed _ h := absurd h List.not_mem_nil
  pending _ h := absurd h List.not_mem_nil
  tracked tracked htracked := by
    obtain ⟨old, hold, rfl⟩ := Option.map_eq_some_iff.mp htracked
    exact ⟨(h.tracked old hold).2, (h.tracked old hold).2⟩

variable [DecidableEq K]

theorem Serves.unsent (h : scope.Serves db w) : ∀ write ∈ w.session.unsent, scope.Within write := by
  intro write hwrite
  rcases List.mem_append.mp hwrite with hwrite | hwrite
  · cases hrun : w.session.run with
    | none =>
      rw [hrun] at hwrite
      exact absurd hwrite List.not_mem_nil
    | some tracked =>
      rw [hrun] at hwrite
      change write ∈ tracked.update at hwrite
      unfold Tracked.update at hwrite
      dsimp only at hwrite
      split at hwrite
      · exact absurd hwrite List.not_mem_nil
      · cases List.mem_singleton.mp hwrite
        exact (h.tracked tracked hrun).2.id
  · exact h.pending write hwrite

theorem Serves.send (h : scope.Serves db w) : scope.Serves db w.send where
  committed := h.committed
  flushed write hwrite := by
    rcases List.mem_append.mp hwrite with hwrite | hwrite
    · exact h.flushed write hwrite
    · exact h.unsent write hwrite
  pending _ h := absurd h List.not_mem_nil
  tracked tracked htracked := by
    obtain ⟨old, hold, rfl⟩ := Option.map_eq_some_iff.mp htracked
    exact ⟨(h.tracked old hold).2, (h.tracked old hold).2⟩

theorem Serves.flushUnsent (h : scope.Serves db w) (fault : Option PyException) :
    scope.Serves db (flushUnsent fault w).2 := by
  unfold YCStudio.flushUnsent
  split
  · exact h
  · cases w.session.health with
    | inactive => exact h
    | aborted => exact h.refuse
    | active =>
      cases fault with
      | some e => exact h.refuse
      | none =>
        dsimp only
        split
        · exact h.send
        · exact h.refuse

omit [DecidableEq K] in
theorem Serves.selectRows (h : scope.Serves db w) (fault : Option PyException) (query : EvalQuery) :
    scope.Serves db (selectRows fault query w).2 := by
  unfold YCStudio.selectRows
  cases w.session.health.usable with
  | error e => exact h
  | ok _ =>
    cases fault with
    | none => exact h
    | some e => exact ⟨h.committed, h.flushed, h.pending, h.tracked⟩

theorem Serves.commitEval (h : scope.Serves db w) (fault : Option PyException) :
    scope.Serves db (serveEval (.commit fault) w).2 := by
  have hflush := h.flushUnsent fault
  rcases hresult : YCStudio.flushUnsent fault w with ⟨e | _, sent⟩
  · simp only [serveEval, hresult] at hflush ⊢
    exact hflush
  · simp only [serveEval, hresult] at hflush ⊢
    cases sent.session.health with
    | inactive => exact hflush
    | aborted => exact hflush.settled hflush.committed
    | active =>
      cases fault with
      | none => exact hflush.settled hflush.viewed
      | some e => exact hflush.refuse

omit [DecidableEq K] in
theorem Fits.replies_answer (hfits : scope.Fits db) {fault : Option PyException} {query : EvalQuery}
    (hasks : scope.asks (.select fault query : EvalOp K)) :
    scope.replies (.select fault query : EvalOp K) (query.answer db) := by
  cases query with
  | dataset id =>
    intro dataset hdataset
    exact (Table.get?_eq_some_iff.mp hdataset).2.trans hasks
  | activeCount id =>
    obtain rfl : id = scope.datasetId := hasks
    exact congrArg List.length hfits.cases
  | activeCases id =>
    obtain rfl : id = scope.datasetId := hasks
    exact hfits.cases
  | knowledge => trivial

theorem Serves.serve (hfits : scope.Fits db) (op : EvalOp K) (hasks : scope.asks op)
    (h : scope.Serves db w) :
    scope.Serves db (serveEval op w).2 ∧
      ∀ reply, (serveEval op w).1 = .ok reply → scope.replies op reply := by
  cases op with
  | getRun fault id =>
    simp only [serveEval]
    cases htracked : w.session.run with
    | some tracked =>
      refine ⟨h, ?_⟩
      rintro _ ⟨⟩ run ⟨⟩
      exact (h.tracked tracked htracked).2
    | none =>
      cases w.session.health.usable with
      | error e => exact ⟨h, fun _ hreply => by cases hreply⟩
      | ok _ =>
        cases fault with
        | some e =>
          refine ⟨⟨h.committed, h.flushed, h.pending, ?_⟩, fun _ hreply => by cases hreply⟩
          exact h.tracked
        | none =>
          dsimp only
          cases hget : w.view.runs.get? id with
          | none =>
            refine ⟨h, ?_⟩
            rintro _ ⟨⟩ run ⟨⟩
          | some run =>
            obtain ⟨hrun, hid⟩ := Table.get?_eq_some_iff.mp hget
            have hholds := (h.fits_view hfits).runs run hrun (hid.trans hasks)
            refine ⟨⟨h.committed, h.flushed, h.pending, ?_⟩, ?_⟩
            · rintro tracked ⟨⟩
              exact ⟨hholds, hholds⟩
            · rintro _ ⟨⟩ _ ⟨⟩
              exact hholds
  | assign f =>
    refine ⟨⟨h.committed, h.flushed, h.pending, fun tracked htracked => ?_⟩, fun _ _ => trivial⟩
    obtain ⟨old, hold, rfl⟩ := Option.map_eq_some_iff.mp htracked
    exact ⟨(h.tracked old hold).1, (h.tracked old hold).2.assign scope hasks⟩
  | add write =>
    refine ⟨⟨h.committed, h.flushed, fun other hother => ?_, h.tracked⟩, fun _ _ => trivial⟩
    rcases List.mem_append.mp hother with hold | hnew
    · exact h.pending other hold
    · exact List.mem_singleton.mp hnew ▸ hasks
  | track run =>
    refine ⟨⟨h.committed, h.flushed, h.pending, ?_⟩, fun _ _ => trivial⟩
    rintro tracked ⟨⟩
    exact ⟨hasks, hasks⟩
  | readAttributes =>
    refine ⟨?_, fun _ _ => trivial⟩
    simp only [serveEval]
    cases w.session.health <;> exact h
  | select fault query =>
    have hflush := h.flushUnsent none
    rcases hresult : YCStudio.flushUnsent none w with ⟨e | _, sent⟩
    · simp only [serveEval, hresult] at hflush ⊢
      exact ⟨hflush, fun _ hreply => by cases hreply⟩
    · simp only [serveEval, hresult] at hflush ⊢
      refine ⟨hflush.selectRows fault query, fun reply hreply => ?_⟩
      unfold YCStudio.selectRows at hreply
      split at hreply
      · cases hreply
      · cases hreply
      · cases hreply
        exact (hflush.fits_view hfits).replies_answer hasks
  | flush fault => exact ⟨h.flushUnsent fault, fun _ _ => trivial⟩
  | commit fault => exact ⟨h.commitEval fault, fun _ _ => trivial⟩
  | rollback =>
    refine ⟨⟨h.committed, ?_, ?_, ?_⟩, fun _ _ => trivial⟩
    · exact fun _ h => absurd h List.not_mem_nil
    · exact fun _ h => absurd h List.not_mem_nil
    · intro _ h
      cases h

theorem Serves.run {α : Type} (hfits : scope.Fits db) {program : EvalProgram K α}
    {returns : α → Prop} (hprogram : program.Abides (scope.contract K) returns)
    (h : scope.Serves db w) :
    scope.Serves db (execEval program w).2 ∧
      ∀ a, (execEval program w).1 = .ok a → returns a :=
  hprogram.invariant (fun op _ hasks hserves => hserves.serve hfits op hasks) h

end RunScope

end Serving

end YCStudio
