import YCStudio.Evaluation.RunService

namespace YCStudio

open EvalDatabase

section Flush

variable {K : Type} [DecidableEq K] {w w' : EvalWorld K} {fault : Option PyException}

theorem flushUnsent_nil (h : w.session.unsent = []) : flushUnsent fault w = (.ok (), w) := by
  unfold flushUnsent
  exact if_pos (List.isEmpty_iff.mpr h)

theorem flushUnsent_sent (hactive : w.session.health = .active)
    (haccepts : w.view.AcceptsAll w.session.unsent) (h : w.session.unsent ≠ []) :
    flushUnsent none w = (.ok (), w.send) := by
  simp only [flushUnsent, List.isEmpty_iff, if_neg h, hactive, if_pos haccepts]

theorem flushUnsent_refused (fault : Option PyException) (h : w.session.unsent ≠ [])
    (hactive : w.session.health = .active → ¬ w.view.AcceptsAll w.session.unsent) :
    ∃ e w', flushUnsent fault w = (.error e, w') ∧ w'.session.health = .inactive := by
  simp only [flushUnsent, List.isEmpty_iff, if_neg h]
  cases hhealth : w.session.health with
  | inactive => exact ⟨_, w, rfl, hhealth⟩
  | aborted => exact ⟨_, _, rfl, rfl⟩
  | active =>
    cases fault with
    | some e => exact ⟨e, _, rfl, rfl⟩
    | none =>
      simp only [if_neg (hactive hhealth)]
      exact ⟨_, _, rfl, rfl⟩

theorem flushUnsent_ok (h : flushUnsent fault w = (.ok (), w')) :
    (w.session.unsent = [] ∧ w' = w) ∨
      (w.session.health = .active ∧ fault = none ∧ w.view.AcceptsAll w.session.unsent ∧
        w' = w.send) := by
  by_cases hempty : w.session.unsent = []
  · rw [flushUnsent_nil hempty] at h
    cases h
    exact Or.inl ⟨hempty, rfl⟩
  · simp only [flushUnsent, List.isEmpty_iff, if_neg hempty] at h
    split at h
    · cases h
    · cases h
    · cases h
    · split at h
      · cases h
        exact Or.inr ⟨‹_›, rfl, ‹_›, rfl⟩
      · cases h

theorem database_flushUnsent (fault : Option PyException) (w : EvalWorld K) :
    (flushUnsent fault w).2.database = w.database := by
  unfold flushUnsent
  split
  · rfl
  · cases w.session.health with
    | inactive => rfl
    | aborted => rfl
    | active =>
      cases fault with
      | some e => rfl
      | none =>
        by_cases haccepts : w.view.AcceptsAll w.session.unsent
        · simp only [if_pos haccepts]
          rfl
        · simp only [if_neg haccepts]
          rfl

omit [DecidableEq K] in
theorem database_selectRows (fault : Option PyException) (query : EvalQuery) (w : EvalWorld K) :
    (selectRows fault query w).2.database = w.database := by
  unfold selectRows
  cases w.session.health.usable with
  | error e => rfl
  | ok _ => cases fault <;> rfl

def EvalOp.isCommit : EvalOp K → Bool
  | commit _ => true
  | _ => false

theorem database_serveEval (op : EvalOp K) (w : EvalWorld K) (h : op.isCommit = false) :
    (serveEval op w).2.database = w.database := by
  cases op with
  | getRun fault id =>
    simp only [serveEval]
    cases w.session.run with
    | some tracked => rfl
    | none =>
      cases w.session.health.usable with
      | error e => rfl
      | ok _ =>
        cases fault with
        | some e => rfl
        | none => cases w.view.runs.get? id <;> rfl
  | assign f => rfl
  | add write => rfl
  | track run => rfl
  | readAttributes =>
    simp only [serveEval]
    cases w.session.health <;> rfl
  | select fault query =>
    have hflush := database_flushUnsent none w
    rcases hresult : flushUnsent none w with ⟨e | _, w'⟩
    · simp only [serveEval, hresult] at hflush ⊢
      exact hflush
    · simp only [serveEval, hresult] at hflush ⊢
      exact (database_selectRows fault query w').trans hflush
  | flush fault => exact database_flushUnsent fault w
  | commit fault => cases h
  | rollback => rfl

theorem database_unchanged {α : Type} {program : EvalProgram K α}
    (h : program.Asks (EvalOp.isCommit · = false)) (w : EvalWorld K) :
    (execEval program w).2.database = w.database := by
  have hinvariant := h.invariant (fun op s hop (hs : s.database = w.database) =>
    (database_serveEval op s hop).trans hs) (rfl : w.database = w.database)
  exact hinvariant

theorem selectEval_unsent {query : EvalQuery} {e : PyException}
    (h : flushUnsent none w = (.error e, w')) :
    execEval (selectEval fault query) w = (.error e, w') := by
  change serveEval (EvalOp.select fault query) w = _
  simp only [serveEval, h]
  rfl

theorem selectEval_sent {query : EvalQuery} (h : flushUnsent none w = (.ok (), w'))
    (hactive : w'.session.health = .active) :
    execEval (selectEval none query) w = (.ok (query.answer w'.view), w') := by
  change serveEval (EvalOp.select none query) w = _
  simp only [serveEval, h, selectRows, hactive, Health.usable]
  rfl

theorem selectEval_aborts {query : EvalQuery} (h : flushUnsent none w = (.ok (), w'))
    (hactive : w'.session.health = .active) (e : PyException) :
    execEval (selectEval (some e) query) w = (.error e, w'.abort) := by
  change serveEval (EvalOp.select (some e) query) w = _
  simp only [serveEval, h, selectRows, hactive, Health.usable]
  rfl

theorem readAttributes_inactive (h : w.session.health = .inactive) :
    execEval readAttributes w = (.error inactiveTransaction, w) := by
  change serveEval EvalOp.readAttributes w = _
  simp only [serveEval, h]
  rfl

theorem readAttributes_usable (h : w.session.health ≠ .inactive) :
    execEval readAttributes w = (.ok (), w) := by
  change serveEval EvalOp.readAttributes w = _
  simp only [serveEval]
  cases hhealth : w.session.health with
  | inactive => exact absurd hhealth h
  | active => rfl
  | aborted => rfl

theorem results_update (db : EvalDatabase K) (tracked : Tracked K) :
    (db.applyAll tracked.update).results = db.results := by
  unfold Tracked.update
  dsimp only
  split <;> rfl

@[simp] theorem update_tracked (run : EvalRun K) : (Tracked.mk run run).update = [] := by
  unfold Tracked.update
  simp

theorem commitEval_refused (h : w.session.unsent ≠ [])
    (hactive : w.session.health = .active → ¬ w.view.AcceptsAll w.session.unsent) :
    ∃ e w', execEval (commitEval fault) w = (.error e, w') := by
  obtain ⟨e, w', hflush, _⟩ := flushUnsent_refused fault h hactive
  refine ⟨e, w', ?_⟩
  change serveEval (EvalOp.commit fault) w = _
  simp only [serveEval, hflush]
  rfl

theorem commitEval_sent (hactive : w.session.health = .active)
    (haccepts : w.view.AcceptsAll w.session.unsent) :
    execEval (commitEval none) w =
      (.ok (), { database := w.view.applyAll w.session.unsent, session := w.session.settled }) := by
  change serveEval (EvalOp.commit none) w = _
  by_cases hempty : w.session.unsent = []
  · rw [hempty]
    simp only [serveEval, flushUnsent_nil hempty, hactive]
    rfl
  · have hsent : w.send.session.health = .active := hactive
    have hview : w.send.view = w.view.applyAll w.session.unsent := applyAll_append _ _ _
    have hsettled : w.send.session.settled = w.session.settled := by
      simp only [EvalWorld.send, EvalSession.settled, Option.map_map]
      rfl
    simp only [serveEval, flushUnsent_sent hactive haccepts hempty, hsent, EvalWorld.commit, hview,
      hsettled]
    rfl

theorem commitEval_faulty (hactive : w.session.health = .active) (e : PyException) :
    ∃ e' w', execEval (commitEval (some e)) w = (.error e', w') := by
  rcases hflush : flushUnsent (some e) w with ⟨e' | _, w'⟩
  · refine ⟨e', w', ?_⟩
    change serveEval (EvalOp.commit _) w = _
    simp only [serveEval, hflush]
    rfl
  · rcases flushUnsent_ok hflush with ⟨_, rfl⟩ | ⟨_, hfault, _⟩
    · refine ⟨e, w'.refuse, ?_⟩
      change serveEval (EvalOp.commit _) w' = _
      simp only [serveEval, hflush, hactive]
      rfl
    · cases hfault

theorem commitEval_ok (hactive : w.session.health = .active)
    (h : execEval (commitEval fault) w = (.ok (), w')) :
    fault = none ∧ w.view.AcceptsAll w.session.unsent ∧
      w' = { database := w.view.applyAll w.session.unsent, session := w.session.settled } := by
  cases fault with
  | some e =>
    obtain ⟨_, _, herror⟩ := commitEval_faulty hactive e
    cases herror.symm.trans h
  | none =>
    by_cases haccepts : w.view.AcceptsAll w.session.unsent
    · rw [commitEval_sent hactive haccepts] at h
      cases h
      exact ⟨rfl, haccepts, rfl⟩
    · have hempty : w.session.unsent ≠ [] := by
        intro hempty
        rw [hempty] at haccepts
        exact haccepts trivial
      obtain ⟨e, w'', herror⟩ := commitEval_refused hempty fun _ => haccepts
      cases herror.symm.trans h

theorem database_commitEval {e : PyException}
    (h : execEval (commitEval fault) w = (.error e, w')) : w'.database = w.database := by
  change serveEval (EvalOp.commit fault) w = _ at h
  have hflush := database_flushUnsent fault w
  rcases hresult : flushUnsent fault w with ⟨e' | _, sent⟩
  · simp only [serveEval, hresult] at h hflush
    cases h
    exact hflush
  · simp only [serveEval, hresult] at h hflush
    split at h
    · cases h
    · cases h
      exact hflush
    · cases h
    · cases h
      exact hflush

def FailsClean {α : Type} (program : EvalProgram K α) : Prop :=
  ∀ w e w', execEval program w = (.error e, w') → w'.database = w.database

namespace FailsClean

variable {α β : Type} {program : EvalProgram K α} {next : α → EvalProgram K β}

theorem bind (h : program.Asks (EvalOp.isCommit · = false)) (hnext : ∀ a, FailsClean (next a)) :
    FailsClean (program >>= next) := by
  intro w e w' hran
  have hsame := database_unchanged h w
  rcases Script.bind_ran_error hran with hfirst | ⟨a, w₁, hfirst, hrest⟩
  · exact (congrArg (·.2.database) hfirst).symm.trans hsame
  · exact (hnext a w₁ e w' hrest).trans ((congrArg (·.2.database) hfirst).symm.trans hsame)

theorem commit (fault : Option PyException) : FailsClean (commitEval fault : EvalProgram K Unit) :=
  fun _ _ _ hran => database_commitEval hran

theorem andReturn (h : FailsClean program) (f : α → β) :
    FailsClean (do return f (← program)) := by
  intro w e w' hran
  rcases Script.bind_ran_error hran with hfirst | ⟨_, _, _, hrest⟩
  · exact h w e w' hfirst
  · cases hrest

end FailsClean

omit [DecidableEq K] in
theorem asks_findRun (rt : EvalRuntime K) (runId : Uuid) :
    (findRun rt runId).Asks (EvalOp.isCommit · = false) := by
  refine Script.asks_bind (Script.asks_perform rfl) fun found => ?_
  cases found with
  | none => exact Script.asks_throw _
  | some run => exact Script.asks_pure run

theorem markRunning_failsClean (rt : EvalRuntime K) : FailsClean (markRunning rt) :=
  .bind (Script.asks_perform rfl) fun _ => .commit _

theorem markFailed_failsClean (rt : EvalRuntime K) (message : Str) :
    FailsClean (markFailed rt message) :=
  .bind (Script.asks_perform rfl) fun _ => .commit _

end Flush

end YCStudio
