import YCStudio.Evaluation.RunDeliveries
import YCStudio.Library.History

namespace YCStudio

open EvalDatabase

section Runs

variable {K : Type}

def EvalRun.Ended (run : EvalRun K) : Prop := run.status = .completed ∨ run.status = .failed

instance (run : EvalRun K) : Decidable run.Ended := inferInstanceAs (Decidable (_ ∨ _))

structure EvalRun.Open (run : EvalRun K) : Prop where
  live : ¬ run.Ended
  errorMessage : run.errorMessage = none
  summaryMetrics : run.summaryMetrics = none

namespace EvalDatabase

def Consistent (db : EvalDatabase K) : Prop :=
  ∀ run ∈ db.runs, run.status = .completed → run.errorMessage = none ∧
    ∃ summary, run.summaryMetrics = some summary ∧
      (db.resultsOf run.id).length = summary.caseCount

structure Historic (db : EvalDatabase K) : Prop where
  opened : ∀ run ∈ db.runs, ¬ run.Ended → run.Open
  recorded : ∀ row ∈ db.results, ∃ run ∈ db.runs, run.id = row.runId ∧ run.status = .completed
  consistent : db.Consistent

structure Evolves (db db' : EvalDatabase K) : Prop where
  kept : ∀ run ∈ db.runs, run.Ended →
    run ∈ db'.runs ∧ db'.resultsOf run.id = db.resultsOf run.id
  found : ∀ run ∈ db.runs, ∃ run' ∈ db'.runs, run'.id = run.id

def KeepsEnded (db db' : EvalDatabase K) : Prop :=
  ∀ run ∈ db.runs, run.Ended → ∃ run' ∈ db'.runs, run'.id = run.id ∧ run'.status = run.status ∧
    run'.summaryMetrics = run.summaryMetrics ∧ run'.errorMessage = run.errorMessage ∧
      db'.resultsOf run.id = db.resultsOf run.id

theorem Evolves.refl (db : EvalDatabase K) : db.Evolves db where
  kept _ hrun _ := ⟨hrun, rfl⟩
  found run hrun := ⟨run, hrun, rfl⟩

theorem Evolves.trans {db db' db'' : EvalDatabase K} (h : db.Evolves db') (h' : db'.Evolves db'') :
    db.Evolves db'' where
  kept run hrun hended := by
    obtain ⟨hrun', hresults⟩ := h.kept run hrun hended
    obtain ⟨hrun'', hresults'⟩ := h'.kept run hrun' hended
    exact ⟨hrun'', hresults'.trans hresults⟩
  found run hrun := by
    obtain ⟨run', hrun', hid⟩ := h.found run hrun
    obtain ⟨run'', hrun'', hid'⟩ := h'.found run' hrun'
    exact ⟨run'', hrun'', hid'.trans hid⟩

theorem Evolves.live {db db' : EvalDatabase K} (h : db.Evolves db') {run run' : EvalRun K}
    (hrun : run ∈ db.runs) (hrun' : run' ∈ db'.runs) (hid : run'.id = run.id)
    (hlive : ¬ run'.Ended) : ¬ run.Ended := by
  intro hended
  have hkept := (h.kept run hrun hended).1
  rw [Table.eq_of_key_eq hrun' hkept hid] at hlive
  exact hlive hended

theorem Historic.resultsOf_live {db : EvalDatabase K} (h : db.Historic) {run : EvalRun K}
    (hrun : run ∈ db.runs) (hlive : ¬ run.Ended) : db.resultsOf run.id = [] := by
  rw [resultsOf, List.filter_eq_nil_iff]
  intro row hrow hid
  obtain ⟨other, hother, hkey, hcompleted⟩ := h.recorded row hrow
  have hsame : other = run := Table.eq_of_key_eq hother hrun (hkey.trans (of_decide_eq_true hid))
  exact hlive (Or.inl (hsame ▸ hcompleted))

end EvalDatabase

section Commit

variable [DecidableEq K] {db db' : EvalDatabase K} {run held held' : EvalRun K}
  {rows : List (EvalResult K)}

theorem rows_update (db : EvalDatabase K) (held held' : EvalRun K) :
    (db.applyAll (Tracked.mk held held').update).runs.rows =
      db.runs.rows.map fun run =>
        if run.id = held'.id then run.patch (held.changes held') else run := by
  unfold Tracked.update
  dsimp only
  split
  case isTrue hnone =>
    rw [hnone]
    simp
  case isFalse => rfl

theorem EvalDatabase.Commits.mem_runs (h : db.Commits ⟨held, held'⟩ rows db') {x : EvalRun K} :
    x ∈ db'.runs ↔ ∃ old ∈ db.runs,
      (if old.id = held'.id then old.patch (held.changes held') else old) = x := by
  rw [Table.mem_def, h.runs, rows_update, List.mem_map]
  exact Iff.rfl

structure EvalRun.Proceeds (run : EvalRun K) (rows : List (EvalResult K)) : Prop where
  opened : ¬ run.Ended → run.Open
  completed : run.status = .completed → run.errorMessage = none ∧
    ∃ summary, run.summaryMetrics = some summary ∧ rows.length = summary.caseCount
  recorded : rows ≠ [] → run.status = .completed

theorem EvalDatabase.Historic.commit (h : db.Historic) (hrun : run ∈ db.runs)
    (hlive : ¬ run.Ended) (hcommits : db.Commits ⟨held, held'⟩ rows db')
    (hid : held'.id = run.id) (hresults : db'.results.rows = db.results.rows ++ rows)
    (hrows : ∀ row ∈ rows, row.runId = run.id)
    (hproceeds : (run.patch (held.changes held')).Proceeds rows) :
    db'.Historic ∧ db.Evolves db' := by
  have hpatched : run.patch (held.changes held') ∈ db'.runs :=
    hcommits.mem_runs.mpr ⟨run, hrun, if_pos hid.symm⟩
  have hother : ∀ other ∈ db.runs, other.id ≠ run.id → other ∈ db'.runs := by
    intro other hother hne
    exact hcommits.mem_runs.mpr ⟨other, hother, if_neg (hid ▸ hne)⟩
  have hcases : ∀ x ∈ db'.runs,
      x = run.patch (held.changes held') ∨ (x ∈ db.runs ∧ x.id ≠ run.id) := by
    intro x hx
    obtain ⟨old, hold, rfl⟩ := hcommits.mem_runs.mp hx
    rw [hid]
    split
    case isTrue hkey => exact Or.inl (by rw [Table.eq_of_key_eq hold hrun hkey])
    case isFalse hkey => exact Or.inr ⟨hold, hkey⟩
  have hnew : ∀ id, db'.resultsOf id = db.resultsOf id ++ rows.filter (·.runId = id) := by
    intro id
    rw [resultsOf, hresults, List.filter_append, resultsOf]
  have hmine : db'.resultsOf run.id = rows := by
    rw [hnew, h.resultsOf_live hrun hlive, List.nil_append]
    exact List.filter_eq_self.mpr fun row hrow => decide_eq_true (hrows row hrow)
  have hothers : ∀ id, id ≠ run.id → db'.resultsOf id = db.resultsOf id := by
    intro id hne
    rw [hnew, List.filter_eq_nil_iff.mpr, List.append_nil]
    intro row hrow hkey
    exact hne ((of_decide_eq_true hkey).symm.trans (hrows row hrow))
  refine ⟨⟨?_, ?_, ?_⟩, ?_, ?_⟩
  · intro x hx hopen
    rcases hcases x hx with rfl | ⟨hx, _⟩
    · exact hproceeds.opened hopen
    · exact h.opened x hx hopen
  · intro row hrow
    rw [Table.mem_def, hresults, List.mem_append] at hrow
    rcases hrow with hrow | hrow
    · obtain ⟨other, hmem, hkey, hcompleted⟩ := h.recorded row hrow
      refine ⟨other, hother other hmem fun hsame => hlive ?_, hkey, hcompleted⟩
      exact Or.inl (Table.eq_of_key_eq hmem hrun hsame ▸ hcompleted)
    · exact ⟨_, hpatched, (hrows row hrow).symm, hproceeds.recorded (List.ne_nil_of_mem hrow)⟩
  · intro x hx hcompleted
    rcases hcases x hx with rfl | ⟨hx, hne⟩
    · rw [EvalRun.id_patch, hmine]
      exact hproceeds.completed hcompleted
    · rw [hothers x.id hne]
      exact h.consistent x hx hcompleted
  · intro x hx hended
    have hne : x.id ≠ run.id := fun hkey => hlive (Table.eq_of_key_eq hx hrun hkey ▸ hended)
    exact ⟨hother x hx hne, hothers x.id hne⟩
  · intro x hx
    by_cases hkey : x.id = run.id
    · exact ⟨_, hpatched, (EvalRun.id_patch _ _).trans hkey.symm⟩
    · exact ⟨x, hother x hx hkey, rfl⟩

end Commit

section Programs

variable [Field K] [LinearOrder K] {rt : EvalRuntime K} {db : EvalDatabase K}
  {run held : EvalRun K} {w : EvalWorld K}

def EvalRun.failedWith (rt : EvalRuntime K) (message : Str) (run : EvalRun K) : EvalRun K :=
  { run with
    status := .failed
    finishedAt := some (rt.now .markFailed)
    errorMessage := some message }

omit [Field K] in
theorem commitEval_during {fault : Option PyException} {f : EvalRun K → EvalRun K}
    (h : execEval (commitEval fault) ((EvalWorld.during db held [] []).assign f) = (.ok (), w)) :
    ∃ db', db.Commits ⟨held, f held⟩ [] db' ∧ w = EvalWorld.during db' (f held) [] [] := by
  obtain ⟨_, _, rfl⟩ := commitEval_ok rfl h
  refine ⟨_, commits_during db held (f held) [] [], ?_⟩
  have hunsent : ((EvalWorld.during db held [] []).assign f).session.unsent =
      (Tracked.mk held (f held)).update ++ [] := rfl
  rw [hunsent, applyAll_append]
  rfl

omit [Field K] in
theorem markRunning_cases (rt : EvalRuntime K) (db : EvalDatabase K) (held : EvalRun K) :
    (∃ db', db.Commits ⟨held, held.started rt⟩ [] db' ∧
      execEval (markRunning rt) (EvalWorld.during db held [] []) =
        (.ok (), EvalWorld.during db' (held.started rt) [] [])) ∨
    ∃ e w, execEval (markRunning rt) (EvalWorld.during db held [] []) = (.error e, w) ∧
      w.database = db := by
  rcases hran : execEval (markRunning rt) (EvalWorld.during db held [] []) with ⟨e | _, w⟩
  · exact Or.inr ⟨e, w, rfl, markRunning_failsClean rt _ _ _ hran⟩
  · obtain ⟨_, _, hassign, hcommit⟩ := Script.bind_ran_ok hran
    cases hassign
    obtain ⟨db', hcommits, rfl⟩ := commitEval_during hcommit
    exact Or.inl ⟨db', hcommits, rfl⟩

omit [Field K] in
theorem markFailed_cases (rt : EvalRuntime K) (message : Str) (db : EvalDatabase K)
    (held : EvalRun K) :
    db.Commits ⟨held, held.failedWith rt message⟩ []
      (execEval (markFailed rt message) (EvalWorld.during db held [] [])).2.database ∨
    (execEval (markFailed rt message) (EvalWorld.during db held [] [])).2.database = db := by
  rcases hran : execEval (markFailed rt message) (EvalWorld.during db held [] []) with ⟨e | _, w⟩
  · exact Or.inr (markFailed_failsClean rt message _ _ _ hran)
  · obtain ⟨_, _, hassign, hcommit⟩ := Script.bind_ran_ok hran
    cases hassign
    obtain ⟨db', hcommits, rfl⟩ := commitEval_during hcommit
    exact Or.inl hcommits

omit [Field K] in
theorem failEvaluationRun_during (rt : EvalRuntime K) (runId : Uuid) (message : Str)
    (db : EvalDatabase K) (held : EvalRun K) :
    execEval (failEvaluationRun rt runId message) (EvalWorld.during db held [] []) =
      execEval (markFailed rt message) (EvalWorld.during db held [] []) := by
  have hget : execEval (getRun (rt.fault .getFailedRun) runId) (EvalWorld.during db held [] []) =
      (.ok (some held), EvalWorld.during db held [] []) := rfl
  exact Script.run_bind_of_ok hget

omit [Field K] in
theorem reloadRun_cases (rt : EvalRuntime K) (hrun : run ∈ db.runs) (session : EvalSession K) :
    execEval (Party.reloadRun rt run.id) { database := db, session } =
        (.ok (some run), EvalWorld.during db run [] []) ∨
      ∃ e w, execEval (Party.reloadRun rt run.id) { database := db, session } = (.error e, w) ∧
        w.database = db := by
  have hreload : execEval (Party.reloadRun rt run.id) { database := db, session } =
      serveEval (EvalOp.getRun (rt.fault .getFailedRun) run.id) db.connect := rfl
  rw [hreload]
  cases rt.fault .getFailedRun with
  | some e => exact Or.inr ⟨e, _, rfl, rfl⟩
  | none =>
    have hfound : db.connect.view.runs.get? run.id = some run := Table.get?_key hrun
    simp only [serveEval, connect, EvalSession.start, Health.usable] at hfound ⊢
    rw [hfound]
    exact Or.inl rfl

theorem concludeEvaluation_cases (rt : EvalRuntime K) (db : EvalDatabase K) (run : EvalRun K) :
    (∃ summary rows db' w, db.Commits ⟨run.started rt, (run.started rt).finished rt summary⟩ rows db' ∧
      db'.results.rows = db.results.rows ++ rows ∧ (∀ row ∈ rows, row.runId = run.id) ∧
      rows.length = summary.caseCount ∧
      execEval (concludeEvaluation rt none run) (EvalWorld.during db (run.started rt) [] []) =
        (.ok summary, w) ∧ w.database = db') ∨
    ∃ e w, execEval (concludeEvaluation rt none run) (EvalWorld.during db (run.started rt) [] []) =
      (.error e, w) ∧ w.database = db := by
  rcases hran : execEval (concludeEvaluation rt none run)
      (EvalWorld.during db (run.started rt) [] []) with ⟨e | summary, w⟩
  · exact Or.inr ⟨e, w, rfl, concludeEvaluation_failsClean none run _ _ _ hran⟩
  · have hconcludable := concludable_of_ok hran
    obtain ⟨topK, summary', db', htopK, hcount, hcommits, hexec⟩ :=
      concludeEvaluation_ok hconcludable
    cases hexec.symm.trans hran
    refine Or.inl ⟨summary, run.rowsAt rt none db topK, db', _, hcommits, ?_, ?_, ?_, rfl, rfl⟩
    · rw [hcommits.results]
      exact (hconcludable.storable htopK).rows_insertAll
    · intro row hrow
      obtain ⟨case, _, rfl⟩ := List.mem_map.mp hrow
      rfl
    · rw [hcount, EvalRun.rowsAt, List.length_map]

end Programs

section Patches

variable [Field K] [LinearOrder K] {rt : EvalRuntime K} {run held : EvalRun K}

omit [Field K] in
theorem started_proceeds (hrun : run.Open) :
    (run.patch (held.changes (held.started rt))).Proceeds [] := by
  have hopen : (run.patch (held.changes (held.started rt))).Open := by
    refine ⟨?_, ?_, ?_⟩
    · have hstatus : (run.patch (held.changes (held.started rt))).status =
          (changed held.status .running).getD run.status := rfl
      rw [EvalRun.Ended, hstatus, changed]
      split
      · exact hrun.live
      · rintro (h | h) <;> cases h
    · simp [EvalRun.patch, EvalRun.changes, EvalRun.started, hrun.errorMessage]
    · simp [EvalRun.patch, EvalRun.changes, EvalRun.started, hrun.summaryMetrics]
  exact ⟨fun _ => hopen, fun h => absurd (Or.inl h) hopen.live, fun h => absurd rfl h⟩

omit [Field K] in
theorem failed_proceeds (message : Str) (hheld : held.Open) :
    (run.patch (held.changes (held.failedWith rt message))).Proceeds [] := by
  have hne : EvalRunStatus.failed ≠ held.status := fun h => hheld.live (Or.inr h.symm)
  have hstatus : (run.patch (held.changes (held.failedWith rt message))).status = .failed := by
    simp [EvalRun.patch, EvalRun.changes, EvalRun.failedWith, changed, hne]
  refine ⟨fun h => absurd (Or.inr hstatus) h, fun h => ?_, fun h => absurd rfl h⟩
  cases hstatus.symm.trans h

omit [Field K] in
theorem finished_proceeds {summary : RunSummary K} {rows : List (EvalResult K)} (hrun : run.Open)
    (hheld : held.Open) (hrows : rows.length = summary.caseCount) :
    (run.patch ((held.started rt).changes ((held.started rt).finished rt summary))).Proceeds
      rows := by
  have hstatus : (run.patch ((held.started rt).changes
      ((held.started rt).finished rt summary))).status = .completed := by
    simp [EvalRun.patch, EvalRun.changes, EvalRun.started, EvalRun.finished, changed]
  refine ⟨fun h => absurd (Or.inl hstatus) h, fun _ => ⟨?_, summary, ?_, hrows⟩, fun _ => hstatus⟩
  · simp [EvalRun.patch, EvalRun.changes, EvalRun.started, EvalRun.finished, hrun.errorMessage]
  · simp [EvalRun.patch, EvalRun.changes, EvalRun.started, EvalRun.finished, changed,
      hheld.summaryMetrics]

end Patches

section Parties

variable [Field K] [LinearOrder K]

def EvalSession.holding (run : EvalRun K) : EvalSession K where
  run := some ⟨run, run⟩
  pending := []
  flushed := []
  health := .active

namespace Party

def Follows (party : Party K) (run : EvalRun K) : Prop :=
  match party.phase with
  | .enqueueing | .unqueued | .reloaded _ =>
      ∃ held, party.session = .holding held ∧ held.id = party.runId ∧ (¬ run.Ended → held.Open)
  | .starting => party.session = .start K
  | .loaded found =>
      party.session = .holding found ∧ found.id = party.runId ∧ (¬ run.Ended → found.Open)
  | .running found =>
      party.session = .holding (found.started party.rt) ∧ found.id = party.runId ∧
        (¬ run.Ended → found.Open)
  | .raised _ => True

def Writes (party : Party K) : Prop :=
  match party.phase with
  | .unqueued | .loaded _ | .running _ | .reloaded _ => True
  | _ => False

instance (party : Party K) : Decidable party.Writes := by
  unfold Writes
  split <;> infer_instance

omit [Field K] [LinearOrder K] in
theorem Follows.mono {party : Party K} {run run' : EvalRun K} (h : party.Follows run)
    (hlive : ¬ run'.Ended → ¬ run.Ended) : party.Follows run' := by
  obtain ⟨rt, runId, session, phase⟩ := party
  cases phase with
  | enqueueing =>
    obtain ⟨held, hsession, hid, hopen⟩ := h
    exact ⟨held, hsession, hid, fun hrun => hopen (hlive hrun)⟩
  | unqueued =>
    obtain ⟨held, hsession, hid, hopen⟩ := h
    exact ⟨held, hsession, hid, fun hrun => hopen (hlive hrun)⟩
  | reloaded error =>
    obtain ⟨held, hsession, hid, hopen⟩ := h
    exact ⟨held, hsession, hid, fun hrun => hopen (hlive hrun)⟩
  | starting => exact h
  | loaded found => exact ⟨h.1, h.2.1, fun hrun => h.2.2 (hlive hrun)⟩
  | running found => exact ⟨h.1, h.2.1, fun hrun => h.2.2 (hlive hrun)⟩
  | raised error => trivial

structure Advances (party : Party K) (db : EvalDatabase K)
    (after : Option (Party K) × EvalDatabase K) : Prop where
  historic : after.2.Historic
  evolves : db.Evolves after.2
  follows : ∀ party' ∈ after.1, party'.runId = party.runId ∧
    ∀ run ∈ after.2.runs, run.id = party.runId → party'.Follows run

section Steps

variable {party : Party K} {db : EvalDatabase K} {run : EvalRun K}

omit [Field K] [LinearOrder K] in
theorem Advances.leave (h : db.Historic) : party.Advances db (none, db) :=
  ⟨h, .refl db, fun _ hparty => nomatch hparty⟩

omit [Field K] [LinearOrder K] in
theorem Advances.stay (h : db.Historic) (hrun : run ∈ db.runs) {session : EvalSession K}
    {phase : PartyPhase K} (hfollows : Follows { party with session, phase } run)
    (hid : run.id = party.runId) :
    party.Advances db (some { party with session, phase }, db) := by
  refine ⟨h, .refl db, fun party' hparty => ?_⟩
  cases hparty
  refine ⟨rfl, fun run' hrun' hid' => ?_⟩
  rw [Table.eq_of_key_eq hrun' hrun (hid'.trans hid.symm)]
  exact hfollows

omit [Field K] in
theorem follow_none {α : Type} (party : Party K) (db : EvalDatabase K)
    (program : EvalProgram K α) :
    party.follow db program (fun _ => none) (fun _ => none) =
      (none, (execEval program { database := db, session := party.session }).2.database) := by
  rw [follow]
  cases (execEval program { database := db, session := party.session }).1 <;> rfl

omit [Field K] in
theorem failed_advances {held : EvalRun K} (h : db.Historic) (hrun : run ∈ db.runs)
    (hlive : ¬ run.Ended) (hheld : held.Open) (hid : held.id = run.id) (message : Str) :
    party.Advances db
      (none, (execEval (markFailed party.rt message) (EvalWorld.during db held [] [])).2.database) := by
  rcases markFailed_cases party.rt message db held with hcommits | hsame
  · obtain ⟨hhistoric, hevolves⟩ := h.commit hrun hlive hcommits hid
      (by rw [hcommits.results]; exact (List.append_nil _).symm) (by simp)
      (failed_proceeds message hheld)
    exact ⟨hhistoric, hevolves, fun _ hparty => nomatch hparty⟩
  · rw [hsame]
    exact .leave h

theorem advance_spec (h : db.Historic) (hrun : run ∈ db.runs) (hid : run.id = party.runId)
    (hfollows : party.Follows run) (hclear : party.Writes → ¬ run.Ended) :
    party.Advances db (party.advance db) := by
  obtain ⟨rt, runId, session, phase⟩ := party
  cases hid
  cases phase with
  | enqueueing => exact .stay h hrun hfollows rfl
  | unqueued =>
    obtain ⟨held, rfl, hheld, hopen⟩ := hfollows
    have hlive := hclear trivial
    have hfailed : Advances ⟨rt, run.id, .holding held, .unqueued⟩ db _ :=
      failed_advances h hrun hlive (hopen hlive) hheld enqueueFailedMessage
    rw [advance]
    dsimp only
    rw [follow_none]
    rw [← failEvaluationRun_during rt run.id] at hfailed
    exact hfailed
  | reloaded error =>
    obtain ⟨held, rfl, hheld, hopen⟩ := hfollows
    have hlive := hclear trivial
    rw [advance]
    dsimp only
    rw [follow_none]
    exact failed_advances h hrun hlive (hopen hlive) hheld (error.text.take 1000)
  | starting =>
    cases hfollows
    rw [advance]
    dsimp only
    rcases hfind : execEval (findRun rt run.id) db.connect with ⟨e | found, w⟩
    · have hsame := database_unchanged (asks_findRun rt run.id) db.connect
      rw [hfind] at hsame
      rw [follow_error hfind, hsame]
      exact .stay h hrun trivial rfl
    · obtain ⟨_, rfl, rfl⟩ := findRun_ok hrun hfind
      rw [follow_ok hfind]
      exact .stay h hrun ⟨rfl, rfl, h.opened _ hrun⟩ rfl
  | loaded found =>
    obtain ⟨rfl, hfound, hopen⟩ := hfollows
    have hlive := hclear trivial
    rw [advance]
    dsimp only
    rcases markRunning_cases rt db found with ⟨db', hcommits, hran⟩ | ⟨e, w, hran, hsame⟩
    · rw [follow_ok hran]
      obtain ⟨hhistoric, hevolves⟩ := h.commit hrun hlive hcommits hfound
        (by rw [hcommits.results]; exact (List.append_nil _).symm) (by simp)
        (started_proceeds (h.opened run hrun hlive))
      refine ⟨hhistoric, hevolves, fun party' hparty => ?_⟩
      cases hparty
      exact ⟨rfl, fun _ _ _ => ⟨rfl, hfound, fun _ => hopen hlive⟩⟩
    · rw [follow_error hran, hsame]
      exact .stay h hrun trivial rfl
  | running found =>
    obtain ⟨hsession, hfound, hopen⟩ := hfollows
    change session = .holding (found.started rt) at hsession
    subst hsession
    have hlive := hclear trivial
    rw [advance]
    dsimp only
    rcases concludeEvaluation_cases rt db found with
      ⟨summary, rows, db', w, hcommits, hresults, hrows, hcount, hran, rfl⟩ | ⟨e, w, hran, hsame⟩
    · rw [follow_ok hran]
      obtain ⟨hhistoric, hevolves⟩ := h.commit hrun hlive hcommits hfound hresults
        (fun row hrow => (hrows row hrow).trans hfound)
        (finished_proceeds (h.opened run hrun hlive) (hopen hlive) hcount)
      refine ⟨hhistoric, hevolves, fun _ hparty => ?_⟩
      cases hparty
    · rw [follow_error hran, hsame]
      exact .stay h hrun trivial rfl
  | raised error =>
    rw [advance]
    dsimp only
    rcases reloadRun_cases rt hrun session with hran | ⟨e, w, hran, hsame⟩
    · rw [follow_ok hran]
      exact .stay h hrun ⟨run, rfl, rfl, h.opened run hrun⟩ rfl
    · rw [follow_error hran, hsame]
      exact .leave h

end Steps

end Party

end Parties

section Creation

variable [Field K] [LinearOrder K] {rt : EvalRuntime K} {db : EvalDatabase K} {run : EvalRun K}
  {runId userId datasetId : Uuid} {configOverrides : JsonDict} {w w' : EvalWorld K}

omit [Field K] in
theorem selectEval_ok {fault : Option PyException} {query : EvalQuery} {reply : query.Reply}
    (hunsent : w.session.unsent = [])
    (h : execEval (selectEval fault query) w = (.ok reply, w')) : w' = w := by
  change serveEval (EvalOp.select fault query) w = _ at h
  simp only [serveEval, flushUnsent_nil hunsent, selectRows] at h
  split at h
  · cases h
  · cases h
  · exact (Prod.mk.inj h).2.symm

def EvalWorld.inserting (db : EvalDatabase K) (datasetId : Uuid) (caseCount : Nat)
    (run : EvalRun K) : EvalWorld K where
  database := db
  session := {
    run := some ⟨run, run⟩
    pending := [.setCaseCount datasetId caseCount, .insertRun run]
    flushed := []
    health := .active }

omit [Field K] in
theorem insert_ok {caseCount : Nat} {fault fault' : Option PyException}
    (hflush : flushUnsent fault (.inserting db datasetId caseCount run) = (.ok (), w))
    (hcommit : execEval (commitEval fault') w = (.ok (), w')) :
    db.runs.Fresh run.id ∧ w'.database.runs = db.runs.insert run ∧
      w'.database.results = db.results ∧ w'.session = .holding run := by
  have hunsent : (EvalWorld.inserting db datasetId caseCount run).session.unsent =
      [.setCaseCount datasetId caseCount, .insertRun run] := by
    simp [EvalSession.unsent, EvalWorld.inserting]
  rcases flushUnsent_ok hflush with ⟨hempty, _⟩ | ⟨_, _, haccepts, rfl⟩
  · rw [hunsent] at hempty
    cases hempty
  · rw [hunsent] at haccepts
    have hsent : (EvalWorld.inserting db datasetId caseCount run).send.session.unsent = [] := by
      simp [EvalWorld.send, EvalSession.unsent, EvalWorld.inserting]
    have hview : (EvalWorld.inserting db datasetId caseCount run).send.view =
        db.applyAll [.setCaseCount datasetId caseCount, .insertRun run] := by
      simp only [EvalWorld.view, EvalWorld.send, hunsent]
      rfl
    obtain ⟨_, _, rfl⟩ := commitEval_ok rfl hcommit
    rw [hsent, hview]
    exact ⟨Table.get?_eq_none_iff.mp haccepts.2.1, rfl, rfl, rfl⟩

omit [Field K] in
theorem storeRun_ok
    (h : execEval (storeRun rt runId userId datasetId configOverrides) db.connect = (.ok run, w)) :
    db.runs.Fresh run.id ∧ run.Open ∧ w.database.runs = db.runs.insert run ∧
      w.database.results = db.results ∧ w.session = .holding run := by
  obtain ⟨created, w₁, hcreate, h⟩ := Script.bind_ran_ok h
  obtain ⟨_, w₂, hcommit, h⟩ := Script.bind_ran_ok h
  cases h
  obtain ⟨dataset, w₃, hdataset, hcreate⟩ := Script.bind_ran_ok hcreate
  cases selectEval_ok rfl hdataset
  cases dataset with
  | none => cases hcreate
  | some dataset =>
    dsimp only at hcreate
    split at hcreate
    · cases hcreate
    · obtain ⟨caseCount, w₄, hcount, hcreate⟩ := Script.bind_ran_ok hcreate
      cases selectEval_ok rfl hcount
      obtain ⟨_, w₅, hadd, hcreate⟩ := Script.bind_ran_ok hcreate
      cases hadd
      obtain ⟨_, w₆, htrack, hcreate⟩ := Script.bind_ran_ok hcreate
      cases htrack
      obtain ⟨_, w₇, hinsert, hcreate⟩ := Script.bind_ran_ok hcreate
      cases hinsert
      obtain ⟨_, w₈, hflush, hcreate⟩ := Script.bind_ran_ok hcreate
      obtain ⟨hcreated, rfl⟩ := Prod.mk.inj hcreate
      have hcreated := Except.ok.inj hcreated
      rw [hcreated] at hflush
      have hsent : flushUnsent (rt.fault .insertRun)
          (.inserting db datasetId caseCount run) = (.ok (), w₈) := hflush
      have hopen : run.Open := by
        rw [← hcreated]
        exact ⟨(by rintro (h | h) <;> cases h), rfl, rfl⟩
      obtain ⟨hfresh, hruns, hresults, hsession⟩ := insert_ok hsent hcommit
      exact ⟨hfresh, hopen, hruns, hresults, hsession⟩

omit [Field K] in
theorem storeRun_error {e : PyException}
    (h : execEval (storeRun rt runId userId datasetId configOverrides) db.connect = (.error e, w)) :
    w.database = db := by
  have hcreate : (createEvalRun rt runId userId datasetId configOverrides).Asks
      (EvalOp.isCommit · = false) := by
    refine Script.asks_bind (Script.asks_perform rfl) fun found => ?_
    cases found with
    | none => exact Script.asks_throw _
    | some dataset =>
      refine Script.asks_ite (Script.asks_throw _) ?_
      refine Script.asks_bind (Script.asks_perform rfl) fun caseCount => ?_
      refine Script.asks_bind (Script.asks_perform rfl) fun _ => ?_
      refine Script.asks_bind (Script.asks_perform rfl) fun _ => ?_
      refine Script.asks_bind (Script.asks_perform rfl) fun _ => ?_
      exact Script.asks_bind (Script.asks_perform rfl) fun _ => Script.asks_pure _
  have hclean : FailsClean (storeRun rt runId userId datasetId configOverrides) :=
    .bind hcreate fun run => (FailsClean.commit _).andReturn fun _ => run
  exact hclean _ _ _ h

omit [Field K] [LinearOrder K] in
theorem EvalDatabase.Historic.create (h : db.Historic) {db' : EvalDatabase K}
    (hfresh : db.runs.Fresh run.id) (hopen : run.Open) (hruns : db'.runs = db.runs.insert run)
    (hresults : db'.results = db.results) : db'.Historic ∧ db.Evolves db' := by
  have hmem {x : EvalRun K} : x ∈ db'.runs ↔ x ∈ db.runs ∨ x = run := by
    rw [hruns]
    exact Table.mem_insert hfresh
  have hresultsOf (id : Uuid) : db'.resultsOf id = db.resultsOf id := by
    rw [resultsOf, hresults, resultsOf]
  refine ⟨⟨?_, ?_, ?_⟩, ?_, ?_⟩
  · intro x hx hlive
    rcases hmem.mp hx with hx | rfl
    · exact h.opened x hx hlive
    · exact hopen
  · intro row hrow
    rw [hresults] at hrow
    obtain ⟨x, hx, hid, hcompleted⟩ := h.recorded row hrow
    exact ⟨x, hmem.mpr (Or.inl hx), hid, hcompleted⟩
  · intro x hx hcompleted
    rw [hresultsOf]
    rcases hmem.mp hx with hx | rfl
    · exact h.consistent x hx hcompleted
    · exact absurd (Or.inl hcompleted) hopen.live
  · exact fun x hx _ => ⟨hmem.mpr (Or.inl hx), hresultsOf x.id⟩
  · exact fun x hx => ⟨x, hmem.mpr (Or.inl hx), rfl⟩

end Creation

section System

variable [Field K] [LinearOrder K]

namespace EvalSystem

def Clear (s : EvalSystem K) : RunStep K → Prop
  | .advance index => ∀ party ∈ s.parties[index]?, party.Writes →
      ∀ run ∈ s.database.runs.get? party.runId, ¬ run.Ended
  | _ => True

instance (s : EvalSystem K) (step : RunStep K) : Decidable (s.Clear step) := by
  cases step <;> unfold Clear <;> infer_instance

structure Kept (s : EvalSystem K) : Prop where
  historic : s.database.Historic
  jobs : ∀ runId ∈ s.jobs, ∃ run ∈ s.database.runs, run.id = runId
  parties : ∀ party ∈ s.parties, ∃ run ∈ s.database.runs, run.id = party.runId ∧
    party.Follows run

variable {s : EvalSystem K}

omit [Field K] [LinearOrder K] in
theorem Kept.job_of_party (h : s.Kept) {party : Party K} (hparty : party ∈ s.parties) :
    ∀ runId ∈ party.runId :: s.jobs, ∃ run ∈ s.database.runs, run.id = runId := by
  rw [List.forall_mem_cons]
  obtain ⟨run, hrun, hid, _⟩ := h.parties party hparty
  exact ⟨⟨run, hrun, hid⟩, h.jobs⟩

omit [Field K] [LinearOrder K] in
theorem Kept.evolve (h : s.Kept) {db' : EvalDatabase K} {parties : List (Party K)}
    (hhistoric : db'.Historic) (hevolves : s.database.Evolves db')
    (hparties : ∀ party ∈ parties, party ∈ s.parties ∨
      ∃ run ∈ db'.runs, run.id = party.runId ∧ party.Follows run) :
    Kept { s with database := db', parties } where
  historic := hhistoric
  jobs runId hjob := by
    obtain ⟨run, hrun, rfl⟩ := h.jobs runId hjob
    exact hevolves.found run hrun
  parties party hparty := by
    rcases hparties party hparty with hold | hnew
    · obtain ⟨run, hrun, hid, hfollows⟩ := h.parties party hold
      obtain ⟨run', hrun', hid'⟩ := hevolves.found run hrun
      exact ⟨run', hrun', hid'.trans hid, hfollows.mono (hevolves.live hrun hrun' hid')⟩
    · exact hnew

omit [Field K] in
theorem Kept.create (h : s.Kept) (rt : EvalRuntime K) (runId userId datasetId : Uuid)
    (configOverrides : JsonDict) :
    (s.create rt runId userId datasetId configOverrides).Kept ∧
      s.database.Evolves (s.create rt runId userId datasetId configOverrides).database := by
  rw [EvalSystem.create]
  rcases hran : execEval (storeRun rt runId userId datasetId configOverrides) s.database.connect
    with ⟨e | run, w⟩
  · have hsame := storeRun_error hran
    dsimp only
    rw [hsame]
    exact ⟨h, .refl _⟩
  · obtain ⟨hfresh, hopen, hruns, hresults, hsession⟩ := storeRun_ok hran
    obtain ⟨hhistoric, hevolves⟩ := h.historic.create hfresh hopen hruns hresults
    refine ⟨h.evolve hhistoric hevolves ?_, hevolves⟩
    intro party hparty
    rcases List.mem_append.mp hparty with hold | hnew
    · exact Or.inl hold
    · cases List.mem_singleton.mp hnew
      have hmem : run ∈ w.database.runs := by
        rw [hruns]
        exact (Table.mem_insert hfresh).mpr (Or.inr rfl)
      exact Or.inr ⟨run, hmem, rfl, run, hsession, rfl, fun _ => hopen⟩

omit [Field K] [LinearOrder K] in
theorem mem_replace {index : Nat} {party : Option (Party K)} {x : Party K}
    (h : x ∈ s.replace index party) : x ∈ s.parties ∨ x ∈ party := by
  cases party with
  | none => exact Or.inl (List.mem_of_mem_eraseIdx h)
  | some party =>
    rcases List.mem_or_eq_of_mem_set h with hold | rfl
    · exact Or.inl hold
    · exact Or.inr rfl

omit [Field K] [LinearOrder K] in
theorem Kept.enqueue (h : s.Kept) (index : Nat) (fault : Option RedisFault) :
    (s.enqueue index fault).Kept ∧ (s.enqueue index fault).database = s.database := by
  rw [EvalSystem.enqueue]
  split
  case h_1 rt runId session hget =>
    have hparty := List.mem_of_getElem? hget
    have hjobs := h.job_of_party hparty
    have hunqueued : ∀ party ∈ s.replace index (some ⟨rt, runId, session, .unqueued⟩),
        ∃ run ∈ s.database.runs, run.id = party.runId ∧ party.Follows run := by
      intro party hmem
      rcases mem_replace hmem with hold | hnew
      · exact h.parties party hold
      · cases hnew
        obtain ⟨run, hrun, hid, hfollows⟩ := h.parties _ hparty
        exact ⟨run, hrun, hid, hfollows⟩
    have hgone : ∀ party ∈ s.replace index none,
        ∃ run ∈ s.database.runs, run.id = party.runId ∧ party.Follows run :=
      fun party hmem => h.parties party (List.mem_of_mem_eraseIdx hmem)
    cases fault with
    | none => exact ⟨⟨h.historic, hjobs, hgone⟩, rfl⟩
    | some fault =>
      cases fault with
      | unreachable => exact ⟨⟨h.historic, h.jobs, hunqueued⟩, rfl⟩
      | afterStore => exact ⟨⟨h.historic, hjobs, hunqueued⟩, rfl⟩
  case h_2 => exact ⟨h, rfl⟩

omit [Field K] [LinearOrder K] in
theorem Kept.deliver (h : s.Kept) (rt : EvalRuntime K) (runId : Uuid) :
    (s.deliver rt runId).Kept ∧ (s.deliver rt runId).database = s.database := by
  rw [EvalSystem.deliver]
  split
  case isTrue hjob =>
    refine ⟨⟨h.historic, h.jobs, fun party hparty => ?_⟩, rfl⟩
    rcases List.mem_append.mp hparty with hold | hnew
    · exact h.parties party hold
    · cases List.mem_singleton.mp hnew
      obtain ⟨run, hrun, hid⟩ := h.jobs runId hjob
      exact ⟨run, hrun, hid, rfl⟩
  case isFalse => exact ⟨h, rfl⟩

theorem Kept.advance (h : s.Kept) (index : Nat) (hclear : s.Clear (.advance index)) :
    (s.advance index).Kept ∧ s.database.Evolves (s.advance index).database := by
  rw [EvalSystem.advance]
  cases hget : s.parties[index]? with
  | none => exact ⟨h, .refl _⟩
  | some party =>
    dsimp only
    obtain ⟨run, hrun, hid, hfollows⟩ := h.parties party (List.mem_of_getElem? hget)
    have hwrites : party.Writes → ¬ run.Ended := fun hwrites =>
      hclear party hget hwrites run (hid ▸ Table.get?_key hrun)
    have hadvances := Party.advance_spec h.historic hrun hid hfollows hwrites
    refine ⟨h.evolve hadvances.historic hadvances.evolves fun party' hparty' => ?_,
      hadvances.evolves⟩
    rcases mem_replace hparty' with hold | hnew
    · exact Or.inl hold
    · obtain ⟨hrunId, hfollows'⟩ := hadvances.follows party' hnew
      obtain ⟨run', hrun', hid'⟩ := hadvances.evolves.found run hrun
      rw [hid] at hid'
      exact Or.inr ⟨run', hrun', hid'.trans hrunId.symm, hfollows' run' hrun' hid'⟩

omit [Field K] [LinearOrder K] in
theorem Kept.revise (h : s.Kept) (knowledge : Database) (datasets : Table EvalDataset.id)
    (cases : Table EvalCase.id) :
    Kept { s with database := { s.database with knowledge, datasets, cases } } ∧
      s.database.Evolves { s.database with knowledge, datasets, cases } :=
  ⟨⟨⟨h.historic.opened, h.historic.recorded, h.historic.consistent⟩, h.jobs, h.parties⟩,
    ⟨fun _ hrun _ => ⟨hrun, rfl⟩, fun run hrun => ⟨run, hrun, rfl⟩⟩⟩

theorem Kept.step (h : s.Kept) (step : RunStep K) (hclear : s.Clear step) :
    (step.apply s).Kept ∧ s.database.Evolves (step.apply s).database := by
  cases step with
  | create rt runId userId datasetId configOverrides => exact h.create _ _ _ _ _
  | enqueue index fault =>
    obtain ⟨hkept, hsame⟩ := h.enqueue index fault
    exact ⟨hkept, hsame.symm ▸ .refl _⟩
  | deliver rt runId =>
    obtain ⟨hkept, hsame⟩ := h.deliver rt runId
    exact ⟨hkept, hsame.symm ▸ .refl _⟩
  | advance index => exact h.advance index hclear
  | abandon index =>
    refine ⟨h.evolve h.historic (.refl _) fun party hparty => Or.inl ?_, .refl _⟩
    exact List.mem_of_mem_eraseIdx hparty
  | revise knowledge datasets cases => exact h.revise knowledge datasets cases

abbrev runAll (steps : List (RunStep K)) (s : EvalSystem K) : EvalSystem K :=
  History.play RunStep.apply steps s

abbrev ClearAll (steps : List (RunStep K)) (s : EvalSystem K) : Prop :=
  History.Admissible RunStep.apply (fun step s => s.Clear step) steps s

theorem Kept.runAll (h : s.Kept) {steps : List (RunStep K)} (hclear : ClearAll steps s) :
    (runAll steps s).Kept ∧ s.database.Evolves (runAll steps s).database := by
  induction steps generalizing s with
  | nil => exact ⟨h, .refl _⟩
  | cons step steps ih =>
    obtain ⟨hkept, hevolves⟩ := h.step step hclear.1
    obtain ⟨hkept', hevolves'⟩ := ih hkept hclear.2
    exact ⟨hkept', hevolves.trans hevolves'⟩

omit [Field K] [LinearOrder K] in
theorem kept_start (knowledge : Database) (datasets : Table EvalDataset.id)
    (cases : Table EvalCase.id) : (start knowledge datasets cases : EvalSystem K).Kept :=
  ⟨⟨fun _ hrun => absurd hrun (Table.not_mem_empty _),
    fun _ hrow => absurd hrow (Table.not_mem_empty _),
    fun _ hrun => absurd hrun (Table.not_mem_empty _)⟩,
    fun _ hjob => absurd hjob List.not_mem_nil, fun _ hparty => absurd hparty List.not_mem_nil⟩

def Immutable (steps : List (RunStep K)) (s : EvalSystem K) : Prop :=
  ∀ before after, steps = before ++ after → (runAll before s).database.Consistent ∧
    (runAll before s).database.KeepsEnded (runAll steps s).database

def statusOf (s : EvalSystem K) (runId : Uuid) : Option EvalRunStatus :=
  (s.database.runs.get? runId).map EvalRun.status

theorem Immutable.statusOf {s : EvalSystem K} {before after : List (RunStep K)}
    (h : Immutable (before ++ after) s) {runId : Uuid} {status : EvalRunStatus}
    (hstatus : (runAll before s).statusOf runId = some status)
    (hended : status = .completed ∨ status = .failed) :
    (runAll (before ++ after) s).statusOf runId = some status := by
  obtain ⟨run, hget, rfl⟩ := Option.map_eq_some_iff.mp hstatus
  obtain ⟨hrun, hid⟩ := Table.get?_eq_some_iff.mp hget
  obtain ⟨run', hrun', hid', hstatus', _⟩ := (h before after rfl).2 run hrun hended
  have hget' := Table.get?_key hrun'
  rw [hid', hid] at hget'
  rw [EvalSystem.statusOf, hget', Option.map_some, hstatus']

theorem runAll_immutable (knowledge : Database) (datasets : Table EvalDataset.id)
    (cases : Table EvalCase.id) {steps : List (RunStep K)}
    (hclear : ClearAll steps (start knowledge datasets cases)) :
    Immutable steps (start knowledge datasets cases) := by
  rintro before after rfl
  obtain ⟨hbefore, hafter⟩ := hclear.split
  have hkept := (kept_start knowledge datasets cases).runAll hbefore
  refine ⟨hkept.1.historic.consistent, fun run hrun hended => ?_⟩
  have hrest : runAll (before ++ after) (start knowledge datasets cases) =
      runAll after (runAll before (start knowledge datasets cases)) :=
    History.play_append _ _ _ _
  rw [hrest]
  obtain ⟨hmem, hresults⟩ := (hkept.1.runAll hafter).2.kept run hrun hended
  exact ⟨run, hmem, rfl, rfl, rfl, rfl, hresults⟩

end EvalSystem

end System

end Runs

def sampleSystem : EvalSystem Rat :=
  .start (.empty [⟨9, 0⟩]) ⟨[⟨⟨0, 0⟩, ⟨9, 0⟩, "v1".toList, 0⟩], by decide⟩ sampleDatabase.cases

def quietRuntime : EvalRuntime Rat := sampleRuntime [] fun _ => none

def creation : RunStep Rat := .create quietRuntime ⟨2, 0⟩ ⟨9, 0⟩ ⟨0, 0⟩ []

def delivery : List (RunStep Rat) :=
  [.deliver quietRuntime ⟨2, 0⟩, .advance 0, .advance 0, .advance 0]

theorem EvalSystem.runAll_immutable_delivered :
    Immutable ([creation, .enqueue 0 none] ++ delivery) sampleSystem ∧
      (runAll ([creation, .enqueue 0 none] ++ delivery) sampleSystem).statusOf ⟨2, 0⟩ =
        some .completed :=
  ⟨EvalSystem.runAll_immutable _ _ _ (by decide +kernel), by decide +kernel⟩

-- Redis stores the job before the connection breaks, so that the worker runs what has failed.
def unacknowledged : List (RunStep Rat) := [creation, .enqueue 0 (some .afterStore), .advance 0]

def redelivered : List (RunStep Rat) := [creation, .enqueue 0 none] ++ delivery

theorem EvalSystem.not_immutable_redelivered :
    ¬ Immutable (unacknowledged ++ delivery) sampleSystem ∧
      ¬ Immutable (redelivered ++ delivery) sampleSystem := by
  constructor
  · intro h
    have hfailed : (runAll unacknowledged sampleSystem).statusOf ⟨2, 0⟩ = some .failed := by
      decide +kernel
    have hcompleted : (runAll (unacknowledged ++ delivery) sampleSystem).statusOf ⟨2, 0⟩ =
        some .completed := by
      decide +kernel
    cases hcompleted.symm.trans (h.statusOf hfailed (Or.inr rfl))
  · intro h
    have hcompleted : (runAll redelivered sampleSystem).statusOf ⟨2, 0⟩ = some .completed := by
      decide +kernel
    have hrunning : (runAll (redelivered ++ delivery) sampleSystem).statusOf ⟨2, 0⟩ =
        some .running := by
      decide +kernel
    cases hrunning.symm.trans (h.statusOf hcompleted (Or.inl rfl))

end YCStudio
