import YCStudio.Evaluation.AttributionAgreement
import YCStudio.Evaluation.GenerationQueue

namespace YCStudio

inductive PartyPhase (K : Type) where
  | enqueueing
  | unqueued
  | starting
  | loaded (run : EvalRun K)
  | running (run : EvalRun K)
  | raised (error : PyException)
  | reloaded (error : PyException)

structure Party (K : Type) where
  rt : EvalRuntime K
  runId : Uuid
  session : EvalSession K
  phase : PartyPhase K

structure EvalSystem (K : Type) where
  database : EvalDatabase K
  jobs : List Uuid
  parties : List (Party K)

section Parties

variable {K : Type} [Field K] [LinearOrder K]

namespace Party

variable (party : Party K)

def follow {α : Type} (database : EvalDatabase K) (program : EvalProgram K α)
    (returned : α → Option (PartyPhase K)) (raised : PyException → Option (PartyPhase K)) :
    Option (Party K) × EvalDatabase K :=
  let ran := execEval program { database, session := party.session }
  let phase := match ran.1 with
    | .ok a => returned a
    | .error e => raised e
  (phase.map fun phase => { party with session := ran.2.session, phase }, ran.2.database)

def reloadRun (rt : EvalRuntime K) (runId : Uuid) : EvalProgram K (Option (EvalRun K)) := do
  rollbackEval
  getRun (rt.fault .getFailedRun) runId

-- The statements of evaluate_run, cut where another session can commit between two of them.
def advance (database : EvalDatabase K) : Option (Party K) × EvalDatabase K :=
  match party.phase with
  | .enqueueing => (some party, database)
  | .unqueued =>
      party.follow database (failEvaluationRun party.rt party.runId enqueueFailedMessage)
        (fun _ => none) (fun _ => none)
  | .starting =>
      party.follow database (findRun party.rt party.runId) (fun run => some (.loaded run))
        (fun e => some (.raised e))
  | .loaded run =>
      party.follow database (markRunning party.rt) (fun _ => some (.running run))
        (fun e => some (.raised e))
  | .running run =>
      party.follow database (concludeEvaluation party.rt none run) (fun _ => none)
        (fun e => some (.raised e))
  | .raised error =>
      party.follow database (reloadRun party.rt party.runId)
        (fun found => found.map fun _ => .reloaded error) (fun _ => none)
  | .reloaded error =>
      party.follow database (markFailed party.rt (error.text.take 1000)) (fun _ => none)
        (fun _ => none)

def deliver (rt : EvalRuntime K) (runId : Uuid) : Party K where
  rt
  runId
  session := .start K
  phase := .starting

def advanceAll : Nat → Option (Party K) × EvalDatabase K → EvalDatabase K
  | 0, (_, database) => database
  | _ + 1, (none, database) => database
  | n + 1, (some party, database) => advanceAll n (party.advance database)

end Party

section Follow

variable {party : Party K} {db : EvalDatabase K} {α : Type} {program : EvalProgram K α}
  {returned : α → Option (PartyPhase K)} {raised : PyException → Option (PartyPhase K)}
  {w : EvalWorld K}

omit [Field K] in
theorem Party.follow_ok {a : α}
    (h : execEval program { database := db, session := party.session } = (.ok a, w)) :
    party.follow db program returned raised =
      ((returned a).map fun phase => { party with session := w.session, phase }, w.database) := by
  rw [follow, h]

omit [Field K] in
theorem Party.follow_error {e : PyException}
    (h : execEval program { database := db, session := party.session } = (.error e, w)) :
    party.follow db program returned raised =
      ((raised e).map fun phase => { party with session := w.session, phase }, w.database) := by
  rw [follow, h]

end Follow

theorem advanceAll_raised (rt : EvalRuntime K) (runId : Uuid) (error : PyException)
    (w : EvalWorld K) (n : Nat) :
    Party.advanceAll (n + 2) (some ⟨rt, runId, w.session, .raised error⟩, w.database) =
      (execEval (do
        rollbackEval
        failEvaluationRun rt runId (error.text.take 1000)
        throw error : EvalProgram K (RunSummary K)) w).2.database := by
  have hreload : execEval (Party.reloadRun rt runId) w =
      execEval (getRun (rt.fault .getFailedRun) runId) w.rollback := rfl
  have hhandle : execEval (do
        rollbackEval
        failEvaluationRun rt runId (error.text.take 1000)
        throw error : EvalProgram K (RunSummary K)) w =
      execEval (failEvaluationRun rt runId (error.text.take 1000) >>= fun _ => throw error)
        w.rollback := rfl
  rw [hhandle]
  rcases hget : execEval (getRun (rt.fault .getFailedRun) runId) w.rollback with ⟨e | found, w₁⟩
  · have hfail : execEval (failEvaluationRun rt runId (error.text.take 1000)) w.rollback =
        (.error e, w₁) := Script.run_bind_of_error hget
    rw [execEval, Script.run_bind_of_error hfail, Party.advanceAll, Party.advance]
    dsimp only
    rw [Party.follow_error (hreload.trans hget)]
    rfl
  · rw [Party.advanceAll, Party.advance]
    dsimp only
    rw [Party.follow_ok (hreload.trans hget)]
    cases found with
    | none =>
      have hfail : execEval (failEvaluationRun rt runId (error.text.take 1000)) w.rollback =
          (.ok (), w₁) := Script.run_bind_of_ok hget
      rw [execEval, Script.run_bind_of_ok hfail]
      rfl
    | some run =>
      have hfail : execEval (failEvaluationRun rt runId (error.text.take 1000)) w.rollback =
          execEval (markFailed rt (error.text.take 1000)) w₁ := Script.run_bind_of_ok hget
      rcases hmark : execEval (markFailed rt (error.text.take 1000)) w₁ with ⟨e | _, w₂⟩
      · rw [execEval, Script.run_bind_of_error (hfail.trans hmark), Option.map_some, Option.map_some,
          Party.advanceAll, Party.advance]
        dsimp only
        rw [Party.follow_error hmark]
        cases n <;> rfl
      · rw [execEval, Script.run_bind_of_ok (hfail.trans hmark), Option.map_some, Option.map_some,
          Party.advanceAll, Party.advance]
        dsimp only
        rw [Party.follow_ok hmark]
        cases n <;> rfl

theorem evaluateRun_eq_advanceAll (rt : EvalRuntime K) (runId : Uuid) (db : EvalDatabase K) :
    (execEval (evaluateRun rt runId) db.connect).2.database =
      Party.advanceAll 5 (some (.deliver rt runId), db) := by
  rw [Party.advanceAll, Party.advance, Party.deliver]
  dsimp only
  rcases hfind : execEval (findRun rt runId) db.connect with ⟨e | run, w₁⟩
  · have hrun : execEval (runEvaluation rt none runId) db.connect = (.error e, w₁) :=
      Script.run_bind_of_error hfind
    rw [Party.follow_error hfind, execEval, evaluateRun, Script.run_recover_of_error hrun]
    exact (advanceAll_raised rt runId e w₁ 2).symm
  · rw [Party.follow_ok hfind, Option.map_some, Party.advanceAll, Party.advance]
    dsimp only
    rcases hmark : execEval (markRunning rt) w₁ with ⟨e | _, w₂⟩
    · have hrun : execEval (runEvaluation rt none runId) db.connect = (.error e, w₂) :=
        (Script.run_bind_of_ok hfind).trans (Script.run_bind_of_error hmark)
      rw [Party.follow_error hmark, execEval, evaluateRun, Script.run_recover_of_error hrun]
      exact (advanceAll_raised rt runId e w₂ 1).symm
    · rw [Party.follow_ok hmark, Option.map_some, Party.advanceAll, Party.advance]
      dsimp only
      have hrun : execEval (runEvaluation rt none runId) db.connect =
          execEval (concludeEvaluation rt none run) w₂ :=
        (Script.run_bind_of_ok hfind).trans (Script.run_bind_of_ok hmark)
      rcases hconclude : execEval (concludeEvaluation rt none run) w₂ with ⟨e | summary, w₃⟩
      · rw [Party.follow_error hconclude, execEval, evaluateRun,
          Script.run_recover_of_error (hrun.trans hconclude)]
        exact (advanceAll_raised rt runId e w₃ 0).symm
      · rw [Party.follow_ok hconclude, execEval, evaluateRun,
          Script.run_recover_of_ok (hrun.trans hconclude)]
        rfl

-- What enqueue_eval_run commits before it turns to Redis.
def storeRun (rt : EvalRuntime K) (runId userId datasetId : Uuid) (configOverrides : JsonDict) :
    EvalProgram K (EvalRun K) := do
  let run ← createEvalRun rt runId userId datasetId configOverrides
  commitEval (rt.fault .commitRun)
  return run

inductive RunStep (K : Type) where
  | create (rt : EvalRuntime K) (runId userId datasetId : Uuid) (configOverrides : JsonDict)
  | enqueue (index : Nat) (fault : Option RedisFault)
  | deliver (rt : EvalRuntime K) (runId : Uuid)
  | advance (index : Nat)
  | abandon (index : Nat)
  | revise (knowledge : Database) (datasets : Table EvalDataset.id) (cases : Table EvalCase.id)

namespace EvalSystem

def start (knowledge : Database) (datasets : Table EvalDataset.id) (cases : Table EvalCase.id) :
    EvalSystem K where
  database := { knowledge, datasets, cases, runs := .empty, results := .empty }
  jobs := []
  parties := []

variable (s : EvalSystem K)

def create (rt : EvalRuntime K) (runId userId datasetId : Uuid) (configOverrides : JsonDict) :
    EvalSystem K :=
  match execEval (storeRun rt runId userId datasetId configOverrides) s.database.connect with
  | (.ok run, w) =>
      { s with
        database := w.database
        parties := s.parties ++ [{ rt, runId := run.id, session := w.session, phase := .enqueueing }] }
  | (.error _, w) => { s with database := w.database }

def replace (index : Nat) (party : Option (Party K)) : List (Party K) :=
  match party with
  | none => s.parties.eraseIdx index
  | some party => s.parties.set index party

def enqueue (index : Nat) (fault : Option RedisFault) : EvalSystem K :=
  match s.parties[index]? with
  | some ⟨rt, runId, session, .enqueueing⟩ =>
      match fault with
      | none => { s with jobs := runId :: s.jobs, parties := s.replace index none }
      | some .unreachable =>
          { s with parties := s.replace index (some ⟨rt, runId, session, .unqueued⟩) }
      | some .afterStore =>
          { s with
            jobs := runId :: s.jobs
            parties := s.replace index (some ⟨rt, runId, session, .unqueued⟩) }
  | _ => s

def deliver (rt : EvalRuntime K) (runId : Uuid) : EvalSystem K :=
  if runId ∈ s.jobs then { s with parties := s.parties ++ [.deliver rt runId] } else s

def advance (index : Nat) : EvalSystem K :=
  match s.parties[index]? with
  | none => s
  | some party =>
      { s with
        database := (party.advance s.database).2
        parties := s.replace index (party.advance s.database).1 }

end EvalSystem

def RunStep.apply : RunStep K → EvalSystem K → EvalSystem K
  | create rt runId userId datasetId configOverrides, s =>
      s.create rt runId userId datasetId configOverrides
  | enqueue index fault, s => s.enqueue index fault
  | deliver rt runId, s => s.deliver rt runId
  | advance index, s => s.advance index
  | abandon index, s => { s with parties := s.replace index none }
  | revise knowledge datasets cases, s =>
      { s with database := { s.database with knowledge, datasets, cases } }

end Parties

end YCStudio
