import YCStudio.Store.Session

namespace YCStudio

namespace World

variable (w : World)

@[simp] theorem database_advance (writes : List Write) (draws : Nat) :
    (w.advance writes draws).database = w.database := rfl

@[simp] theorem files_advance (writes : List Write) (draws : Nat) :
    (w.advance writes draws).files = w.files := rfl

@[simp] theorem health_advance (writes : List Write) (draws : Nat) :
    (w.advance writes draws).session.health = w.session.health := rfl

@[simp] theorem savepoint_advance (writes : List Write) (draws : Nat) :
    (w.advance writes draws).session.savepoint = w.session.savepoint := rfl

@[simp] theorem stream_advance (writes : List Write) (draws : Nat) :
    (w.advance writes draws).session.stream = w.session.stream := rfl

@[simp] theorem drawn_advance (writes : List Write) (draws : Nat) :
    (w.advance writes draws).session.drawn = w.session.drawn + draws := rfl

@[simp] theorem view_advance (writes : List Write) (draws : Nat) :
    (w.advance writes draws).view = w.view.applyAll writes :=
  Database.applyAll_append _ _ _

@[simp] theorem advance_advance (writes writes' : List Write) (draws draws' : Nat) :
    (w.advance writes draws).advance writes' draws' =
      w.advance (writes ++ writes') (draws + draws') := by
  simp only [advance, List.append_assoc, Nat.add_assoc]

@[simp] theorem advance_nil : w.advance [] 0 = w := by
  simp only [advance, List.append_nil, Nat.add_zero]

@[simp] theorem refuse_advance (writes : List Write) (draws : Nat) (reasons) :
    (w.advance writes draws).refuse reasons = (w.advance [] draws).refuse reasons := rfl

end World

abbrev Runs {α : Type} (program : Program α) (w : World) (result : Except Exn α) (w' : World) :
    Prop :=
  exec program w = (result, w')

namespace Runs

variable {α β : Type} {w w' w'' : World} {p : Program α} {f : α → Program β}

theorem pure (a : α) : Runs (Pure.pure a : Program α) w (.ok a) w := rfl

theorem world {r : Except Exn α} (h : Runs p w r w') : (exec p w).2 = w' := congrArg Prod.snd h

theorem transacts {server : Server} {r : Except Exn α} (h : Runs p server.connect r w') :
    (transact p server).1 = r := congrArg Prod.fst h

theorem raise (e : Exn) : Runs (throw e : Program α) w (.error e) w := rfl

theorem attempt (result : Except Exn α) : Runs (YCStudio.attempt result) w result w := rfl

theorem bind {a : α} {r : Except Exn β} (h : Runs p w (.ok a) w') (h' : Runs (f a) w' r w'') :
    Runs (p >>= f) w r w'' := by
  rw [Runs, exec, Script.run_bind, ← exec, h]
  exact h'

theorem stop {e : Exn} (h : Runs p w (.error e) w') : Runs (p >>= f) w (.error e) w' := by
  rw [Runs, exec, Script.run_bind, ← exec, h]
  rfl

theorem tryOk {a : α} {handle : Exn → Program α} (h : Runs p w (.ok a) w') :
    Runs (tryCatch p handle) w (.ok a) w' := by
  rw [Runs, exec, Script.run_recover, ← exec, h]
  rfl

theorem tryError {e : Exn} {r : Except Exn α} {handle : Exn → Program α}
    (h : Runs p w (.error e) w') (h' : Runs (handle e) w' r w'') :
    Runs (tryCatch p handle) w r w'' := by
  rw [Runs, exec, Script.run_recover, ← exec, h]
  exact h'

theorem newId : Runs newId w (.ok ⟨w.session.stream, w.session.drawn⟩) (w.advance [] 1) := rfl

theorem newIds (count : Nat) :
    Runs (newIds count) w
      (.ok ((List.range count).map fun i => ⟨w.session.stream, w.session.drawn + i⟩))
      (w.advance [] count) := rfl

theorem now : Runs now w (.ok w.session.now) w := rfl

section Active

variable (hactive : w.session.health = .active)

include hactive

theorem select (query : Query) :
    Runs (select query) w (.ok (query.answer w.view)) w := by
  change serve (Op.select query) w = _
  simp only [serve, hactive]
  rfl

theorem flush {writes : List Write} (haccepted : w.view.firstRefusal writes = none) :
    Runs (flush none writes) w (.ok ()) (w.advance writes 0) := by
  change serve (Op.flush _ writes) w = _
  simp only [serve, hactive, Health.guard, haccepted]
  rfl

theorem flushFault (e : Exn) (writes : List Write) :
    Runs (YCStudio.flush (some e) writes) w (.error e) (w.refuse []) := by
  change serve (Op.flush _ writes) w = _
  simp only [serve, hactive, Health.guard]
  rfl

theorem flushRefused {writes : List Write} {refusal : Database.Refusal}
    (hrefused : w.view.firstRefusal writes = some refusal) :
    Runs (YCStudio.flush none writes) w (.error refusal.exn) (w.refuse [refusal]) := by
  change serve (Op.flush _ writes) w = _
  simp only [serve, hactive, Health.guard, hrefused]
  rfl

theorem execute {write : Write} (hencodable : write.Encodable) :
    Runs (execute write) w (.ok ()) (w.advance [w.view.resolve write] 0) := by
  change serve (Op.execute write) w = _
  simp only [serve, hactive, Health.guard, if_pos hencodable]
  rfl

theorem executeAborts {write : Write} (hencodable : ¬ write.Encodable) :
    Runs (YCStudio.execute write) w (.error databaseError) w.abort := by
  change serve (Op.execute write) w = _
  simp only [serve, hactive, Health.guard, if_neg hencodable]
  rfl

theorem beginNested : Runs beginNested w (.ok ()) w.beginNested := by
  change serve Op.beginNested w = _
  simp only [serve, hactive, Health.guard]
  rfl

theorem savepointCommit : Runs savepointCommit w (.ok ()) w.releaseSavepoint := by
  change serve Op.savepointCommit w = _
  simp only [serve, hactive, Health.guard]
  rfl

theorem commit : Runs commit w (.ok ()) w.commit := by
  change serve Op.commit w = _
  simp only [serve, hactive]
  rfl

end Active

theorem savepointIsActive :
    Runs savepointIsActive w (.ok (decide (w.session.health ≠ .inactive))) w := rfl

theorem savepointRollback : Runs savepointRollback w (.ok ()) w.rollbackSavepoint := rfl

theorem rollback : Runs rollback w (.ok ()) w.rollback := rfl

theorem executeUnusable {e : Exn} (hguard : w.session.health.guard = .error e) (write : Write) :
    Runs (YCStudio.execute write) w (.error e) w := by
  change serve (Op.execute write) w = _
  simp only [serve, hguard]
  rfl

theorem commitInactive (hinactive : w.session.health = .inactive) :
    Runs YCStudio.commit w (.error pendingRollbackError) w := by
  change serve Op.commit w = _
  simp only [serve, hinactive]
  rfl

theorem commitAborted (haborted : w.session.health = .aborted) :
    Runs YCStudio.commit w (.ok ()) w.rollback := by
  change serve Op.commit w = _
  simp only [serve, haborted]
  rfl

theorem readFile {sourceId : Uuid} {name : Str} {content : Bytes}
    (h : w.files.lookup (sourceId, name) = some content) :
    Runs (readFile none sourceId name) w (.ok content) w := by
  change serve (Op.readFile _ _ _) w = _
  simp only [serve, h]
  rfl

theorem readFile_cases (fault : Option Exn) (w : World) (sourceId : Uuid) (name : Str) :
    (∃ e, Runs (YCStudio.readFile fault sourceId name) w (.error e) w) ∨
      ∃ content, w.files.lookup (sourceId, name) = some content ∧
        Runs (YCStudio.readFile fault sourceId name) w (.ok content) w := by
  cases fault with
  | some e => exact Or.inl ⟨e, rfl⟩
  | none =>
    cases hlookup : w.files.lookup (sourceId, name) with
    | some content => exact Or.inr ⟨content, rfl, readFile hlookup⟩
    | none =>
      refine Or.inl ⟨fileNotFoundError, ?_⟩
      change serve (Op.readFile _ _ _) w = _
      simp only [serve, hlookup]
      rfl

end Runs

end YCStudio
