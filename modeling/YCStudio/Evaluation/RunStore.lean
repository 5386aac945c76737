import YCStudio.Evaluation.Summary
import YCStudio.Library.Script

namespace YCStudio

structure EvalDataset where
  id : Uuid
  userId : Uuid
  version : Str
  caseCount : Nat
  deriving DecidableEq, Repr

structure EvalCase where
  id : Uuid
  datasetId : Uuid
  query : Str
  expectedChunkIds : List Str
  source : Str
  isActive : Bool
  createdAt : Timestamp
  deriving DecidableEq, Repr

inductive EvalRunStatus where
  | queued
  | running
  | completed
  | failed
  deriving DecidableEq, Repr

structure EvalRun (K : Type) where
  id : Uuid
  datasetId : Uuid
  userId : Uuid
  status : EvalRunStatus
  configSnapshot : JsonDict
  startedAt : Option Timestamp
  finishedAt : Option Timestamp
  summaryMetrics : Option (RunSummary K)
  errorMessage : Option Str

structure EvalResult (K : Type) where
  runId : Uuid
  caseId : Uuid
  retrievedChunkIds : List Str
  retrievedDocumentIds : List Str
  retrievedScores : List Rat
  hitPositions : List Nat
  recallAtK : K
  mrr : K
  ndcgAtK : K
  attribution : AttributionLabel
  latencyMs : Rat
  errorMessage : Option Str
  deriving DecidableEq, Repr

-- uq_eval_results_run_case
def EvalResult.key {K : Type} (row : EvalResult K) : Uuid × Uuid := (row.runId, row.caseId)

structure EvalDatabase (K : Type) where
  knowledge : Database
  datasets : Table EvalDataset.id
  cases : Table EvalCase.id
  runs : Table (EvalRun.id (K := K))
  results : Table (EvalResult.key (K := K))

structure RunChanges (K : Type) where
  status : Option EvalRunStatus
  startedAt : Option (Option Timestamp)
  finishedAt : Option (Option Timestamp)
  summaryMetrics : Option (Option (RunSummary K))
  errorMessage : Option (Option Str)
  deriving DecidableEq, Repr

def changed {α : Type} [DecidableEq α] (loaded current : α) : Option α :=
  if current = loaded then none else some current

def RunChanges.none (K : Type) : RunChanges K where
  status := .none
  startedAt := .none
  finishedAt := .none
  summaryMetrics := .none
  errorMessage := .none

section Rows

variable {K : Type}

def EvalRun.changes [DecidableEq K] (loaded current : EvalRun K) : RunChanges K where
  status := changed loaded.status current.status
  startedAt := changed loaded.startedAt current.startedAt
  finishedAt := changed loaded.finishedAt current.finishedAt
  summaryMetrics := changed loaded.summaryMetrics current.summaryMetrics
  errorMessage := changed loaded.errorMessage current.errorMessage

def EvalRun.patch (run : EvalRun K) (changes : RunChanges K) : EvalRun K :=
  { run with
    status := changes.status.getD run.status
    startedAt := changes.startedAt.getD run.startedAt
    finishedAt := changes.finishedAt.getD run.finishedAt
    summaryMetrics := changes.summaryMetrics.getD run.summaryMetrics
    errorMessage := changes.errorMessage.getD run.errorMessage }

@[simp] theorem EvalRun.id_patch (run : EvalRun K) (changes : RunChanges K) :
    (run.patch changes).id = run.id := rfl

@[simp] theorem EvalRun.patch_none (run : EvalRun K) : run.patch (.none K) = run := rfl

inductive EvalWrite (K : Type) where
  | insertRun (run : EvalRun K)
  | updateRun (id : Uuid) (changes : RunChanges K)
  | insertResult (row : EvalResult K)
  | setCaseCount (datasetId : Uuid) (caseCount : Nat)

namespace EvalDatabase

variable (db : EvalDatabase K)

def apply : EvalWrite K → EvalDatabase K
  | .insertRun run => { db with runs := db.runs.insert run }
  | .updateRun id changes =>
      { db with
        runs := db.runs.modify (fun run => if run.id = id then run.patch changes else run)
          (fun run => by split <;> rfl) }
  | .insertResult row => { db with results := db.results.insert row }
  | .setCaseCount datasetId caseCount =>
      { db with
        datasets := db.datasets.modify
          (fun dataset => if dataset.id = datasetId then { dataset with caseCount } else dataset)
          (fun dataset => by split <;> rfl) }

def applyAll (writes : List (EvalWrite K)) : EvalDatabase K := writes.foldl apply db

@[simp] theorem applyAll_nil : db.applyAll [] = db := rfl

@[simp] theorem applyAll_cons (write : EvalWrite K) (writes : List (EvalWrite K)) :
    db.applyAll (write :: writes) = (db.apply write).applyAll writes := rfl

theorem applyAll_append (writes writes' : List (EvalWrite K)) :
    db.applyAll (writes ++ writes') = (db.applyAll writes).applyAll writes' := List.foldl_append

-- PostgreSQL text cannot hold the NUL character.
def Accepts : EvalWrite K → Prop
  | .insertRun run => db.runs.get? run.id = none
  | .updateRun _ changes => ∀ message ∈ changes.errorMessage.join, '\x00' ∉ message
  | .insertResult row =>
      db.results.get? row.key = none ∧ ∀ message ∈ row.errorMessage, '\x00' ∉ message
  | .setCaseCount _ _ => True

def AcceptsAll : EvalDatabase K → List (EvalWrite K) → Prop
  | _, [] => True
  | db, write :: writes => db.Accepts write ∧ (db.apply write).AcceptsAll writes

instance (write : EvalWrite K) : Decidable (db.Accepts write) := by
  cases write <;> unfold EvalDatabase.Accepts <;> infer_instance

def AcceptsAll.decide : (db : EvalDatabase K) → (writes : List (EvalWrite K)) →
    Decidable (db.AcceptsAll writes)
  | _, [] => isTrue trivial
  | db, write :: writes =>
      have := AcceptsAll.decide (db.apply write) writes
      inferInstanceAs (Decidable (db.Accepts write ∧ (db.apply write).AcceptsAll writes))

instance (writes : List (EvalWrite K)) : Decidable (db.AcceptsAll writes) :=
  AcceptsAll.decide db writes

def activeCases (datasetId : Uuid) : List EvalCase :=
  (db.cases.rows.filter fun row => row.datasetId = datasetId ∧ row.isActive).insertionSort
    fun a b => a.createdAt < b.createdAt ∨ (a.createdAt = b.createdAt ∧ a.id.le b.id = true)

def resultsOf (runId : Uuid) : List (EvalResult K) := db.results.rows.filter (·.runId = runId)

section Writes

variable {db}

theorem acceptsAll_append {writes writes' : List (EvalWrite K)} :
    db.AcceptsAll (writes ++ writes') ↔
      db.AcceptsAll writes ∧ (db.applyAll writes).AcceptsAll writes' := by
  induction writes generalizing db with
  | nil => exact ⟨fun h => ⟨trivial, h⟩, And.right⟩
  | cons write writes ih => exact (and_congr_right fun _ => ih).trans and_assoc.symm

def resultWrites (rows : List (EvalResult K)) : List (EvalWrite K) := rows.map .insertResult

def Storable (results : Table (EvalResult.key (K := K))) (rows : List (EvalResult K)) : Prop :=
  (∀ row ∈ rows, results.get? row.key = none ∧ ∀ message ∈ row.errorMessage, '\x00' ∉ message) ∧
    (rows.map EvalResult.key).Nodup

theorem Storable.of_append {results : Table (EvalResult.key (K := K))}
    {rows rows' : List (EvalResult K)} (h : Storable results (rows ++ rows')) :
    Storable results rows := by
  obtain ⟨hrows, hnodup⟩ := h
  rw [List.map_append] at hnodup
  exact ⟨fun row hrow => hrows row (List.mem_append_left _ hrow), hnodup.of_append_left⟩

theorem acceptsAll_resultWrites {rows : List (EvalResult K)} :
    db.AcceptsAll (resultWrites rows) ↔ Storable db.results rows := by
  induction rows generalizing db with
  | nil => simp [Storable, AcceptsAll, resultWrites]
  | cons row rows ih =>
    change db.Accepts (.insertResult row) ∧
      (db.apply (.insertResult row)).AcceptsAll (resultWrites rows) ↔ _
    rw [ih]
    constructor
    · rintro ⟨⟨hfree, htext⟩, hrows, hnodup⟩
      have hboth := fun other hother =>
        (Table.get?_insert_eq_none_iff hfree).mp (hrows other hother).1
      refine ⟨List.forall_mem_cons.mpr ⟨⟨hfree, htext⟩, fun other hother =>
        ⟨(hboth other hother).1, (hrows other hother).2⟩⟩, ?_⟩
      rw [List.map_cons, List.nodup_cons, List.mem_map]
      refine ⟨?_, hnodup⟩
      rintro ⟨other, hother, hkey⟩
      exact (hboth other hother).2 hkey.symm
    · rintro ⟨hrows, hnodup⟩
      rw [List.map_cons, List.nodup_cons, List.mem_map] at hnodup
      obtain ⟨hrow, hrows⟩ := List.forall_mem_cons.mp hrows
      refine ⟨hrow, fun other hother => ⟨?_, (hrows other hother).2⟩, hnodup.2⟩
      exact (Table.get?_insert_eq_none_iff hrow.1).mpr
        ⟨(hrows other hother).1, fun hkey => hnodup.1 ⟨other, hother, hkey.symm⟩⟩

@[simp] theorem results_applyAll_resultWrites (rows : List (EvalResult K)) :
    (db.applyAll (resultWrites rows)).results = db.results.insertAll rows := by
  induction rows generalizing db with
  | nil => rfl
  | cons row rows ih => exact @ih (db.apply (.insertResult row))

@[simp] theorem runs_applyAll_resultWrites (rows : List (EvalResult K)) :
    (db.applyAll (resultWrites rows)).runs = db.runs := by
  induction rows generalizing db with
  | nil => rfl
  | cons row rows ih => exact @ih (db.apply (.insertResult row))

theorem Storable.rows_insertAll {results : Table (EvalResult.key (K := K))}
    {rows : List (EvalResult K)} (h : Storable results rows) :
    (results.insertAll rows).rows = results.rows ++ rows :=
  Table.rows_insertAll (fun row hrow => Table.get?_eq_none_iff.mp (h.1 row hrow).1) h.2

theorem get?_runs_updateRun {run : EvalRun K} (hrun : db.runs.get? run.id = some run)
    (changes : RunChanges K) :
    (db.apply (.updateRun run.id changes)).runs.get? run.id = some (run.patch changes) := by
  rw [apply, Table.get?_modify, hrun, Option.map_some, if_pos rfl]

end Writes

end EvalDatabase

section Changes

variable [DecidableEq K]

theorem getD_changed {α : Type} [DecidableEq α] (loaded current : α) :
    (changed loaded current).getD loaded = current := by
  rw [changed]
  split
  · exact Eq.symm ‹_›
  · rfl

@[simp] theorem changed_self {α : Type} [DecidableEq α] (value : α) : changed value value = none :=
  if_pos rfl

@[simp] theorem EvalRun.changes_self (run : EvalRun K) : run.changes run = .none K := by
  simp [EvalRun.changes, RunChanges.none]

theorem EvalRun.patch_changes {loaded current : EvalRun K} (hid : current.id = loaded.id)
    (hdataset : current.datasetId = loaded.datasetId) (huser : current.userId = loaded.userId)
    (hconfig : current.configSnapshot = loaded.configSnapshot) :
    loaded.patch (loaded.changes current) = current := by
  cases loaded
  cases current
  cases hid
  cases hdataset
  cases huser
  cases hconfig
  simp only [patch, changes, getD_changed]

end Changes

end Rows

end YCStudio
