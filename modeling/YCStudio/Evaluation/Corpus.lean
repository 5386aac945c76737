import YCStudio.Evaluation.SyntheticCases

namespace YCStudio

inductive EvalCaseSource where
  | synthetic
  | manual
  deriving DecidableEq, Repr

def EvalCaseSource.value : EvalCaseSource → Str
  | synthetic => "synthetic".toList
  | manual => "manual".toList

structure DatasetStats where
  total : Nat
  active : Nat
  syntheticTotal : Nat
  syntheticActive : Nat
  manualActive : Nat
  deriving DecidableEq, Repr

def DatasetStats.syntheticRetentionRate (stats : DatasetStats) : Rat :=
  if stats.syntheticTotal = 0 then 0
  else (stats.syntheticActive : Rat) / stats.syntheticTotal * 100

namespace EvalDatabase

variable {K : Type} (db : EvalDatabase K) (datasetId : Uuid)

def casesOf : List EvalCase := db.cases.rows.filter (·.datasetId = datasetId)

-- GROUP BY source, is_active
def caseCounts : List ((Str × Bool) × Nat) :=
  groupCount ((db.casesOf datasetId).map fun row => (row.source, row.isActive))

def datasetStats : DatasetStats :=
  let counts := db.caseCounts datasetId
  { total := (counts.map Prod.snd).sum
    active := ((counts.filter (·.1.2)).map Prod.snd).sum
    syntheticTotal := ((counts.filter (·.1.1 = EvalCaseSource.synthetic.value)).map Prod.snd).sum
    syntheticActive := (counts.lookup (EvalCaseSource.synthetic.value, true)).getD 0
    manualActive := (counts.lookup (EvalCaseSource.manual.value, true)).getD 0 }

end EvalDatabase

structure DatasetDetails where
  name : Str
  constructionMethod : Str
  createdAt : Timestamp
  updatedAt : Timestamp
  deriving DecidableEq, Repr, Inhabited

structure ReviewedCase extends EvalCase where
  reviewNote : Option Str
  deriving DecidableEq, Repr

structure Corpus (K : Type) where
  database : EvalDatabase K
  details : Uuid → DatasetDetails
  reviewNotes : Uuid → Option Str
  runCreatedAt : Uuid → Timestamp

def notStored : PyException where
  typeName := "DBAPIError".toList
  message := "invalid byte sequence for encoding".toList

def unknownUser : PyException where
  typeName := "IntegrityError".toList
  message := "insert or update on table eval_datasets violates foreign key constraint".toList

def caseNotFound (caseId : Uuid) : PyException where
  typeName := "LookupError".toList
  message := "Evaluation case ".toList ++ caseId.str ++ " was not found".toList

def emptyManualQuery : PyException where
  typeName := "ValueError".toList
  message := "manual evaluation query cannot be empty".toList

def unexpectingManualCase : PyException where
  typeName := "ValueError".toList
  message := "manual evaluation case needs at least one expected chunk".toList

-- PostgreSQL text cannot hold the NUL character.
def NulFree (texts : List Str) : Prop := ∀ text ∈ texts, '\x00' ∉ text

instance (texts : List Str) : Decidable (NulFree texts) :=
  inferInstanceAs (Decidable (∀ text ∈ texts, _))

def pyOr (value : Option Str) (default : Str) : Str :=
  match value with
  | none | some [] => default
  | some text => text

abbrev ManualCase := Str × List Uuid × Option Str

def manualCase (stream : Nat) (now : Timestamp) (datasetId : Uuid) (draw : Nat) :
    ManualCase → Except PyException ReviewedCase
  | (query, expectedChunkIds, reviewNote) =>
      let normalizedQuery := Str.join [' '] query.words
      let expected := expectedChunkIds.map Uuid.str
      if normalizedQuery = [] then .error emptyManualQuery
      else if expected = [] then .error unexpectingManualCase
      else .ok {
        id := ⟨stream, draw⟩
        datasetId
        query := normalizedQuery
        expectedChunkIds := expected
        source := EvalCaseSource.manual.value
        isActive := true
        createdAt := now
        reviewNote := some (pyOr reviewNote "human-confirmed expected chunks".toList) }

def manualCases (stream : Nat) (now : Timestamp) (datasetId : Uuid) (cases : List ManualCase) :
    Except PyException (List ReviewedCase) :=
  cases.zipIdx.mapM fun (case, draw) => manualCase stream now datasetId draw case

namespace Corpus

variable {K : Type} (c : Corpus K)

def empty (knowledge : Database) : Corpus K where
  database := { knowledge, datasets := .empty, cases := .empty, runs := .empty, results := .empty }
  details _ := default
  reviewNotes _ := none
  runCreatedAt _ := 0

def recounts (database : EvalDatabase K) (datasetId : Uuid) : Prop :=
  ∃ old ∈ c.database.datasets.get? datasetId, ∃ new ∈ database.datasets.get? datasetId,
    new.caseCount ≠ old.caseCount

instance (database : EvalDatabase K) (datasetId : Uuid) :
    Decidable (c.recounts database datasetId) :=
  inferInstanceAs (Decidable (∃ old ∈ c.database.datasets.get? datasetId, _))

-- An UPDATE is sent, and moves updated_at, only where the count is another one.
def commit (now : Timestamp) (database : EvalDatabase K) : Corpus K :=
  { c with
    database
    details := fun id =>
      if c.recounts database id then { c.details id with updatedAt := now } else c.details id }

def note (reviewed : List ReviewedCase) : Corpus K :=
  { c with
    reviewNotes := fun id =>
      ((reviewed.find? (·.id = id)).map ReviewedCase.reviewNote).getD (c.reviewNotes id) }

def createDataset (stream : Nat) (now : Timestamp) (userId : Uuid)
    (name versionName constructionMethod : Str) : Except PyException (EvalDataset × Corpus K) :=
  let dataset := { id := ⟨stream, 0⟩, userId, version := versionName, caseCount := 0 }
  if ¬ NulFree [name, versionName, constructionMethod] then .error notStored
  else if userId ∉ c.database.knowledge.users then .error unknownUser
  else .ok (dataset, { c with
    database := { c.database with datasets := c.database.datasets.insert dataset }
    details := fun id =>
      if id = dataset.id then { name, constructionMethod, createdAt := now, updatedAt := now }
      else c.details id })

-- What the session holds after the count; nothing of it is committed here.
def refreshDatasetCaseCount (database : EvalDatabase K) (datasetId : Uuid) :
    DatasetStats × EvalDatabase K :=
  let stats := database.datasetStats datasetId
  (stats, database.apply (.setCaseCount datasetId stats.active))

def addManualCases (stream : Nat) (now : Timestamp) (datasetId : Uuid) (cases : List ManualCase) :
    Except PyException (List ReviewedCase × Corpus K) := do
  let created ← manualCases stream now datasetId cases
  if ¬ NulFree (created.flatMap fun row => row.query :: row.reviewNote.toList) then throw notStored
  let added := { c.database with
    cases := c.database.cases.insertAll (created.map ReviewedCase.toEvalCase) }
  return (created, (c.commit now (refreshDatasetCaseCount added datasetId).2).note created)

def reviewed (case : EvalCase) : ReviewedCase := { case with reviewNote := c.reviewNotes case.id }

def reviewCase (now : Timestamp) (caseId : Uuid) (isActive : Bool) (reviewNote : Option Str) :
    Except PyException (ReviewedCase × Corpus K) :=
  match c.database.cases.get? caseId with
  | none => .error (caseNotFound caseId)
  | some case =>
      if ¬ NulFree reviewNote.toList then .error notStored
      else
        let reviewed : ReviewedCase := { case with isActive, reviewNote }
        let changed := { c.database with cases := c.database.cases.put reviewed.toEvalCase }
        .ok (reviewed,
          (c.commit now (refreshDatasetCaseCount changed case.datasetId).2).note [reviewed])

def generateEvalDataset (shuffler : Shuffler)
    (generate : Str → Except GenerationError GeneratedQuestion) (stream : Nat) (now : Timestamp)
    (datasetId : Uuid) (count seed : Int) : Corpus K :=
  match c.database.generateSyntheticCases shuffler generate stream now datasetId count seed with
  | .error _ => c
  | .ok (created, database) =>
      (c.commit now database).note (created.map fun row =>
        { row.toEvalCase with reviewNote := some row.reviewNote })

end Corpus

end YCStudio
