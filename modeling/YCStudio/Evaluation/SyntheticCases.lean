import YCStudio.Evaluation.OfflineQuestions
import YCStudio.Evaluation.RunStore
import YCStudio.Evaluation.SearchScope

namespace YCStudio

structure SyntheticCase extends EvalCase where
  reviewNote : Str
  generatorRationale : Option Str
  seed : Int

def syntheticCase (datasetId : Uuid) (seed : Int) (id : Uuid) (now : Timestamp) (chunk : Chunk)
    (question : GeneratedQuestion) : SyntheticCase where
  id
  datasetId
  query := question.query
  expectedChunkIds := [chunk.id.str]
  source := "synthetic".toList
  isActive := true
  createdAt := now
  reviewNote := "pending human review".toList
  generatorRationale := question.rationale
  seed

def syntheticCases (stream : Nat) (now : Timestamp) (datasetId : Uuid) (seed : Int)
    (chunks : List Chunk) (questions : List GeneratedQuestion) : List SyntheticCase :=
  (chunks.zip questions).mapIdx fun i (chunk, question) =>
    syntheticCase datasetId seed ⟨stream, i⟩ now chunk question

def validatedQuestion (generate : Str → Except GenerationError GeneratedQuestion) (chunk : Chunk) :
    Except GenerationError GeneratedQuestion := do
  validateGeneratedQuestion (← generate chunk.text)

namespace EvalDatabase

variable {K : Type} (db : EvalDatabase K)

def refreshDatasetCaseCount (datasetId : Uuid) : EvalDatabase K :=
  db.apply (.setCaseCount datasetId (db.activeCases datasetId).length)

-- PostgreSQL would turn away a NUL only, which text taken from a stored chunk does not hold.
def addSyntheticCases (datasetId : Uuid) (created : List SyntheticCase) : EvalDatabase K :=
  { db with cases := db.cases.insertAll (created.map SyntheticCase.toEvalCase) }.refreshDatasetCaseCount
    datasetId

def generateSyntheticCases (shuffler : Shuffler)
    (generate : Str → Except GenerationError GeneratedQuestion) (stream : Nat) (now : Timestamp)
    (datasetId : Uuid) (count seed : Int) :
    Except GenerationError (List SyntheticCase × EvalDatabase K) :=
  if count < 1 then .error (.raised (Exn.valueError "synthetic case count must be positive".toList))
  else
    match db.datasets.get? datasetId with
    | none => .error (.lookupError
        ("Evaluation dataset ".toList ++ datasetId.str ++ " was not found".toList))
    | some dataset => do
        let chunks ← (sampleChunks shuffler db.knowledge dataset.userId count seed).mapError .raised
        let questions ← chunks.mapM (validatedQuestion generate)
        let created := syntheticCases stream now datasetId seed chunks questions
        return (created, db.addSyntheticCases datasetId created)

end EvalDatabase

section Sample

variable {shuffler : Shuffler} {knowledge : Database} {ownerId : Uuid} {count seed : Int}

def sampledChunks (shuffler : Shuffler) (knowledge : Database) (ownerId : Uuid) (count seed : Int) :
    List Chunk :=
  (shuffler.shuffle seed (eligibleChunks knowledge ownerId)).take count.toNat

theorem sampleChunks_eq (hcount : 1 ≤ count)
    (henough : count ≤ (eligibleChunks knowledge ownerId).length) :
    sampleChunks shuffler knowledge ownerId count seed =
      .ok (sampledChunks shuffler knowledge ownerId count seed) := by
  have hlength := (shuffler.perm seed (eligibleChunks knowledge ownerId)).length_eq
  rw [sampleChunks, if_neg (by omega), if_neg (by omega), sampledChunks]

theorem length_sampledChunks (hcount : 1 ≤ count)
    (henough : count ≤ (eligibleChunks knowledge ownerId).length) :
    ((sampledChunks shuffler knowledge ownerId count seed).length : Int) = count := by
  have hlength := (shuffler.perm seed (eligibleChunks knowledge ownerId)).length_eq
  rw [sampledChunks, List.length_take]
  omega

theorem mem_eligible_of_sampled {chunk : Chunk}
    (h : chunk ∈ sampledChunks shuffler knowledge ownerId count seed) :
    chunk ∈ eligibleChunks knowledge ownerId :=
  (shuffler.perm seed _).mem_iff.mp (List.mem_of_mem_take h)

theorem joined_sublist (chunks : List Chunk) :
    ((chunks.filterMap (joinChunk knowledge)).map SearchRow.chunk).Sublist chunks := by
  induction chunks with
  | nil => exact List.Sublist.slnil
  | cons chunk chunks ih =>
    cases hjoin : joinChunk knowledge chunk with
    | none =>
      rw [List.filterMap_cons_none hjoin]
      exact ih.cons chunk
    | some row =>
      rw [List.filterMap_cons_some hjoin, List.map_cons, (joinChunk_eq_some.mp hjoin).2.2.2]
      exact ih.cons_cons chunk

theorem nodup_eligibleChunks : ((eligibleChunks knowledge ownerId).map Chunk.id).Nodup := by
  have hjoined : (((knowledge.chunks.rows.filterMap (joinChunk knowledge)).map
      SearchRow.chunk).map Chunk.id).Sublist (knowledge.chunks.rows.map Chunk.id) :=
    (joined_sublist _).map Chunk.id
  rw [eligibleChunks, ((List.perm_insertionSort _ _).map Chunk.id).nodup_iff]
  refine (knowledge.chunks.nodup.sublist hjoined).sublist (List.Sublist.map _ ?_)
  exact List.filter_sublist.map SearchRow.chunk

theorem nodup_sampledChunks :
    ((sampledChunks shuffler knowledge ownerId count seed).map Chunk.id).Nodup := by
  have hshuffled := ((shuffler.perm seed (eligibleChunks knowledge ownerId)).map Chunk.id).nodup_iff.mpr
    nodup_eligibleChunks
  exact hshuffled.sublist ((List.take_sublist _ _).map Chunk.id)

end Sample

section Cases

variable {K : Type} {db : EvalDatabase K} {shuffler : Shuffler}
  {generate : Str → Except GenerationError GeneratedQuestion} {stream : Nat} {now : Timestamp}
  {datasetId : Uuid} {dataset : EvalDataset} {count seed : Int}

variable (stream now datasetId seed) in
theorem expectedChunkIds_syntheticCases {chunks : List Chunk} {questions : List GeneratedQuestion}
    (h : chunks.length = questions.length) :
    (syntheticCases stream now datasetId seed chunks questions).map (·.expectedChunkIds) =
      chunks.map fun chunk => [chunk.id.str] := by
  refine List.ext_getElem (by simp [syntheticCases, h]) fun i hi hi' => ?_
  simp [syntheticCases, syntheticCase]

section Enough

variable (hdataset : db.datasets.get? datasetId = some dataset) (hcount : 1 ≤ count)
  (henough : count ≤ (eligibleChunks db.knowledge dataset.userId).length)
include hdataset hcount henough

theorem generateSyntheticCases_eq :
    db.generateSyntheticCases shuffler generate stream now datasetId count seed = do
      let questions ← (sampledChunks shuffler db.knowledge dataset.userId count seed).mapM
        (validatedQuestion generate)
      let created := syntheticCases stream now datasetId seed
        (sampledChunks shuffler db.knowledge dataset.userId count seed) questions
      return (created, db.addSyntheticCases datasetId created) := by
  rw [EvalDatabase.generateSyntheticCases, if_neg (by omega), hdataset]
  simp only [sampleChunks_eq hcount henough]
  rfl

end Enough

def CreatesCases (db : EvalDatabase K) (shuffler : Shuffler)
    (generate : Str → Except GenerationError GeneratedQuestion) (stream : Nat) (now : Timestamp)
    (datasetId ownerId : Uuid) (count seed : Int) : Prop :=
  ∃ created after,
    db.generateSyntheticCases shuffler generate stream now datasetId count seed = .ok (created, after) ∧
      (created.length : Int) = count ∧ (created.map (·.expectedChunkIds)).Nodup ∧
        ∀ case ∈ created, ∃ chunk ∈ eligibleChunks db.knowledge ownerId,
          case.expectedChunkIds = [chunk.id.str]

theorem createsCases_iff (hdataset : db.datasets.get? datasetId = some dataset) (hcount : 1 ≤ count)
    (henough : count ≤ (eligibleChunks db.knowledge dataset.userId).length) :
    CreatesCases db shuffler generate stream now datasetId dataset.userId count seed ↔
      ∀ chunk ∈ sampledChunks shuffler db.knowledge dataset.userId count seed,
        ∃ question, validatedQuestion generate chunk = .ok question := by
  rw [← Except.exists_mapM_iff, CreatesCases, generateSyntheticCases_eq hdataset hcount henough]
  constructor
  · rintro ⟨created, after, h, _⟩
    obtain ⟨questions, hquestions, _⟩ := Except.bind_eq_ok h
    exact ⟨questions, hquestions⟩
  · rintro ⟨questions, hquestions⟩
    have hlength := (Except.forall₂_of_mapM hquestions).length_eq
    have hids := expectedChunkIds_syntheticCases stream now datasetId seed hlength
    rw [hquestions]
    refine ⟨_, _, rfl, ?_, ?_, fun case hcase => ?_⟩
    · have hcases := congrArg List.length hids
      rw [List.length_map, List.length_map] at hcases
      rw [hcases, length_sampledChunks hcount henough]
    · have hstr : Function.Injective fun id : Uuid => [id.str] := fun _ _ h =>
        Uuid.str_injective (List.head_eq_of_cons_eq h)
      have hnodup : (((sampledChunks shuffler db.knowledge dataset.userId count seed).map
          Chunk.id).map fun id => [id.str]).Nodup := nodup_sampledChunks.map hstr
      rw [List.map_map] at hnodup
      rw [hids]
      exact hnodup
    · have hmem : case.expectedChunkIds ∈
          (sampledChunks shuffler db.knowledge dataset.userId count seed).map fun chunk =>
            [chunk.id.str] := by
        rw [← hids]
        exact List.mem_map_of_mem hcase
      obtain ⟨chunk, hchunk, hid⟩ := List.mem_map.mp hmem
      exact ⟨chunk, mem_eligible_of_sampled hchunk, hid.symm⟩

end Cases

section Offline

variable {K : Type} (db : EvalDatabase K) (shuffler : Shuffler) (stream : Nat) (now : Timestamp)

open DeterministicQuestionGenerator

theorem validatedQuestion_generate_iff (chunk : Chunk) :
    (∃ question, validatedQuestion generate chunk = .ok question) ↔ Acceptable chunk.text := by
  have hvalidated : validatedQuestion generate chunk =
      validateGeneratedQuestion (question (anchor chunk.text)) := by
    rw [validatedQuestion, generate_eq]
    exact pure_bind _ validateGeneratedQuestion
  rw [hvalidated, validate_question_iff, anchor_plain_iff]

theorem offlineQuestions_accepted_iff :
    (∀ chunkText, PassesItsGate chunkText ↔ Acceptable chunkText) ∧
      ∀ (datasetId : Uuid) (dataset : EvalDataset) (count seed : Int),
        db.datasets.get? datasetId = some dataset → 1 ≤ count →
          count ≤ (eligibleChunks db.knowledge dataset.userId).length →
          (CreatesCases db shuffler generate stream now datasetId dataset.userId count seed ↔
            ∀ chunk ∈ sampledChunks shuffler db.knowledge dataset.userId count seed,
              Acceptable chunk.text) := by
  refine ⟨passesItsGate_iff, fun datasetId dataset count seed hdataset hcount henough => ?_⟩
  rw [createsCases_iff hdataset hcount henough]
  exact forall₂_congr fun chunk _ => validatedQuestion_generate_iff chunk

theorem not_passesItsGate_crossedOut : ¬ ∀ chunkText, PassesItsGate chunkText := by
  intro h
  have haccepted := (passesItsGate_iff _).mp (h "上这段述内容很重要的句子".toList)
  exact absurd haccepted (by decide +kernel)

example : validateGeneratedQuestion (question (anchor "上这段述内容很重要的句子".toList)) =
    .error forbiddenReference := by decide +kernel

example : validateGeneratedQuestion (question (anchor "本文讲了什么是向量数据库索引".toList)) =
    .error tooBroad := by decide +kernel

end Offline

def offlineDataset : EvalDataset where
  id := ⟨2, 0⟩
  userId := libraryUser
  version := "v1".toList
  caseCount := 0

def offlineDatabase : EvalDatabase Rat where
  knowledge := libraryDatabase.applyAll
    [.insertChunk ⟨⟨0, 8⟩, ⟨0, 1⟩, ⟨0, 5⟩, 1, "索引重建失败时先回滚再告警。".toList, 1, some [3], none,
      none⟩]
  datasets := ⟨[offlineDataset], by decide⟩
  cases := .empty
  runs := .empty
  results := .empty

def keepOrder : Shuffler where
  shuffle _ chunks := chunks
  perm _ chunks := List.Perm.refl chunks

theorem offlineQuestions_accepted_library :
    CreatesCases offlineDatabase keepOrder DeterministicQuestionGenerator.generate 3 0 offlineDataset.id
      libraryUser 3 5 :=
  ((offlineQuestions_accepted_iff offlineDatabase keepOrder 3 0).2 offlineDataset.id offlineDataset 3 5
    (by decide) (by decide) (by decide +kernel)).mpr (by decide +kernel)

end YCStudio
