import YCStudio.Evaluation.RunStore
import YCStudio.Library.History
import YCStudio.Library.JobBoard
import YCStudio.Tasks.Worker

namespace YCStudio

inductive GenerationMode where
  | http
  | offline
  deriving DecidableEq, Repr

structure SyntheticGenerationRequest where
  count : Nat
  seed : Nat
  mode : GenerationMode
  count_pos : 1 ≤ count
  count_le : count ≤ 80

-- What enqueue_job passes on to generate_eval_dataset.
structure GenerationJob where
  datasetId : Uuid
  count : Nat
  seed : Nat
  mode : GenerationMode
  deriving DecidableEq, Repr

def GenerationJob.jobId (job : GenerationJob) : Str :=
  "eval-dataset:".toList ++ (job.datasetId.str ++ ':' :: ((Nat.repr job.seed).toList ++
    ':' :: (Nat.repr job.count).toList))

structure SyntheticGenerationAccepted where
  datasetId : Uuid
  status : Str
  count : Nat
  deriving DecidableEq, Repr

structure HttpException where
  statusCode : Nat
  detail : Str
  deriving DecidableEq, Repr

-- Redis raises in create_pool or before the job is stored, or in enqueue_job or aclose after it.
inductive RedisFault where
  | unreachable
  | afterStore
  deriving DecidableEq, Repr

structure GenerationSystem where
  datasets : Table EvalDataset.id
  board : JobBoard Str GenerationJob

def generationNotQueued : HttpException where
  statusCode := 503
  detail :=
    "Dataset generation could not be queued; retry when the worker is available.".toList

def ownedDataset (datasets : Table EvalDataset.id) (datasetId userId : Uuid) :
    Except HttpException EvalDataset :=
  match datasets.get? datasetId with
  | none => .error { statusCode := 404, detail := "Evaluation dataset was not found".toList }
  | some dataset =>
      if dataset.userId ≠ userId then
        .error { statusCode := 403, detail := "Only the dataset owner may access it".toList }
      else .ok dataset

def SyntheticGenerationRequest.job (request : SyntheticGenerationRequest) (datasetId : Uuid) :
    GenerationJob where
  datasetId
  count := request.count
  seed := request.seed
  mode := request.mode

namespace GenerationSystem

def empty : GenerationSystem where
  datasets := .empty
  board := .empty

variable (s : GenerationSystem)

def enqueueJob (job : GenerationJob) : GenerationSystem :=
  { s with board := s.board.post job.jobId job }

def enqueueSyntheticGeneration (datasetId : Uuid) (request : SyntheticGenerationRequest)
    (currentUserId : Uuid) (fault : Option RedisFault) :
    Except HttpException SyntheticGenerationAccepted × GenerationSystem :=
  match ownedDataset s.datasets datasetId currentUserId, fault with
  | .error e, _ => (.error e, s)
  | .ok _, some .unreachable => (.error generationNotQueued, s)
  | .ok _, some .afterStore =>
      (.error generationNotQueued, s.enqueueJob (request.job datasetId))
  | .ok _, none =>
      (.ok { datasetId, status := "queued".toList, count := request.count },
        s.enqueueJob (request.job datasetId))

end GenerationSystem

-- generate_eval_dataset writes cases and counts them, and leaves the queue to arq.
inductive GenerationStep where
  | createDataset (dataset : EvalDataset)
  | enqueueSyntheticGeneration (datasetId : Uuid) (request : SyntheticGenerationRequest) (currentUserId : Uuid)
      (fault : Option RedisFault)
  | startJob (jobId : Str)
  | leaveJob (jobId : Str)
  | finishJob (jobId : Str)
  | expireResult (jobId : Str)
  | restartWorker

def GenerationStep.apply : GenerationStep → GenerationSystem → GenerationSystem
  | .createDataset dataset, s => { s with datasets := s.datasets.insert dataset }
  | .enqueueSyntheticGeneration datasetId request currentUserId fault, s =>
      (s.enqueueSyntheticGeneration datasetId request currentUserId fault).2
  | .startJob jobId, s =>
      { s with board := s.board.advance (some ∘ JobState.start maxTries) jobId }
  | .leaveJob jobId, s => { s with board := s.board.advance (some ∘ JobState.leave) jobId }
  | .finishJob jobId, s => { s with board := s.board.advance (some ∘ JobState.finish) jobId }
  | .expireResult jobId, s => { s with board := s.board.advance JobState.expire jobId }
  | .restartWorker, s => { s with board := s.board.restart }

theorem GenerationJob.jobId_inj {job job' : GenerationJob} :
    job.jobId = job'.jobId ↔
      job.datasetId = job'.datasetId ∧ job.seed = job'.seed ∧ job.count = job'.count := by
  constructor
  · intro h
    have hcolon (n : Nat) : ':' ∉ (Nat.repr n).toList := not_mem_repr (by decide) n
    have hstr (id : Uuid) : ':' ∉ id.str := Uuid.not_mem_str (by decide) (by decide) id
    unfold jobId at h
    have hfields := (List.append_right_inj _).mp h
    obtain ⟨hdataset, hfields⟩ := Trim.append_cons_inj (hstr _) (hstr _) hfields
    obtain ⟨hseed, hcount⟩ := Trim.append_cons_inj (hcolon _) (hcolon _) hfields
    exact ⟨Uuid.str_injective hdataset, toList_repr_injective hseed, toList_repr_injective hcount⟩
  · rintro ⟨hdataset, hseed, hcount⟩
    unfold jobId
    rw [hdataset, hseed, hcount]

namespace GenerationSystem

variable (s : GenerationSystem)

def Keyed : Prop := s.board.Keyed GenerationJob.jobId

def Caused (after : GenerationSystem) (job : GenerationJob) : Prop :=
  (s.board job.jobId = none ∧
    after.board job.jobId = some { payload := job, state := .queued 0 }) ∨
  s.board.Carries job.jobId (· = job)

def Honours : GenerationStep → Prop
  | .enqueueSyntheticGeneration datasetId request currentUserId fault =>
      match s.enqueueSyntheticGeneration datasetId request currentUserId fault with
      | (.ok _, after) => s.Caused after (request.job datasetId)
      | (.error _, _) => True
  | _ => True

instance (after : GenerationSystem) (job : GenerationJob) : Decidable (s.Caused after job) :=
  inferInstanceAs (Decidable (_ ∨ _))

instance (step : GenerationStep) : Decidable (s.Honours step) := by
  unfold Honours
  split
  · split <;> infer_instance
  · infer_instance

def Owns (currentUserId datasetId : Uuid) : Prop :=
  ∃ dataset ∈ s.datasets.get? datasetId, dataset.userId = currentUserId

def Clear : GenerationStep → Prop
  | .enqueueSyntheticGeneration datasetId request currentUserId fault =>
      s.Owns currentUserId datasetId → fault = none →
        s.board (request.job datasetId).jobId = none ∨
          s.board.Carries (request.job datasetId).jobId (·.mode = request.mode)
  | _ => True

variable {s}

theorem keyed_empty : empty.Keyed := JobBoard.keyed_empty _

theorem Keyed.enqueueJob (h : s.Keyed) (job : GenerationJob) : (s.enqueueJob job).Keyed :=
  JobBoard.Keyed.post h job

theorem Keyed.apply (h : s.Keyed) (step : GenerationStep) : (step.apply s).Keyed := by
  cases step with
  | createDataset dataset => exact h
  | enqueueSyntheticGeneration datasetId request currentUserId fault =>
    change (s.enqueueSyntheticGeneration datasetId request currentUserId fault).2.Keyed
    unfold enqueueSyntheticGeneration
    split
    · exact h
    · exact h
    · exact h.enqueueJob _
    · exact h.enqueueJob _
  | startJob jobId => exact JobBoard.Keyed.advance h (some ∘ JobState.start maxTries) jobId
  | leaveJob jobId => exact JobBoard.Keyed.advance h (some ∘ JobState.leave) jobId
  | finishJob jobId => exact JobBoard.Keyed.advance h (some ∘ JobState.finish) jobId
  | expireResult jobId => exact JobBoard.Keyed.advance h JobState.expire jobId
  | restartWorker => exact JobBoard.Keyed.restart h

theorem ownedDataset_cases (s : GenerationSystem) (datasetId userId : Uuid) :
    (∃ e, ownedDataset s.datasets datasetId userId = .error e ∧ ¬ s.Owns userId datasetId) ∨
      ∃ dataset, ownedDataset s.datasets datasetId userId = .ok dataset ∧
        s.Owns userId datasetId := by
  unfold ownedDataset Owns
  cases hget : s.datasets.get? datasetId with
  | none => exact Or.inl ⟨_, rfl, by simp⟩
  | some dataset =>
    dsimp only
    split
    case isTrue hother => exact Or.inl ⟨_, rfl, by simpa using hother⟩
    case isFalse howner => exact Or.inr ⟨_, rfl, by simpa using howner⟩

theorem Keyed.caused_iff (h : s.Keyed) (job : GenerationJob) :
    s.Caused (s.enqueueJob job) job ↔
      s.board job.jobId = none ∨ s.board.Carries job.jobId (·.mode = job.mode) := by
  have hcarries : s.board.Carries job.jobId (· = job) ↔
      s.board.Carries job.jobId (·.mode = job.mode) := by
    apply JobBoard.Keyed.carries_congr h
    intro kept hkey
    obtain ⟨hdataset, hseed, hcount⟩ := GenerationJob.jobId_inj.mp hkey
    constructor
    · rintro rfl
      rfl
    · intro hmode
      cases kept
      cases job
      cases hdataset
      cases hseed
      cases hcount
      cases hmode
      rfl
  rw [Caused, hcarries]
  refine or_congr ⟨And.left, fun hfree => ⟨hfree, ?_⟩⟩ Iff.rfl
  exact JobBoard.post_of_none hfree job

theorem Keyed.honours_iff (h : s.Keyed) (step : GenerationStep) : s.Honours step ↔ s.Clear step := by
  cases step with
  | enqueueSyntheticGeneration datasetId request currentUserId fault =>
    simp only [Honours, Clear, enqueueSyntheticGeneration]
    obtain ⟨e, howned, hnot⟩ | ⟨dataset, howned, howns⟩ :=
      ownedDataset_cases s datasetId currentUserId
    · rw [howned]
      exact iff_of_true trivial fun howns => absurd howns hnot
    · rw [howned]
      cases fault with
      | none =>
        refine (h.caused_iff (request.job datasetId)).trans ?_
        exact ⟨fun hfree _ _ => hfree, fun hclear => hclear howns rfl⟩
      | some fault =>
        cases fault with
        | unreachable => exact iff_of_true trivial fun _ hfault => nomatch hfault
        | afterStore => exact iff_of_true trivial fun _ hfault => nomatch hfault
  | _ => exact Iff.rfl

abbrev HonoursAll (steps : List GenerationStep) : Prop :=
  History.Admissible GenerationStep.apply (fun step s => s.Honours step) steps empty

abbrev ClearAll (steps : List GenerationStep) : Prop :=
  History.Admissible GenerationStep.apply (fun step s => s.Clear step) steps empty

theorem honoursAll_iff_clearAll (steps : List GenerationStep) : HonoursAll steps ↔ ClearAll steps :=
  History.admissible_congr (fun step _ h => h.apply step) (fun step _ h => h.honours_iff step)
    keyed_empty

def sampleGeneration (mode : GenerationMode) : SyntheticGenerationRequest where
  count := 50
  seed := 0
  mode
  count_pos := by decide
  count_le := by decide

def datasetStep : GenerationStep := .createDataset ⟨⟨1, 0⟩, ⟨0, 0⟩, "v1".toList, 0⟩

def generationStep (mode : GenerationMode) : GenerationStep :=
  .enqueueSyntheticGeneration ⟨1, 0⟩ (sampleGeneration mode) ⟨0, 0⟩ none

def generationEnds : List GenerationStep :=
  let jobId := ((sampleGeneration .http).job ⟨1, 0⟩).jobId
  [.startJob jobId, .leaveJob jobId, .finishJob jobId]

theorem not_honoursAll_repeated :
    ¬ HonoursAll [datasetStep, generationStep .offline, generationStep .http] ∧
    ¬ HonoursAll ([datasetStep, generationStep .http] ++ generationEnds ++
      [generationStep .http]) := by
  decide +kernel

end GenerationSystem

end YCStudio
