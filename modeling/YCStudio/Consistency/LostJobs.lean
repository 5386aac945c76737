import YCStudio.Consistency.Awaiting
import YCStudio.Consistency.FailureAtomicity
import YCStudio.Tasks.Worker

namespace YCStudio

section Job

def jobOutcome (rt : Runtime) (server : Server) (sourceId : Uuid) :
    Option (Except Failure Ingested) :=
  match (server.database.sources.get? sourceId).filter (·.ingestStatus = .pending) with
  | none => none
  | some source =>
      match Query.answer server.database (.batch source.batchId),
          Query.answer server.database (.collection source.collectionId) with
      | some batch, some collection =>
          match (exec (readFile rt.readFault source.id (purePathName source.filename))
              server.connect).1 with
          | .error e => some (.error (.raised e))
          | .ok content =>
              some (Pipeline.outcome rt source collection source.filename content
                (some batch.uploadMetadata) none ⟨server.clock, 0⟩ server.clock)
      | _, _ => none

def LeavesStatus : Except Failure Ingested → Prop
  | .ok _ => True
  | .error failure => failure.Recorded

instance (outcome : Except Failure Ingested) : Decidable (LeavesStatus outcome) := by
  cases outcome <;> unfold LeavesStatus <;> infer_instance

def JobRecords (rt : Runtime) (server : Server) (sourceId : Uuid) : Prop :=
  ∀ outcome ∈ jobOutcome rt server sourceId, LeavesStatus outcome

instance (rt : Runtime) (server : Server) (sourceId : Uuid) :
    Decidable (JobRecords rt server sourceId) :=
  inferInstanceAs (Decidable (∀ outcome ∈ jobOutcome rt server sourceId, _))

theorem LeavesStatus.concludes {outcome : Except Failure Ingested} (h : LeavesStatus outcome)
    (source : Source) (collection : Collection) :
    ∃ e, settled [] source collection outcome = [e] ∧ e.Concludes source := by
  cases outcome with
  | ok out => exact ⟨_, rfl, .complete⟩
  | error failure => exact ⟨_, if_pos h, .fail⟩

theorem JobRecords.concludes {rt : Runtime} {server : Server} (hsound : server.Sound)
    {source : Source} (h : JobRecords rt server source.id)
    (hsource : server.database.sources.get? source.id = some source)
    (hpending : source.ingestStatus = .pending) :
    ∃ e, server.Follows (transact (ingestSource rt source.id) server).2 [e] ∧
      e.Concludes source := by
  have hready := hsound.ready
  have hfilter : (server.database.sources.get? source.id).filter (·.ingestStatus = .pending) =
      some source := by
    rw [hsource]
    exact Option.filter_some_pos (decide_eq_true hpending)
  rw [JobRecords, jobOutcome, hfilter] at h
  cases hbatch : Query.answer server.database (.batch source.batchId) with
  | none =>
    exact ⟨_, hsound.transact (ingestSource_abandons hready rt hsource hpending hbatch rfl
      (Or.inl rfl)), .fail⟩
  | some batch =>
    cases hcollection : Query.answer server.database (.collection source.collectionId) with
    | none =>
      exact ⟨_, hsound.transact (ingestSource_abandons hready rt hsource hpending hbatch hcollection
        (Or.inr rfl)), .fail⟩
    | some collection =>
      simp only [hbatch, hcollection] at h
      rcases Runs.readFile_cases rt.readFault server.connect source.id
        (purePathName source.filename) with ⟨e, hcontent⟩ | ⟨content, _, hcontent⟩
      · rw [hcontent] at h
        have hends := ingestSource_unreadable hready rt hsource hpending hbatch hcollection hcontent
        obtain ⟨event, hsettled, hconcludes⟩ := (h _ rfl).concludes source collection
        rw [hsettled] at hends
        exact ⟨event, hsound.transact hends, hconcludes⟩
      · rw [hcontent] at h
        have hends := ingestSource_settles hready rt hsource hpending hbatch hcollection hcontent
        obtain ⟨event, hsettled, hconcludes⟩ := (h _ rfl).concludes source collection
        refine ⟨event, hsound.transact ?_, hconcludes⟩
        rw [← hsettled]
        exact hends

theorem JobRecords.not_awaits {rt : Runtime} {server : Server} (hsound : server.Sound)
    {sourceId : Uuid} (h : JobRecords rt server sourceId) (batchId : Uuid) :
    ¬ (transact (ingestSource rt sourceId) server).2.database.Awaits sourceId batchId := by
  intro hawaits
  obtain ⟨events, hends, hworked⟩ := ingestSource_steps hsound.ready rt sourceId
  have hfollows := hsound.transact hends
  have hrecedes := Database.recedes_worked hworked hfollows.admissible
  have hbefore : server.database.Awaits sourceId batchId :=
    hrecedes.subsides sourceId batchId (hfollows.database ▸ hawaits)
  obtain ⟨source, hsource, rfl, hpending, _⟩ := hbefore
  obtain ⟨e, hfollows', hconcludes⟩ := h.concludes hsound (Table.get?_key hsource) hpending
  rw [hfollows'.database] at hawaits
  exact Database.not_awaits_concluded hfollows'.admissible.1 hconcludes batchId hawaits

end Job

inductive JobStep where
  | uploadBatch (rt : Runtime) (currentUserId collectionId : Uuid) (kind : CollectionKind)
      (metadata : List (Str × Str)) (uploads : List PendingUpload)
  | enqueueSource (index : Nat)
  | respond (index : Nat)
  | redisFails (index : Nat)
  | startJob (sourceId : Uuid)
  | runJob (rt : Runtime) (sourceId : Uuid)
  | timeOut (sourceId : Uuid)
  | finishJob (sourceId : Uuid)
  | expireResult (sourceId : Uuid)
  | restartWorker
  | operate (op : Operation)

def JobStep.apply : JobStep → JobSystem → JobSystem
  | uploadBatch rt user collectionId kind metadata uploads, s =>
      s.uploadBatch rt user collectionId kind metadata uploads
  | enqueueSource index, s => s.enqueueSource index
  | respond index, s => s.respond index
  | redisFails index, s => s.redisFails index
  | startJob sourceId, s => s.startJob sourceId
  | runJob rt sourceId, s => s.runJob rt sourceId
  | timeOut sourceId, s => s.timeOut sourceId
  | finishJob sourceId, s => s.finishJob sourceId
  | expireResult sourceId, s => s.expireResult sourceId
  | restartWorker, s => s.restartWorker
  | operate op, s => { s with server := op.perform s.server }

def Database.Pends (db : Database) (sourceId : Uuid) : Prop :=
  ∃ source ∈ db.sources, source.id = sourceId ∧ source.ingestStatus = .pending

instance (db : Database) (sourceId : Uuid) : Decidable (db.Pends sourceId) :=
  inferInstanceAs (Decidable (∃ source ∈ db.sources.rows, _))

theorem Database.Awaits.pends {db : Database} {sourceId batchId : Uuid}
    (h : db.Awaits sourceId batchId) : db.Pends sourceId := by
  obtain ⟨source, hsource, hid, hpending, _⟩ := h
  exact ⟨source, hsource, hid, hpending⟩

namespace JobSystem

def NoLostJob (s : JobSystem) : Prop :=
  ∀ sourceId, ∀ batchId ∈ s.answered, s.server.database.Awaits sourceId batchId →
    s.queue.Live sourceId

def Tends (s : JobSystem) : JobStep → Prop
  | .enqueueSource index =>
      ∀ enqueuer ∈ s.enqueuers[index]?, ∀ sourceId ∈ enqueuer.remaining.head?,
        ∀ batchId ∈ enqueuer.batchId, s.server.database.Awaits sourceId batchId →
          s.queue sourceId = none ∨ s.queue.Awaited sourceId
  | .startJob sourceId =>
      s.server.database.Pends sourceId → ¬ s.queue.Exhausted maxTries sourceId
  | .runJob rt sourceId => s.queue.Running sourceId → JobRecords rt s.server sourceId
  | .timeOut sourceId => s.server.database.Pends sourceId → ¬ s.queue.Running sourceId
  | _ => True

instance (s : JobSystem) (step : JobStep) : Decidable (s.Tends step) := by
  cases step <;> unfold Tends <;> infer_instance

def Promised (s : JobSystem) (sourceId batchId : Uuid) : Prop :=
  batchId ∈ s.answered ∨
    ∃ enqueuer ∈ s.enqueuers, enqueuer.batchId = some batchId ∧ sourceId ∉ enqueuer.remaining

structure Tended (s : JobSystem) : Prop where
  sound : s.server.Sound
  answered : ∀ batchId ∈ s.answered, batchId.stream < s.server.clock
  enqueuers : ∀ enqueuer ∈ s.enqueuers, ∀ batchId ∈ enqueuer.batchId,
    batchId.stream < s.server.clock
  awaited : ∀ sourceId batchId, s.server.database.Awaits sourceId batchId →
    s.Promised sourceId batchId → s.queue.Awaited sourceId

variable {s : JobSystem}

theorem Tended.empty (users : List Uuid) : (JobSystem.empty users).Tended where
  sound := .empty users
  answered _ h := absurd h List.not_mem_nil
  enqueuers _ h := absurd h List.not_mem_nil
  awaited _ _ hawaits := by
    obtain ⟨source, hsource, _⟩ := hawaits
    exact absurd hsource (Table.not_mem_empty source)

theorem Tended.noLostJob (h : s.Tended) : s.NoLostJob :=
  fun sourceId batchId hanswered hawaits =>
    (h.awaited sourceId batchId hawaits (Or.inl hanswered)).live

theorem Tended.past (h : s.Tended) {sourceId batchId : Uuid} (hpromised : s.Promised sourceId batchId) :
    batchId.stream < s.server.clock := by
  rcases hpromised with hanswered | ⟨enqueuer, henqueuer, hbatch, _⟩
  · exact h.answered batchId hanswered
  · exact h.enqueuers enqueuer henqueuer batchId hbatch

theorem Tended.perform (h : s.Tended) (op : Operation) :
    ({ s with server := op.perform s.server } : JobSystem).Tended := by
  obtain ⟨events, hfollows⟩ := Operation.follows h.sound op
  have hclock : s.server.clock < (op.perform s.server).clock := by
    rw [hfollows.clock]
    exact Nat.lt_succ_self _
  refine ⟨hfollows.sound, ?_, ?_, ?_⟩
  · exact fun batchId hbatch => (h.answered batchId hbatch).trans hclock
  · exact fun enqueuer henqueuer batchId hbatch =>
      (h.enqueuers enqueuer henqueuer batchId hbatch).trans hclock
  · intro sourceId batchId hawaits hpromised
    have hpromised : s.Promised sourceId batchId := hpromised
    rcases op.perform_awaits h.sound hawaits with hold | hnew
    · exact h.awaited sourceId batchId hold hpromised
    · exact absurd hnew (Nat.ne_of_lt (h.past hpromised))

theorem Tended.queue (h : s.Tended) {queue : JobQueue Uuid}
    (hkeeps : ∀ sourceId batchId, s.server.database.Awaits sourceId batchId →
      s.queue.Awaited sourceId → queue.Awaited sourceId) :
    ({ s with queue } : JobSystem).Tended where
  sound := h.sound
  answered := h.answered
  enqueuers := h.enqueuers
  awaited sourceId batchId hawaits hpromised :=
    hkeeps sourceId batchId hawaits (h.awaited sourceId batchId hawaits hpromised)

theorem Tended.uploadBatch (h : s.Tended) (rt : Runtime) (user collectionId : Uuid)
    (kind : CollectionKind) (metadata : List (Str × Str)) (uploads : List PendingUpload) :
    (s.uploadBatch rt user collectionId kind metadata uploads).Tended := by
  have hperformed := h.perform (.createPendingBatch rt user collectionId kind metadata uploads)
  obtain ⟨events, hends, hshape⟩ :=
    uploadBatch_ends h.sound.ready rt metadata uploads user collectionId kind
  have hfollows := h.sound.transact hends
  have hresult : (exec (YCStudio.uploadBatch rt user collectionId kind metadata uploads)
    s.server.connect).1 = (transact (YCStudio.uploadBatch rt user collectionId kind metadata uploads)
      s.server).1 := rfl
  rw [hresult] at hshape
  rw [JobSystem.uploadBatch]
  rw [Operation.perform] at hperformed
  generalize transact (YCStudio.uploadBatch rt user collectionId kind metadata uploads) s.server =
    outcome at hperformed hfollows hshape ⊢
  obtain ⟨r, server⟩ := outcome
  cases r with
  | error e => exact hperformed
  | ok created =>
    obtain ⟨batch, sources⟩ := created
    have hfresh : batch.id.stream = s.server.clock := by
      rcases hshape with ⟨e, he, _⟩ | ⟨collection, batch', sources', groups, _, _, heq, rfl, _⟩
      · cases he
      · cases heq
        exact hfollows.drawn _ List.mem_cons_self _ List.mem_cons_self
    refine ⟨hperformed.sound, hperformed.answered, ?_, ?_⟩
    · intro enqueuer henqueuer batchId hbatch
      rcases List.mem_append.mp henqueuer with hold | hnew
      · exact hperformed.enqueuers enqueuer hold batchId hbatch
      · rw [List.mem_singleton.mp hnew] at hbatch
        obtain rfl : batch.id = batchId := Option.some.inj hbatch
        have hclock : server.clock = s.server.clock + 1 := hfollows.clock
        exact hfresh ▸ hclock ▸ Nat.lt_succ_self _
    · intro sourceId batchId hawaits hpromised
      rcases hpromised with hanswered | ⟨enqueuer, henqueuer, hbatch, hthrough⟩
      · exact hperformed.awaited sourceId batchId hawaits (Or.inl hanswered)
      · rcases List.mem_append.mp henqueuer with hold | hnew
        · exact hperformed.awaited sourceId batchId hawaits
            (Or.inr ⟨enqueuer, hold, hbatch, hthrough⟩)
        · rw [List.mem_singleton.mp hnew] at hbatch hthrough
          obtain rfl : batch.id = batchId := Option.some.inj hbatch
          have hplayed := hfollows.database ▸ hawaits
          rcases hshape.awaits hfollows.admissible hplayed with ⟨source, hsource, _, _, hof⟩ | ⟨hid, _⟩
          · obtain ⟨old, hold, hid⟩ := h.sound.intact.sourceBatches source hsource batch.id hof
            have hpast := h.sound.past.batches old hold
            rw [hid, hfresh] at hpast
            exact absurd hpast (Nat.lt_irrefl _)
          · exact absurd hid hthrough

theorem Tended.enqueueSource (h : s.Tended) {index : Nat} (htends : s.Tends (.enqueueSource index)) :
    (s.enqueueSource index).Tended := by
  rw [JobSystem.enqueueSource]
  split
  case h_1 batchId sourceId remaining hget =>
    have hmem : ({ batchId, remaining := sourceId :: remaining } : Enqueuer) ∈ s.enqueuers :=
      List.mem_of_getElem? hget
    refine ⟨h.sound, h.answered, ?_, ?_⟩
    · intro enqueuer henqueuer batchId' hbatch
      rcases List.mem_or_eq_of_mem_set henqueuer with hold | rfl
      · exact h.enqueuers enqueuer hold batchId' hbatch
      · exact h.enqueuers _ hmem batchId' hbatch
    · intro sourceId' batchId' hawaits hpromised
      rcases hpromised with hanswered | ⟨enqueuer, henqueuer, hbatch, hthrough⟩
      · exact (h.awaited sourceId' batchId' hawaits (Or.inl hanswered)).enqueue sourceId
      · rcases List.mem_or_eq_of_mem_set henqueuer with hold | rfl
        · exact (h.awaited sourceId' batchId' hawaits
            (Or.inr ⟨enqueuer, hold, hbatch, hthrough⟩)).enqueue sourceId
        · by_cases hid : sourceId' = sourceId
          · subst hid
            exact JobQueue.awaited_enqueue_self
              (htends _ hget sourceId' rfl batchId' hbatch hawaits)
          · have hthrough' : sourceId' ∉ sourceId :: remaining := by
              simp only [List.mem_cons, hid, false_or]
              exact hthrough
            exact (h.awaited sourceId' batchId' hawaits
              (Or.inr ⟨_, hmem, hbatch, hthrough'⟩)).enqueue sourceId
  case h_2 => exact h

theorem Tended.respond (h : s.Tended) (index : Nat) : (s.respond index).Tended := by
  rw [JobSystem.respond]
  split
  case h_1 batchId hget =>
    have hmem : ({ batchId, remaining := [] } : Enqueuer) ∈ s.enqueuers := List.mem_of_getElem? hget
    refine ⟨h.sound, ?_, ?_, ?_⟩
    · intro batchId' hbatch
      rcases List.mem_append.mp hbatch with hnew | hold
      · exact h.enqueuers _ hmem batchId' (Option.mem_toList.mp hnew)
      · exact h.answered batchId' hold
    · exact fun enqueuer henqueuer => h.enqueuers enqueuer (List.mem_of_mem_eraseIdx henqueuer)
    · intro sourceId batchId' hawaits hpromised
      apply h.awaited sourceId batchId' hawaits
      rcases hpromised with hanswered | ⟨enqueuer, henqueuer, hbatch, hthrough⟩
      · rcases List.mem_append.mp hanswered with hnew | hold
        · exact Or.inr ⟨_, hmem, Option.mem_toList.mp hnew, List.not_mem_nil⟩
        · exact Or.inl hold
      · exact Or.inr ⟨enqueuer, List.mem_of_mem_eraseIdx henqueuer, hbatch, hthrough⟩
  case h_2 => exact h

theorem Tended.redisFails (h : s.Tended) (index : Nat) : (s.redisFails index).Tended where
  sound := h.sound
  answered := h.answered
  enqueuers enqueuer henqueuer := h.enqueuers enqueuer (List.mem_of_mem_eraseIdx henqueuer)
  awaited sourceId batchId hawaits hpromised := by
    apply h.awaited sourceId batchId hawaits
    rcases hpromised with hanswered | ⟨enqueuer, henqueuer, hbatch, hthrough⟩
    · exact Or.inl hanswered
    · exact Or.inr ⟨enqueuer, List.mem_of_mem_eraseIdx henqueuer, hbatch, hthrough⟩

theorem Tended.runJob (h : s.Tended) {rt : Runtime} {sourceId : Uuid}
    (htends : s.Tends (.runJob rt sourceId)) : (s.runJob rt sourceId).Tended := by
  rw [JobSystem.runJob]
  split
  case isTrue hrunning =>
    have hperformed := h.perform (.ingestSource rt sourceId)
    apply hperformed.queue
    intro sourceId' batchId hawaits hawaited
    apply JobQueue.Awaited.leave hawaited
    rintro rfl
    exact absurd hawaits ((htends hrunning).not_awaits h.sound batchId)
  case isFalse => exact h

theorem Tended.restartWorker (h : s.Tended) : s.restartWorker.Tended := by
  have hperformed := h.perform .recoverPendingSources
  rw [Operation.perform] at hperformed
  rw [JobSystem.restartWorker]
  generalize transact recoverPendingSources s.server = outcome at hperformed ⊢
  obtain ⟨r, server⟩ := outcome
  have hrestarted := @Tended.queue _ hperformed s.queue.restart
    fun sourceId batchId _ hawaited => JobQueue.Awaited.restart hawaited
  cases r with
  | error e => exact hrestarted
  | ok sourceIds =>
    refine ⟨hrestarted.sound, hrestarted.answered, ?_, ?_⟩
    · intro enqueuer henqueuer batchId hbatch
      rcases List.mem_append.mp henqueuer with hold | hnew
      · exact hrestarted.enqueuers enqueuer hold batchId hbatch
      · rw [List.mem_singleton.mp hnew] at hbatch
        cases hbatch
    · intro sourceId batchId hawaits hpromised
      apply hrestarted.awaited sourceId batchId hawaits
      rcases hpromised with hanswered | ⟨enqueuer, henqueuer, hbatch, hthrough⟩
      · exact Or.inl hanswered
      · rcases List.mem_append.mp henqueuer with hold | hnew
        · exact Or.inr ⟨enqueuer, hold, hbatch, hthrough⟩
        · rw [List.mem_singleton.mp hnew] at hbatch
          cases hbatch

theorem Tended.step (h : s.Tended) (step : JobStep) (htends : s.Tends step) :
    (step.apply s).Tended := by
  cases step with
  | uploadBatch rt user collectionId kind metadata uploads =>
    exact h.uploadBatch rt user collectionId kind metadata uploads
  | enqueueSource index => exact h.enqueueSource htends
  | respond index => exact h.respond index
  | redisFails index => exact h.redisFails index
  | runJob rt sourceId => exact h.runJob htends
  | restartWorker => exact h.restartWorker
  | operate op => exact h.perform op
  | startJob sourceId =>
    apply h.queue
    intro sourceId' batchId hawaits hawaited
    apply JobQueue.Awaited.start hawaited
    rintro rfl
    exact htends hawaits.pends
  | timeOut sourceId =>
    apply h.queue
    intro sourceId' batchId hawaits hawaited
    apply JobQueue.Awaited.leave hawaited
    rintro rfl
    exact htends hawaits.pends
  | finishJob sourceId =>
    exact h.queue fun _ _ _ hawaited => JobQueue.Awaited.finish hawaited sourceId
  | expireResult sourceId =>
    exact h.queue fun _ _ _ hawaited => JobQueue.Awaited.expire hawaited sourceId

abbrev runAll (steps : List JobStep) (s : JobSystem) : JobSystem :=
  History.play JobStep.apply steps s

theorem runAll_noLostJob {users : List Uuid} {steps : List JobStep}
    (h : History.Admissible JobStep.apply (fun step s => s.Tends step) steps (.empty users)) :
    (runAll steps (.empty users)).NoLostJob := by
  have hstep : ∀ step s, Tended s → s.Tends step → (step.apply s).Tended :=
    fun step _ htended htends => htended.step step htends
  have htended : (runAll steps (.empty users)).Tended := History.preserved hstep (.empty users) h
  exact htended.noLostJob

def sampleUploadStep (rt : Runtime) : JobStep :=
  .uploadBatch rt sampleUser sampleCollectionId .rule []
    [{ filename := "rules.txt".toList, fileBytes := [97], dirPath := none }]

def failedUpload : List JobStep :=
  [.operate (.createPrivateCollection Runtime.reliable sampleUser .rule "house".toList),
    sampleUploadStep Runtime.reliable, .enqueueSource 0, .respond 0, .startJob ⟨1, 1⟩,
    .runJob unreadableRuntime ⟨1, 1⟩, .finishJob ⟨1, 1⟩]

def retriedUpload : List JobStep :=
  [sampleUploadStep Runtime.reliable, .enqueueSource 0, .respond 0]

theorem runAll_noLostJob_expired :
    (runAll (failedUpload ++ .expireResult ⟨1, 1⟩ :: retriedUpload ++
      [.restartWorker, .startJob ⟨1, 1⟩]) (.empty [sampleUser])).NoLostJob :=
  runAll_noLostJob (by decide +kernel)

-- The retry keeps the source id, so the retained result of the failed job swallows its new job.
theorem not_noLostJob_retried :
    ¬ (runAll (failedUpload ++ retriedUpload) (.empty [sampleUser])).NoLostJob := by
  have hlost : ∃ batchId ∈ (runAll (failedUpload ++ retriedUpload) (.empty [sampleUser])).answered,
      (runAll (failedUpload ++ retriedUpload) (.empty [sampleUser])).server.database.Awaits
          ⟨1, 1⟩ batchId ∧
        ¬ (runAll (failedUpload ++ retriedUpload) (.empty [sampleUser])).queue.Live ⟨1, 1⟩ := by
    decide +kernel
  obtain ⟨batchId, hanswered, hawaits, hdead⟩ := hlost
  exact fun h => hdead (h ⟨1, 1⟩ batchId hanswered hawaits)

end JobSystem

end YCStudio
