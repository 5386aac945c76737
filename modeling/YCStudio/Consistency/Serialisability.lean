import YCStudio.Consistency.FailureAtomicity
import YCStudio.Consistency.Versions

namespace YCStudio

open SharedStore

namespace Committed

def world (committed : Committed) (session : Session) : World where
  database := committed.database
  files := committed.files
  session

end Committed

section Alone

theorem run_serveCommitted {α : Type} (program : Program α) (committed : Committed)
    (session : Session) :
    program.run (fun op s => serveCommitted op s.1 s.2) (committed, session) =
      ((exec program (committed.world session)).1,
        ⟨(exec program (committed.world session)).2.database,
          (exec program (committed.world session)).2.files⟩,
        (exec program (committed.world session)).2.session) := by
  induction program generalizing committed session with
  | done result => rfl
  | ask op next ih => exact ih _ _ _

def IngestRequest.perform (request : IngestRequest) (committed : Committed) :
    Except Exn IngestAnswer × Committed :=
  SharedStore.perform readCommitted program session request committed

theorem IngestRequest.perform_eq (request : IngestRequest) (committed : Committed) :
    request.perform committed =
      ((exec request.program (committed.world request.session)).1,
        ⟨(exec request.program (committed.world request.session)).2.database,
          (exec request.program (committed.world request.session)).2.files⟩) := by
  have hrun := run_serveCommitted request.program committed request.session
  change request.program.run (fun op s => readCommitted.serve op s.1 s.2) _ = _ at hrun
  rw [perform, SharedStore.perform, hrun]

theorem exec_return {α β : Type} (program : Program α) (f : α → β) (w : World) :
    (exec (program >>= fun a => pure (f a)) w).2 = (exec program w).2 := by
  change ((program >>= fun a => pure (f a)).run serve w).2 = (program.run serve w).2
  rw [Script.run_bind]
  rcases program.run serve w with ⟨e | a, w'⟩ <;> rfl

theorem IngestRequest.ends (request : IngestRequest) {w : World} (hready : w.Ready) :
    ∃ events, w.Ends (exec request.program w).2 events := by
  obtain ⟨call, stream, now⟩ := request
  cases call with
  | upload rt user collectionId kind filename fileBytes metadata =>
    obtain ⟨events, hends, _⟩ :=
      ingestPrivateUpload_ends hready rt filename fileBytes metadata user collectionId kind
    refine ⟨events, ?_⟩
    rw [← exec_return _ IngestAnswer.uploaded] at hends
    exact hends
  | job rt sourceId =>
    obtain ⟨events, hends, _⟩ := ingestSource_ends hready rt sourceId
    refine ⟨events, ?_⟩
    rw [← exec_return _ IngestAnswer.worked] at hends
    exact hends
  | removal rt user sourceId =>
    obtain ⟨events, hends, _⟩ := deleteSource_ends hready rt user sourceId
    refine ⟨events, ?_⟩
    rw [← exec_return _ fun _ => IngestAnswer.removed] at hends
    exact hends

end Alone

structure Committed.Ready (committed : Committed) (requests : List IngestRequest) : Prop where
  intact : committed.database.Intact
  versions : committed.database.SingleVersioned
  fresh : ∀ request ∈ requests, committed.database.Before request.stream 0

theorem Committed.Ready.perform {committed : Committed} {request : IngestRequest}
    {requests : List IngestRequest} (h : committed.Ready (request :: requests))
    (hstreams : ∀ other ∈ requests, other.stream ≠ request.stream) :
    (request.perform committed).2.Ready requests := by
  obtain ⟨hfresh, hlater⟩ := List.forall_mem_cons.mp h.fresh
  have hready : (committed.world request.session).Ready := ⟨⟨h.intact, hfresh⟩, rfl, rfl⟩
  obtain ⟨events, hends⟩ := request.ends hready
  rw [IngestRequest.perform_eq]
  generalize exec request.program (committed.world request.session) = out at hends
  obtain ⟨result, w'⟩ := out
  cases hends with
  | discarded hdatabase hrefused =>
    dsimp only at hdatabase ⊢
    rw [hdatabase]
    exact ⟨h.intact, h.versions, hlater⟩
  | committed hfollows =>
    have hview := hfollows.view
    have hadmissible : Event.Admissible events committed.database := hfollows.admissible
    refine ⟨hfollows.ready.sound.intact, ?_, fun other hother => ?_⟩
    · change Database.SingleVersioned (World.view _)
      rw [hview]
      exact h.versions.play h.intact hadmissible
    · change Database.Before (World.view _) other.stream 0
      rw [hview]
      refine (hlater other hother).play hadmissible fun e he id hid hstream => ?_
      exact absurd (hstream.symm.trans (hfollows.drawn e he id hid)) (hstreams other hother)

namespace IngestSystem

abbrev Entry := IngestRequest × Except Exn IngestAnswer

def enter (committed : Committed) (requests : List IngestRequest) : IngestSystem :=
  System.enter readCommitted IngestRequest.program IngestRequest.session committed requests

def InSequence (before : Committed) (entries : List Entry) (after : Committed) : Prop :=
  Serially readCommitted IngestRequest.program IngestRequest.session before entries after

def Serialises (committed : Committed) (system : IngestSystem) (entries : List Entry) : Prop :=
  InSequence committed entries system.shared ∧ system.answers.Perm entries

theorem InSequence.singleVersioned {before after : Committed} {entries : List Entry}
    (h : InSequence before entries after) (hready : before.Ready (entries.map Prod.fst))
    (hstreams : (entries.map fun entry => entry.1.stream).Nodup) :
    after.database.SingleVersioned := by
  induction entries generalizing before with
  | nil =>
    cases h
    exact hready.versions
  | cons entry entries ih =>
    obtain ⟨hhead, hrest⟩ := List.nodup_cons.mp hstreams
    refine ih h.2 (hready.perform fun other hother hsame => hhead ?_) hrest
    obtain ⟨later, hlater, rfl⟩ := List.mem_map.mp hother
    exact List.mem_map.mpr ⟨later, hlater, hsame⟩

variable {committed : Committed} {requests : List IngestRequest} {schedule later : List Nat}

theorem runAll_serialises (hcalm : History.Admissible System.step System.Calm (schedule ++ later)
      (enter committed requests)) :
    ∃ entries entries', Serialises committed ((enter committed requests).runAll schedule) entries ∧
      Serialises committed ((enter committed requests).runAll (schedule ++ later))
        (entries ++ entries') := by
  obtain ⟨entries, entries', hserially, hperm, hserially', hperm'⟩ :=
    System.serialisable_of_calm IngestRequest.concludes hcalm
  exact ⟨entries, entries', ⟨hserially, hperm⟩, hserially.append hserially',
    hperm'.trans (hperm.append_right entries')⟩

theorem map_call_runAll (committed : Committed) (requests : List IngestRequest)
    (schedule : List Nat) :
    ((enter committed requests).runAll schedule).clients.map Client.call = requests :=
  (System.map_call_runAll schedule _).trans (System.map_call_enter committed requests)

theorem sublist_answers (committed : Committed) (requests : List IngestRequest)
    (schedule : List Nat) :
    (((enter committed requests).runAll schedule).answers.map Prod.fst).Sublist requests := by
  have hsub := System.sublist_answers ((enter committed requests).runAll schedule)
  rw [map_call_runAll] at hsub
  exact hsub

theorem Serialises.perm_requests {entries : List Entry}
    (h : Serialises committed ((enter committed requests).runAll schedule) entries)
    (hanswered : ((enter committed requests).runAll schedule).Answered) :
    (entries.map Prod.fst).Perm requests := by
  have hcalls := hanswered.map_call
  rw [map_call_runAll] at hcalls
  rw [← hcalls]
  exact (h.2.map Prod.fst).symm

theorem Serialises.singleVersioned {entries : List Entry}
    (h : Serialises committed ((enter committed requests).runAll schedule) entries)
    (hready : committed.Ready requests) (hstreams : (requests.map IngestRequest.stream).Nodup) :
    ((enter committed requests).runAll schedule).shared.database.SingleVersioned := by
  have hsub := sublist_answers committed requests schedule
  have hperm := h.2.map Prod.fst
  refine h.1.singleVersioned ⟨hready.intact, hready.versions, fun request hrequest =>
    hready.fresh request (hsub.subset (hperm.mem_iff.mpr hrequest))⟩ ?_
  have hnodup := hstreams.sublist (hsub.map IngestRequest.stream)
  rw [List.map_map] at hnodup
  exact (h.2.map _).nodup_iff.mp hnodup

theorem runAll_serialisable
    (hcalm : History.Admissible System.step System.Calm (schedule ++ later)
      (enter committed requests)) :
    ∃ entries entries', Serialises committed ((enter committed requests).runAll schedule) entries ∧
      Serialises committed ((enter committed requests).runAll (schedule ++ later))
        (entries ++ entries') ∧
      (((enter committed requests).runAll schedule).Answered →
        (entries.map Prod.fst).Perm requests) ∧
      (committed.Ready requests → (requests.map IngestRequest.stream).Nodup →
        ∀ source ∈ ((enter committed requests).runAll schedule).shared.database.sources,
          (((enter committed requests).runAll schedule).shared.database.liveDocuments
            source.id).length ≤ 1) := by
  obtain ⟨entries, entries', hserialises, hlater⟩ := runAll_serialises hcalm
  refine ⟨entries, entries', hserialises, hlater, hserialises.perm_requests, ?_⟩
  intro hready hstreams source hsource
  exact (hserialises.singleVersioned hready hstreams source hsource).unique

end IngestSystem

section Retries

def failedUpload : Committed where
  database := (Operation.performAll
    [.createPrivateCollection Runtime.reliable sampleUser .rule "house".toList,
      .ingestPrivateUpload unreadableRuntime sampleUser sampleCollectionId .rule "rules.txt".toList
        [97] []] (.empty [sampleUser])).database
  files := []

def retry (stream : Nat) : IngestRequest where
  call := .upload Runtime.reliable sampleUser sampleCollectionId .rule "rules.txt".toList [97] []
  stream
  now := stream

namespace IngestSystem

-- The second retry is under way, but finds out about the file after the first one's commit.
theorem runAll_serialisable_overtaken :
    ∃ entries entries',
      Serialises failedUpload
        ((enter failedUpload [retry 2, retry 3]).runAll (1 :: List.replicate 16 0)) entries ∧
      Serialises failedUpload ((enter failedUpload [retry 2, retry 3]).runAll
        (1 :: List.replicate 16 0 ++ List.replicate 3 1)) (entries ++ entries') ∧
      (((enter failedUpload [retry 2, retry 3]).runAll (1 :: List.replicate 16 0)).Answered →
        (entries.map Prod.fst).Perm [retry 2, retry 3]) ∧
      (failedUpload.Ready [retry 2, retry 3] →
        ([retry 2, retry 3].map IngestRequest.stream).Nodup →
          ∀ source ∈ ((enter failedUpload [retry 2, retry 3]).runAll
              (1 :: List.replicate 16 0)).shared.database.sources,
            (((enter failedUpload [retry 2, retry 3]).runAll
              (1 :: List.replicate 16 0)).shared.database.liveDocuments source.id).length ≤ 1) :=
  runAll_serialisable (by decide +kernel)

-- Both retries find the file failed; the second deletes its documents before the first commits.
def retriedTwice : IngestSystem :=
  (enter failedUpload [retry 2, retry 3]).runAll
    ([0, 0, 0, 1, 1, 1, 0, 0, 1] ++ List.replicate 11 0 ++ List.replicate 12 1)

def skippedRetry : Except Exn IngestAnswer :=
  .ok (.uploaded { sourceId := ⟨1, 0⟩, documentId := none, chunkCount := 0, skipped := true })

theorem not_serialisable_retriedTwice :
    retriedTwice.Answered ∧ (¬ ∃ entries, Serialises failedUpload retriedTwice entries) ∧
      ∃ source ∈ retriedTwice.shared.database.sources.rows,
        (retriedTwice.shared.database.liveDocuments source.id).length = 2 := by
  have hanswered : retriedTwice.Answered := by decide +kernel
  refine ⟨hanswered, ?_, by decide +kernel⟩
  rintro ⟨entries, hserialises⟩
  have hrequests : (entries.map Prod.fst).Perm [retry 2, retry 3] :=
    hserialises.perm_requests hanswered
  have hlength : entries.length = 2 := by
    rw [← List.length_map]
    exact hrequests.length_eq
  obtain ⟨first, second, rfl⟩ := List.length_eq_two.mp hlength
  -- In either order the second retry finds the file completed.
  have hskipped : (second.1.perform (first.1.perform failedUpload).2).1 = skippedRetry := by
    rcases List.mem_pair.mp (hrequests.subset List.mem_cons_self) with hfirst | hfirst
    · rw [List.map_cons, hfirst] at hrequests
      have hlast : second.1 = retry 3 :=
        (List.cons.inj (List.perm_singleton.mp hrequests.cons_inv)).1
      rw [hfirst, hlast]
      decide +kernel
    · rw [List.map_cons, hfirst] at hrequests
      have hlast : second.1 = retry 2 :=
        (List.cons.inj (List.perm_singleton.mp (hrequests.trans (.swap _ _ _)).cons_inv)).1
      rw [hfirst, hlast]
      decide +kernel
  have hanswers : ∀ result ∈ retriedTwice.answers.map Prod.snd, result ≠ skippedRetry := by
    decide +kernel
  have hsecond : second ∈ retriedTwice.answers := hserialises.2.mem_iff.mpr (by simp)
  exact hanswers _ (List.mem_map_of_mem hsecond) (hserialises.1.2.1.symm.trans hskipped)

end IngestSystem

end Retries

end YCStudio
