import Mathlib.Logic.Function.Basic

inductive JobState where
  | queued (tries : Nat)
  | running (tries : Nat)
  | returned (tries : Nat)
  | retained
  deriving DecidableEq, Repr

namespace JobState

def start (maxTries : Nat) : JobState → JobState
  | queued tries => if tries < maxTries then running (tries + 1) else retained
  | state => state

def leave : JobState → JobState
  | running tries => returned tries
  | state => state

def finish : JobState → JobState
  | returned _ => retained
  | state => state

def expire : JobState → Option JobState
  | retained => none
  | state => some state

-- Jobs stay queued until they have ended, so a worker that stops leaves them to the next one.
def requeue : JobState → JobState
  | running tries => queued tries
  | returned tries => queued tries
  | state => state

def Live : JobState → Prop
  | retained => False
  | _ => True

def Awaited : JobState → Prop
  | queued _ => True
  | running _ => True
  | _ => False

def Running : JobState → Prop
  | running _ => True
  | _ => False

def Exhausted (maxTries : Nat) : JobState → Prop
  | queued tries => maxTries ≤ tries
  | _ => False

instance : DecidablePred Live := fun state => by
  cases state <;> unfold Live <;> infer_instance

instance : DecidablePred Awaited := fun state => by
  cases state <;> unfold Awaited <;> infer_instance

instance : DecidablePred Running := fun state => by
  cases state <;> unfold Running <;> infer_instance

instance (maxTries : Nat) : DecidablePred (Exhausted maxTries) := fun state => by
  cases state <;> unfold Exhausted <;> infer_instance

variable {state : JobState}

theorem Awaited.live (h : state.Awaited) : state.Live := by
  cases state with
  | queued tries => trivial
  | running tries => trivial
  | returned tries => exact h.elim
  | retained => exact h.elim

theorem Awaited.start {maxTries : Nat} (h : state.Awaited) (htries : ¬ state.Exhausted maxTries) :
    (state.start maxTries).Awaited := by
  cases state with
  | queued tries =>
    have hlt : tries < maxTries := Nat.lt_of_not_le htries
    rw [JobState.start, if_pos hlt]
    trivial
  | running tries => trivial
  | returned tries => exact h.elim
  | retained => exact h.elim

theorem Awaited.leave (h : state.Awaited) (hidle : ¬ state.Running) : state.leave.Awaited := by
  cases state with
  | queued tries => trivial
  | running tries => exact absurd trivial hidle
  | returned tries => exact h.elim
  | retained => exact h.elim

theorem Awaited.finish (h : state.Awaited) : state.finish.Awaited := by
  cases state with
  | queued tries => trivial
  | running tries => trivial
  | returned tries => exact h.elim
  | retained => exact h.elim

theorem Awaited.expire (h : state.Awaited) : ∃ state' ∈ state.expire, state'.Awaited := by
  cases state with
  | queued tries => exact ⟨_, rfl, trivial⟩
  | running tries => exact ⟨_, rfl, trivial⟩
  | returned tries => exact h.elim
  | retained => exact h.elim

theorem Awaited.requeue (h : state.Awaited) : state.requeue.Awaited := by
  cases state with
  | queued tries => trivial
  | running tries => trivial
  | returned tries => exact h.elim
  | retained => exact h.elim

end JobState

abbrev JobQueue (κ : Type) := κ → Option JobState

namespace JobQueue

variable {κ : Type}

def empty : JobQueue κ := fun _ => none

def Holds (queue : JobQueue κ) (p : JobState → Prop) (id : κ) : Prop := ∃ state ∈ queue id, p state

abbrev Live (queue : JobQueue κ) (id : κ) : Prop := queue.Holds JobState.Live id

abbrev Awaited (queue : JobQueue κ) (id : κ) : Prop := queue.Holds JobState.Awaited id

abbrev Running (queue : JobQueue κ) (id : κ) : Prop := queue.Holds JobState.Running id

abbrev Exhausted (queue : JobQueue κ) (maxTries : Nat) (id : κ) : Prop :=
  queue.Holds (JobState.Exhausted maxTries) id

instance (queue : JobQueue κ) (p : JobState → Prop) [DecidablePred p] (id : κ) :
    Decidable (queue.Holds p id) := inferInstanceAs (Decidable (∃ state ∈ queue id, p state))

def restart (queue : JobQueue κ) : JobQueue κ := fun id => (queue id).map JobState.requeue

theorem Awaited.live {queue : JobQueue κ} {id : κ} (h : queue.Awaited id) : queue.Live id := by
  obtain ⟨state, hstate, hawaited⟩ := h
  exact ⟨state, hstate, hawaited.live⟩

variable [DecidableEq κ]

-- A job id that is queued, running or still has its result is left as it is.
def enqueue (queue : JobQueue κ) (id : κ) : JobQueue κ :=
  Function.update queue id (some ((queue id).getD (.queued 0)))

def advance (queue : JobQueue κ) (f : JobState → Option JobState) (id : κ) : JobQueue κ :=
  Function.update queue id ((queue id).bind f)

variable {queue : JobQueue κ} {id other : κ}

theorem awaited_enqueue_self (h : queue id = none ∨ queue.Awaited id) :
    (queue.enqueue id).Awaited id := by
  rcases h with hnone | ⟨state, hstate, hawaited⟩
  · refine ⟨.queued 0, ?_, trivial⟩
    rw [enqueue, Function.update_self, hnone]
    rfl
  · refine ⟨state, ?_, hawaited⟩
    rw [enqueue, Function.update_self, hstate]
    rfl

theorem Awaited.enqueue (h : queue.Awaited id) (other : κ) : (queue.enqueue other).Awaited id := by
  by_cases hid : id = other
  · subst hid
    exact awaited_enqueue_self (Or.inr h)
  · obtain ⟨state, hstate, hawaited⟩ := h
    refine ⟨state, ?_, hawaited⟩
    rw [JobQueue.enqueue, Function.update_of_ne hid]
    exact hstate

theorem Awaited.advance (h : queue.Awaited id) {f : JobState → Option JobState} (other : κ)
    (hkeeps : id = other → ∀ state ∈ queue id, state.Awaited → ∃ state' ∈ f state, state'.Awaited) :
    (queue.advance f other).Awaited id := by
  obtain ⟨state, hstate, hawaited⟩ := h
  by_cases hid : id = other
  · obtain ⟨state', hstate', hawaited'⟩ := hkeeps hid state hstate hawaited
    refine ⟨state', ?_, hawaited'⟩
    subst hid
    rw [JobQueue.advance, Function.update_self, hstate]
    exact hstate'
  · refine ⟨state, ?_, hawaited⟩
    rw [JobQueue.advance, Function.update_of_ne hid]
    exact hstate

theorem Awaited.start (h : queue.Awaited id) {maxTries : Nat} {other : κ}
    (htries : id = other → ¬ queue.Exhausted maxTries id) :
    (queue.advance (some ∘ JobState.start maxTries) other).Awaited id := by
  refine h.advance other fun hid state hstate hawaited => ⟨_, rfl, hawaited.start ?_⟩
  exact fun hexhausted => htries hid ⟨state, hstate, hexhausted⟩

theorem Awaited.leave (h : queue.Awaited id) {other : κ} (hidle : id = other → ¬ queue.Running id) :
    (queue.advance (some ∘ JobState.leave) other).Awaited id := by
  refine h.advance other fun hid state hstate hawaited => ⟨_, rfl, hawaited.leave ?_⟩
  exact fun hrunning => hidle hid ⟨state, hstate, hrunning⟩

theorem Awaited.finish (h : queue.Awaited id) (other : κ) :
    (queue.advance (some ∘ JobState.finish) other).Awaited id :=
  h.advance other fun _ _ _ hawaited => ⟨_, rfl, hawaited.finish⟩

theorem Awaited.expire (h : queue.Awaited id) (other : κ) :
    (queue.advance JobState.expire other).Awaited id :=
  h.advance other fun _ _ _ hawaited => hawaited.expire

omit [DecidableEq κ] in
theorem Awaited.restart (h : queue.Awaited id) : queue.restart.Awaited id := by
  obtain ⟨state, hstate, hawaited⟩ := h
  exact ⟨_, Option.mem_map_of_mem _ hstate, hawaited.requeue⟩

end JobQueue
