import YCStudio.Library.JobQueue

structure Posting (π : Type) where
  payload : π
  state : JobState
  deriving DecidableEq, Repr

abbrev JobBoard (κ π : Type) := κ → Option (Posting π)

namespace JobBoard

variable {κ π : Type}

def empty : JobBoard κ π := fun _ => none

def Keyed (key : π → κ) (board : JobBoard κ π) : Prop :=
  ∀ id, ∀ posting ∈ board id, key posting.payload = id

def Carries (board : JobBoard κ π) (id : κ) (p : π → Prop) : Prop :=
  ∃ posting ∈ board id, p posting.payload ∧ posting.state.Live

instance (board : JobBoard κ π) (id : κ) (p : π → Prop) [DecidablePred p] :
    Decidable (board.Carries id p) :=
  inferInstanceAs (Decidable (∃ posting ∈ board id, p posting.payload ∧ posting.state.Live))

def restart (board : JobBoard κ π) : JobBoard κ π := fun id =>
  (board id).map fun posting => { posting with state := posting.state.requeue }

variable [DecidableEq κ]

-- A job id that is queued, running or still has its result keeps its first payload.
def post (board : JobBoard κ π) (id : κ) (payload : π) : JobBoard κ π :=
  Function.update board id (some ((board id).getD { payload, state := .queued 0 }))

def advance (board : JobBoard κ π) (f : JobState → Option JobState) (id : κ) : JobBoard κ π :=
  Function.update board id ((board id).bind fun posting =>
    (f posting.state).map fun state => { posting with state })

variable {key : π → κ} {board : JobBoard κ π}

theorem post_of_none {id : κ} (h : board id = none) (payload : π) :
    board.post id payload id = some { payload, state := .queued 0 } := by
  rw [post, Function.update_self, h, Option.getD_none]

omit [DecidableEq κ] in
theorem keyed_empty (key : π → κ) : Keyed key empty := fun _ _ h => nomatch h

theorem Keyed.post (h : board.Keyed key) (payload : π) :
    (board.post (key payload) payload).Keyed key := by
  intro id posting hposting
  by_cases hid : id = key payload
  · subst hid
    rw [JobBoard.post, Function.update_self] at hposting
    cases hboard : board (key payload) with
    | none =>
      rw [hboard] at hposting
      cases hposting
      rfl
    | some old =>
      rw [hboard] at hposting
      cases hposting
      exact h _ old hboard
  · rw [JobBoard.post, Function.update_of_ne hid] at hposting
    exact h id posting hposting

theorem Keyed.advance (h : board.Keyed key) (f : JobState → Option JobState) (id : κ) :
    (board.advance f id).Keyed key := by
  intro other posting hposting
  by_cases hid : other = id
  · subst hid
    rw [JobBoard.advance, Function.update_self] at hposting
    obtain ⟨old, hold, hposting⟩ := Option.bind_eq_some_iff.mp hposting
    obtain ⟨state, _, rfl⟩ := Option.map_eq_some_iff.mp hposting
    exact h other old hold
  · rw [JobBoard.advance, Function.update_of_ne hid] at hposting
    exact h other posting hposting

omit [DecidableEq κ] in
theorem Keyed.restart (h : board.Keyed key) : board.restart.Keyed key := by
  intro id posting hposting
  obtain ⟨old, hold, rfl⟩ := Option.map_eq_some_iff.mp hposting
  exact h id old hold

omit [DecidableEq κ] in
theorem Keyed.carries_congr (h : board.Keyed key) {p q : π → Prop} {id : κ}
    (hpq : ∀ payload, key payload = id → (p payload ↔ q payload)) :
    board.Carries id p ↔ board.Carries id q :=
  exists_congr fun posting => and_congr_right fun hposting =>
    and_congr_left fun _ => hpq posting.payload (h id posting hposting)

end JobBoard
