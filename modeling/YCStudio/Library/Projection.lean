namespace Projection

variable {σ ε ο β : Type} (step : Nat → ε → σ → ο × σ) (view : ε → ο → Option β)

-- Time passes where an event was left out, so that every other event keeps its place.
def play : Nat → List (Option ε) → σ → σ
  | _, [], s => s
  | i, none :: events, s => play (i + 1) events s
  | i, some e :: events, s => play (i + 1) events (step i e s).2

def seen : Nat → List (Option ε) → σ → List (Option β)
  | _, [], _ => []
  | i, none :: events, s => none :: seen (i + 1) events s
  | i, some e :: events, s => view e (step i e s).1 :: seen (i + 1) events (step i e s).2

def withhold (keep : ε → Prop) [DecidablePred keep] (events : List ε) : List (Option ε) :=
  events.map fun e => if keep e then some e else none

variable {step view}

theorem play_append (i : Nat) (events events' : List (Option ε)) (s : σ) :
    play step i (events ++ events') s =
      play step (i + events.length) events' (play step i events s) := by
  induction events generalizing i s with
  | nil => rfl
  | cons event events ih =>
    rw [List.length_cons, Nat.add_comm events.length, ← Nat.add_assoc]
    cases event with
    | none => exact ih (i + 1) s
    | some e => exact ih (i + 1) (step i e s).2

variable (step) in
theorem play_invariant (inv : Nat → σ → Prop) (hidle : ∀ i s, inv i s → inv (i + 1) s)
    (hstep : ∀ i e s, inv i s → inv (i + 1) (step i e s).2) {i : Nat} (events : List (Option ε))
    {s : σ} (h : inv i s) : inv (i + events.length) (play step i events s) := by
  induction events generalizing i s with
  | nil => exact h
  | cons event events ih =>
    rw [List.length_cons, Nat.add_comm events.length, ← Nat.add_assoc]
    cases event with
    | none => exact ih (hidle i s h)
    | some e => exact ih (hstep i e s h)

structure Follows (step : Nat → ε → σ → ο × σ) (view : ε → ο → Option β) (keep : ε → Prop)
    (project : σ → σ) (inv : Nat → σ → Prop) : Prop where
  stays : ∀ i e s, inv i s → inv (i + 1) (step i e s).2
  kept : ∀ i e s, inv i s → keep e → project (step i e s).2 = (step i e (project s)).2 ∧
    view e (step i e s).1 = view e (step i e (project s)).1
  dropped : ∀ i e s, inv i s → ¬ keep e → project (step i e s).2 = project s ∧
    view e (step i e s).1 = none

theorem Follows.play {keep : ε → Prop} [DecidablePred keep] {project : σ → σ}
    {inv : Nat → σ → Prop} (h : Follows step view keep project inv) (events : List ε) {i : Nat}
    {s : σ} (hinv : inv i s) :
    project (play step i (events.map some) s) = play step i (withhold keep events) (project s) ∧
      seen step view i (events.map some) s = seen step view i (withhold keep events) (project s) := by
  induction events generalizing i s with
  | nil => exact ⟨rfl, rfl⟩
  | cons e events ih =>
    obtain ⟨hplay, hseen⟩ := ih (h.stays i e s hinv)
    rw [withhold, List.map_cons, List.map_cons]
    by_cases hkeep : keep e
    · obtain ⟨hproject, hview⟩ := h.kept i e s hinv hkeep
      rw [if_pos hkeep]
      simp only [Projection.play, seen]
      rw [← hproject, ← hview]
      exact ⟨hplay, congrArg (_ :: ·) hseen⟩
    · obtain ⟨hproject, hview⟩ := h.dropped i e s hinv hkeep
      rw [if_neg hkeep]
      simp only [Projection.play, seen]
      rw [← hproject, hview]
      exact ⟨hplay, congrArg (_ :: ·) hseen⟩

end Projection
