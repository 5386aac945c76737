namespace History

variable {σ ε : Type} (apply : ε → σ → σ) (enabled : ε → σ → Prop)

def play (events : List ε) (s : σ) : σ := events.foldl (fun s e => apply e s) s

def Admissible : List ε → σ → Prop
  | [], _ => True
  | e :: events, s => enabled e s ∧ Admissible events (apply e s)

@[simp] theorem play_nil (s : σ) : play apply [] s = s := rfl

@[simp] theorem play_cons (e : ε) (events : List ε) (s : σ) :
    play apply (e :: events) s = play apply events (apply e s) := rfl

theorem play_append (events events' : List ε) (s : σ) :
    play apply (events ++ events') s = play apply events' (play apply events s) :=
  List.foldl_append

variable {apply enabled}

theorem Admissible.append {events events' : List ε} {s : σ}
    (h : Admissible apply enabled events s)
    (h' : Admissible apply enabled events' (play apply events s)) :
    Admissible apply enabled (events ++ events') s := by
  induction events generalizing s with
  | nil => exact h'
  | cons e events ih => exact ⟨h.1, ih h.2 h'⟩

theorem Admissible.split {events events' : List ε} {s : σ}
    (h : Admissible apply enabled (events ++ events') s) :
    Admissible apply enabled events s ∧ Admissible apply enabled events' (play apply events s) := by
  induction events generalizing s with
  | nil => exact ⟨trivial, h⟩
  | cons e events ih =>
    obtain ⟨hfirst, hrest⟩ := ih h.2
    exact ⟨⟨h.1, hfirst⟩, hrest⟩

theorem Admissible.of_forall {events : List ε} (henabled : ∀ e ∈ events, ∀ s, enabled e s)
    (s : σ) : Admissible apply enabled events s := by
  induction events generalizing s with
  | nil => trivial
  | cons e events ih =>
    exact ⟨henabled e List.mem_cons_self s,
      ih (fun e' he' => henabled e' (List.mem_cons_of_mem _ he')) _⟩

theorem preserved {inv : σ → Prop} (hstep : ∀ e s, inv s → enabled e s → inv (apply e s))
    {events : List ε} {s : σ} (hinv : inv s) (h : Admissible apply enabled events s) :
    inv (play apply events s) := by
  induction events generalizing s with
  | nil => exact hinv
  | cons e events ih => exact ih (hstep e s hinv h.1) h.2

theorem admissible_congr {inv : σ → Prop} {allowed : ε → σ → Prop}
    (hstep : ∀ e s, inv s → inv (apply e s)) (heq : ∀ e s, inv s → (enabled e s ↔ allowed e s))
    {events : List ε} {s : σ} (hinv : inv s) :
    Admissible apply enabled events s ↔ Admissible apply allowed events s := by
  induction events generalizing s with
  | nil => exact Iff.rfl
  | cons e events ih => exact and_congr (heq e s hinv) (ih (hstep e s hinv))

def Admissible.decide [∀ e s, Decidable (enabled e s)] :
    (events : List ε) → (s : σ) → Decidable (Admissible apply enabled events s)
  | [], _ => isTrue trivial
  | e :: events, s =>
      have := Admissible.decide events (apply e s)
      inferInstanceAs (Decidable (enabled e s ∧ Admissible apply enabled events (apply e s)))

instance [∀ e s, Decidable (enabled e s)] (events : List ε) (s : σ) :
    Decidable (Admissible apply enabled events s) := Admissible.decide events s

inductive Sweep (apply : ε → σ → σ) {ι α τ : Type} (step : σ → ι → Except τ α → List ε → Prop) :
    σ → List ι → Except τ (List α) → List ε → Prop
  | nil {s : σ} : Sweep apply step s [] (.ok []) []
  | cons {s : σ} {i : ι} {rest : List ι} {a : α} {as : List α} {events events' : List ε}
      (head : step s i (.ok a) events)
      (tail : Sweep apply step (play apply events s) rest (.ok as) events') :
      Sweep apply step s (i :: rest) (.ok (a :: as)) (events ++ events')
  | later {s : σ} {i : ι} {rest : List ι} {a : α} {e : τ} {events events' : List ε}
      (head : step s i (.ok a) events)
      (tail : Sweep apply step (play apply events s) rest (.error e) events') :
      Sweep apply step s (i :: rest) (.error e) []
  | stop {s : σ} {i : ι} {rest : List ι} {e : τ} {events : List ε}
      (head : step s i (.error e) events) : Sweep apply step s (i :: rest) (.error e) []

theorem Sweep.admissible {ι α τ : Type} {step : σ → ι → Except τ α → List ε → Prop}
    (hstep : ∀ s i r events, step s i r events → Admissible apply enabled events s) {s : σ}
    {is : List ι} {r : Except τ (List α)} {events : List ε} (h : Sweep apply step s is r events) :
    Admissible apply enabled events s := by
  induction h with
  | nil => trivial
  | later head tail ih => trivial
  | stop head => trivial
  | cons head tail ih => exact (hstep _ _ _ _ head).append ih

theorem Sweep.admissible_of {ι α τ : Type} {step : σ → ι → Except τ α → List ε → Prop}
    {inv : σ → Prop}
    (hstep : ∀ s i r events, inv s → step s i r events →
      Admissible apply enabled events s ∧ inv (play apply events s)) {s : σ} {is : List ι}
    {r : Except τ (List α)} {events : List ε} (h : Sweep apply step s is r events) (hinv : inv s) :
    Admissible apply enabled events s := by
  induction h with
  | nil => trivial
  | later head tail ih => trivial
  | stop head => trivial
  | cons head tail ih =>
    obtain ⟨hhead, hinv'⟩ := hstep _ _ _ _ hinv head
    exact hhead.append (ih hinv')

theorem Sweep.forall_mem {ι α τ : Type} {step : σ → ι → Except τ α → List ε → Prop} {P : ε → Prop}
    {s : σ} {is : List ι} {r : Except τ (List α)} {events : List ε}
    (h : Sweep apply step s is r events)
    (hstep : ∀ s, ∀ i ∈ is, ∀ r events, step s i r events → ∀ e ∈ events, P e) :
    ∀ e ∈ events, P e := by
  induction h with
  | nil => exact fun _ he => absurd he List.not_mem_nil
  | later head tail ih => exact fun _ he => absurd he List.not_mem_nil
  | stop head => exact fun _ he => absurd he List.not_mem_nil
  | cons head tail ih =>
    intro e he
    rcases List.mem_append.mp he with he | he
    · exact hstep _ _ List.mem_cons_self _ _ head e he
    · exact ih (fun s i hi => hstep s i (List.mem_cons_of_mem _ hi)) e he

theorem Sweep.forall {ι α τ : Type} {step : σ → ι → Except τ α → List ε → Prop} {P : ε → Prop}
    (hstep : ∀ s i r events, step s i r events → ∀ e ∈ events, P e) {s : σ} {is : List ι}
    {r : Except τ (List α)} {events : List ε} (h : Sweep apply step s is r events) :
    ∀ e ∈ events, P e := h.forall_mem fun s i _ => hstep s i

theorem Sweep.preserved {ι α τ : Type} {step : σ → ι → Except τ α → List ε → Prop} {inv : σ → Prop}
    (hstep : ∀ s i r events, inv s → step s i r events → inv (play apply events s)) {s : σ}
    {is : List ι} {r : Except τ (List α)} {events : List ε} (h : Sweep apply step s is r events)
    (hinv : inv s) : inv (play apply events s) := by
  induction h with
  | nil => exact hinv
  | later head tail ih => exact hinv
  | stop head => exact hinv
  | cons head tail ih =>
    rw [play_append]
    exact ih (hstep _ _ _ _ hinv head)

def Heeds {α β τ : Type} (refused : τ → Prop) (done : β → Prop) (r : Except τ α) :
    Option β → Prop
  | none => ∃ e, r = .error e ∧ refused e
  | some b => (∃ a, r = .ok a) ∧ done b

section Heeds

variable {α β τ : Type} {refused : τ → Prop} {done : β → Prop} {verdict : Option β}

theorem Heeds.of_ok {a : α} (h : Heeds refused done (.ok a : Except τ α) verdict) :
    ∃ b, verdict = some b ∧ done b := by
  cases verdict with
  | none =>
    obtain ⟨e, he, _⟩ := h
    cases he
  | some b => exact ⟨b, rfl, h.2⟩

theorem Heeds.of_error {e : τ} (h : Heeds refused done (.error e : Except τ α) verdict) :
    verdict = none ∧ refused e := by
  cases verdict with
  | none =>
    obtain ⟨e', he, hrefused⟩ := h
    cases he
    exact ⟨rfl, hrefused⟩
  | some b =>
    obtain ⟨⟨a, ha⟩, _⟩ := h
    cases ha

-- inv relates what is still to be handled, the state and the verdict so far.
theorem Sweep.heeds {ι : Type} {step : σ → ι → Except τ α → List ε → Prop}
    {inv : List ι → σ → β → Prop} {judge : β → ι → Option β}
    (hstep : ∀ i rest s b r events, inv (i :: rest) s b → step s i r events →
      Heeds refused (inv rest (play apply events s)) r (judge b i))
    {s : σ} {b : β} {is : List ι} {r : Except τ (List α)} {events : List ε} (hinv : inv is s b)
    (h : Sweep apply step s is r events) :
    Heeds refused (inv [] (play apply events s)) r (is.foldlM judge b) := by
  induction h generalizing b with
  | nil => exact ⟨⟨_, rfl⟩, hinv⟩
  | cons head tail ih =>
    obtain ⟨b', hjudge, hinv'⟩ := (hstep _ _ _ _ _ _ hinv head).of_ok
    obtain ⟨b'', hfold, hdone⟩ := (ih hinv').of_ok
    rw [List.foldlM_cons, hjudge, Option.bind_eq_bind, Option.bind_some, hfold, play_append]
    exact ⟨⟨_, rfl⟩, hdone⟩
  | later head tail ih =>
    obtain ⟨b', hjudge, hinv'⟩ := (hstep _ _ _ _ _ _ hinv head).of_ok
    obtain ⟨hfold, hrefused⟩ := (ih hinv').of_error
    rw [List.foldlM_cons, hjudge, Option.bind_eq_bind, Option.bind_some, hfold]
    exact ⟨_, rfl, hrefused⟩
  | stop head =>
    obtain ⟨hjudge, hrefused⟩ := (hstep _ _ _ _ _ _ hinv head).of_error
    rw [List.foldlM_cons, hjudge]
    exact ⟨_, rfl, hrefused⟩

end Heeds

end History
