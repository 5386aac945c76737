inductive Script (ε Op : Type) (Reply : Op → Type) (α : Type) where
  | done (result : Except ε α)
  | ask (op : Op) (next : Except ε (Reply op) → Script ε Op Reply α)

namespace Script

variable {ε Op : Type} {Reply : Op → Type} {α β σ : Type}

def bind : Script ε Op Reply α → (α → Script ε Op Reply β) → Script ε Op Reply β
  | done (.ok a), f => f a
  | done (.error e), _ => done (.error e)
  | ask op next, f => ask op fun reply => (next reply).bind f

def recover : Script ε Op Reply α → (ε → Script ε Op Reply α) → Script ε Op Reply α
  | done (.ok a), _ => done (.ok a)
  | done (.error e), handle => handle e
  | ask op next, handle => ask op fun reply => (next reply).recover handle

instance : Monad (Script ε Op Reply) where
  pure a := done (.ok a)
  bind := bind

instance : MonadExceptOf ε (Script ε Op Reply) where
  throw e := done (.error e)
  tryCatch := recover

def perform (op : Op) : Script ε Op Reply (Reply op) := ask op done

def attempt (result : Except ε α) : Script ε Op Reply α := done result

def run (serve : (op : Op) → σ → Except ε (Reply op) × σ) :
    Script ε Op Reply α → σ → Except ε α × σ
  | done result, s => (result, s)
  | ask op next, s => run serve (next (serve op s).1) (serve op s).2

variable (serve : (op : Op) → σ → Except ε (Reply op) × σ) (s : σ)

@[simp] theorem run_done (result : Except ε α) :
    (done result : Script ε Op Reply α).run serve s = (result, s) := rfl

@[simp] theorem run_pure (a : α) :
    (pure a : Script ε Op Reply α).run serve s = (.ok a, s) := rfl

@[simp] theorem run_throw (e : ε) :
    (throw e : Script ε Op Reply α).run serve s = (.error e, s) := rfl

@[simp] theorem run_attempt (result : Except ε α) :
    (attempt result : Script ε Op Reply α).run serve s = (result, s) := rfl

@[simp] theorem run_perform (op : Op) :
    (perform op : Script ε Op Reply (Reply op)).run serve s = serve op s := rfl

def resume (next : α → Script ε Op Reply β) (outcome : Except ε α × σ) : Except ε β × σ :=
  match outcome with
  | (.ok a, s) => (next a).run serve s
  | (.error e, s) => (.error e, s)

def rescue (handle : ε → Script ε Op Reply α) (outcome : Except ε α × σ) : Except ε α × σ :=
  match outcome with
  | (.ok a, s) => (.ok a, s)
  | (.error e, s) => (handle e).run serve s

@[simp] theorem resume_ok (next : α → Script ε Op Reply β) (a : α) :
    resume serve next (.ok a, s) = (next a).run serve s := rfl

@[simp] theorem resume_error (next : α → Script ε Op Reply β) (e : ε) :
    resume serve next (.error e, s) = (.error e, s) := rfl

@[simp] theorem rescue_ok (handle : ε → Script ε Op Reply α) (a : α) :
    rescue serve handle (.ok a, s) = (.ok a, s) := rfl

@[simp] theorem rescue_error (handle : ε → Script ε Op Reply α) (e : ε) :
    rescue serve handle (.error e, s) = (handle e).run serve s := rfl

theorem bind_assoc {γ : Type} (script : Script ε Op Reply α) (f : α → Script ε Op Reply β)
    (g : β → Script ε Op Reply γ) : script >>= f >>= g = script >>= fun a => f a >>= g := by
  induction script with
  | done result => cases result <;> rfl
  | ask op next ih => exact congrArg (ask op) (funext ih)

@[simp] theorem pure_bind (a : α) (f : α → Script ε Op Reply β) :
    (pure a : Script ε Op Reply α) >>= f = f a := rfl

theorem run_bind (script : Script ε Op Reply α) (next : α → Script ε Op Reply β) :
    (script >>= next).run serve s = resume serve next (script.run serve s) := by
  induction script generalizing s with
  | done result => cases result <;> rfl
  | ask op inner ih => exact ih _ _

theorem run_recover (script : Script ε Op Reply α) (handle : ε → Script ε Op Reply α) :
    (tryCatch script handle).run serve s = rescue serve handle (script.run serve s) := by
  induction script generalizing s with
  | done result => cases result <;> rfl
  | ask op inner ih => exact ih _ _

section Outcomes

variable {serve s} {s' s'' : σ} {script : Script ε Op Reply α} {next : α → Script ε Op Reply β}

theorem run_bind_of_ok {a : α} (h : script.run serve s = (.ok a, s')) :
    (script >>= next).run serve s = (next a).run serve s' := by
  rw [run_bind, h]
  rfl

theorem run_bind_of_error {e : ε} (h : script.run serve s = (.error e, s')) :
    (script >>= next).run serve s = (.error e, s') := by
  rw [run_bind, h]
  rfl

theorem run_recover_of_ok {handle : ε → Script ε Op Reply α} {a : α}
    (h : script.run serve s = (.ok a, s')) :
    (tryCatch script handle).run serve s = (.ok a, s') := by
  rw [run_recover, h]
  rfl

theorem run_recover_of_error {handle : ε → Script ε Op Reply α} {e : ε}
    (h : script.run serve s = (.error e, s')) :
    (tryCatch script handle).run serve s = (handle e).run serve s' := by
  rw [run_recover, h]
  rfl

theorem bind_ran_ok {b : β} (h : (script >>= next).run serve s = (.ok b, s'')) :
    ∃ a s', script.run serve s = (.ok a, s') ∧ (next a).run serve s' = (.ok b, s'') := by
  rcases hran : script.run serve s with ⟨a | e, s'⟩
  · rw [run_bind_of_error hran] at h
    cases h
  · rw [run_bind_of_ok hran] at h
    exact ⟨_, s', rfl, h⟩

theorem bind_ran_error {e : ε} (h : (script >>= next).run serve s = (.error e, s'')) :
    script.run serve s = (.error e, s'') ∨
      ∃ a s', script.run serve s = (.ok a, s') ∧ (next a).run serve s' = (.error e, s'') := by
  rcases hran : script.run serve s with ⟨e' | a, s'⟩
  · rw [run_bind_of_error hran] at h
    cases h
    exact Or.inl rfl
  · rw [run_bind_of_ok hran] at h
    exact Or.inr ⟨a, s', rfl, h⟩

end Outcomes

def Asks (p : Op → Prop) : Script ε Op Reply α → Prop
  | done _ => True
  | ask op next => p op ∧ ∀ reply, Asks p (next reply)

section Asks

variable {p : Op → Prop} {serve}

theorem asks_pure (a : α) : (pure a : Script ε Op Reply α).Asks p := trivial

theorem asks_throw (e : ε) : (throw e : Script ε Op Reply α).Asks p := trivial

theorem asks_attempt (result : Except ε α) : (attempt result : Script ε Op Reply α).Asks p :=
  trivial

theorem asks_perform {op : Op} (h : p op) : (perform op : Script ε Op Reply (Reply op)).Asks p :=
  ⟨h, fun _ => trivial⟩

theorem asks_bind {script : Script ε Op Reply α} {next : α → Script ε Op Reply β}
    (h : script.Asks p) (hnext : ∀ a, (next a).Asks p) : (script >>= next).Asks p := by
  induction script with
  | done result =>
    cases result with
    | ok a => exact hnext a
    | error e => trivial
  | ask op inner ih => exact ⟨h.1, fun reply => ih reply (h.2 reply)⟩

theorem asks_attempt_bind {result : Except ε α} {next : α → Script ε Op Reply β}
    (hnext : ∀ a, result = .ok a → (next a).Asks p) : (attempt result >>= next).Asks p := by
  cases result with
  | ok a => exact hnext a rfl
  | error e => trivial

theorem asks_recover {script : Script ε Op Reply α} {handle : ε → Script ε Op Reply α}
    (h : script.Asks p) (hhandle : ∀ e, (handle e).Asks p) : (tryCatch script handle).Asks p := by
  induction script with
  | done result =>
    cases result with
    | ok a => trivial
    | error e => exact hhandle e
  | ask op inner ih => exact ⟨h.1, fun reply => ih reply (h.2 reply)⟩

theorem asks_ite {c : Prop} [Decidable c] {a b : Script ε Op Reply α} (ha : a.Asks p)
    (hb : b.Asks p) : (if c then a else b).Asks p := by
  split
  · exact ha
  · exact hb

theorem Asks.invariant {inv : σ → Prop} (hserve : ∀ op s, p op → inv s → inv (serve op s).2)
    {script : Script ε Op Reply α} (h : script.Asks p) {s : σ} (hinv : inv s) :
    inv (script.run serve s).2 := by
  induction script generalizing s with
  | done result => exact hinv
  | ask op next ih => exact ih _ (h.2 _) (hserve op s h.1 hinv)

end Asks

end Script
