import YCStudio.Library.Script

namespace Script

variable {ε Op : Type} {Reply : Op → Type} {α β σ τ : Type}

structure Contract (Op : Type) (Reply : Op → Type) where
  asks : Op → Prop
  replies : (op : Op) → Reply op → Prop

variable {contract : Contract Op Reply} {returns : α → Prop} {yields : β → Prop}

def Abides (contract : Contract Op Reply) (returns : α → Prop) : Script ε Op Reply α → Prop
  | done (.ok a) => returns a
  | done (.error _) => True
  | ask op next =>
      contract.asks op ∧
        (∀ reply, contract.replies op reply → Abides contract returns (next (.ok reply))) ∧
          ∀ e, Abides contract returns (next (.error e))

theorem abides_pure {a : α} (h : returns a) :
    (pure a : Script ε Op Reply α).Abides contract returns := h

theorem abides_throw (e : ε) : (throw e : Script ε Op Reply α).Abides contract returns := trivial

theorem abides_attempt {result : Except ε α} (h : ∀ a, result = .ok a → returns a) :
    (attempt result : Script ε Op Reply α).Abides contract returns := by
  cases result with
  | ok a => exact h a rfl
  | error e => trivial

theorem abides_perform (op : Op) {returns : Reply op → Prop} (h : contract.asks op)
    (hreturns : ∀ reply, contract.replies op reply → returns reply) :
    (perform op : Script ε Op Reply (Reply op)).Abides contract returns :=
  ⟨h, hreturns, fun _ => trivial⟩

theorem abides_bind (returns : α → Prop) {script : Script ε Op Reply α}
    {next : α → Script ε Op Reply β} (h : script.Abides contract returns)
    (hnext : ∀ a, returns a → (next a).Abides contract yields) :
    (script >>= next).Abides contract yields := by
  induction script with
  | done result =>
    cases result with
    | ok a => exact hnext a h
    | error e => trivial
  | ask op inner ih =>
    exact ⟨h.1, fun reply hreply => ih _ (h.2.1 reply hreply), fun e => ih _ (h.2.2 e)⟩

theorem abides_recover {script : Script ε Op Reply α} {handle : ε → Script ε Op Reply α}
    (h : script.Abides contract returns) (hhandle : ∀ e, (handle e).Abides contract returns) :
    (tryCatch script handle).Abides contract returns := by
  induction script with
  | done result =>
    cases result with
    | ok a => exact h
    | error e => exact hhandle e
  | ask op inner ih =>
    exact ⟨h.1, fun reply hreply => ih _ (h.2.1 reply hreply), fun e => ih _ (h.2.2 e)⟩

theorem Abides.simulates (serve : (op : Op) → σ → Except ε (Reply op) × σ)
    (serve' : (op : Op) → τ → Except ε (Reply op) × τ) (rel : σ → τ → Prop)
    (hserve : ∀ op s t, contract.asks op → rel s t →
      (serve' op t).1 = (serve op s).1 ∧ rel (serve op s).2 (serve' op t).2 ∧
        ∀ reply, (serve op s).1 = .ok reply → contract.replies op reply)
    {script : Script ε Op Reply α} (h : script.Abides contract returns) {s : σ} {t : τ}
    (hrel : rel s t) :
    (script.run serve' t).1 = (script.run serve s).1 ∧
      rel (script.run serve s).2 (script.run serve' t).2 := by
  induction script generalizing s t with
  | done result => exact ⟨rfl, hrel⟩
  | ask op next ih =>
    obtain ⟨hsame, hrel', hreplies⟩ := hserve op s t h.1 hrel
    simp only [run]
    rw [hsame]
    cases hreply : (serve op s).1 with
    | ok reply => exact ih _ (h.2.1 reply (hreplies reply hreply)) hrel'
    | error e => exact ih _ (h.2.2 e) hrel'

theorem Abides.invariant {serve : (op : Op) → σ → Except ε (Reply op) × σ} {inv : σ → Prop}
    (hserve : ∀ op s, contract.asks op → inv s → inv (serve op s).2 ∧
      ∀ reply, (serve op s).1 = .ok reply → contract.replies op reply)
    {script : Script ε Op Reply α} (h : script.Abides contract returns) {s : σ} (hinv : inv s) :
    inv (script.run serve s).2 ∧ ∀ a, (script.run serve s).1 = .ok a → returns a := by
  induction script generalizing s with
  | done result =>
    refine ⟨hinv, fun a ha => ?_⟩
    obtain rfl : result = .ok a := ha
    exact h
  | ask op next ih =>
    obtain ⟨hinv', hreplies⟩ := hserve op s h.1 hinv
    simp only [run]
    cases hreply : (serve op s).1 with
    | ok reply => exact ih _ (h.2.1 reply (hreplies reply hreply)) hinv'
    | error e => exact ih _ (h.2.2 e) hinv'

end Script
