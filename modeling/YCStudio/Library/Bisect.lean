import Mathlib.Data.Nat.Basic
import Mathlib.Tactic.Common

namespace Bisect

def lastAccepted (ok : Nat → Bool) (low high : Nat) : Nat :=
  if low < high then
    if ok ((low + high + 1) / 2) then lastAccepted ok ((low + high + 1) / 2) high
    else lastAccepted ok low ((low + high + 1) / 2 - 1)
  else low
termination_by high - low

def firstAccepted (ok : Nat → Bool) (low high : Nat) : Nat :=
  if low < high then
    if ok ((low + high) / 2) then firstAccepted ok low ((low + high) / 2)
    else firstAccepted ok ((low + high) / 2 + 1) high
  else low
termination_by high - low

theorem lastAccepted_accepted (ok : Nat → Bool) (low high : Nat) :
    lastAccepted ok low high = low ∨ ok (lastAccepted ok low high) = true := by
  fun_induction lastAccepted ok low high with
  | case1 low high hlt hok ih =>
    rcases ih with ih | ih
    · exact Or.inr (by rw [ih]; exact hok)
    · exact Or.inr ih
  | case2 low high hlt hok ih => exact ih
  | case3 low high hge => exact Or.inl rfl

theorem lastAccepted_next (ok : Nat → Bool) {low high : Nat} (h : low ≤ high) :
    lastAccepted ok low high = high ∨ ok (lastAccepted ok low high + 1) = false := by
  fun_induction lastAccepted ok low high with
  | case1 low high hlt hok ih => exact ih (by omega)
  | case2 low high hlt hok ih =>
    rcases ih (by omega) with ih | ih
    · refine Or.inr ?_
      rw [ih, Nat.sub_add_cancel (by omega)]
      simpa using hok
    · exact Or.inr ih
  | case3 low high hge => exact Or.inl (by omega)

theorem lastAccepted_le (ok : Nat → Bool) {low high : Nat} (h : low ≤ high) :
    lastAccepted ok low high ≤ high := by
  fun_induction lastAccepted ok low high with
  | case1 low high hlt hok ih => exact ih (by omega)
  | case2 low high hlt hok ih => exact Nat.le_trans (ih (by omega)) (by omega)
  | case3 low high hge => exact h

theorem le_lastAccepted {ok : Nat → Bool} {low high n : Nat}
    (hmono : ∀ i j, i ≤ j → j ≤ high → ok j = true → ok i = true) (hn : n ≤ high)
    (hok : ok n = true) (h : low ≤ high) : n ≤ lastAccepted ok low high := by
  rcases lastAccepted_next ok h with hhigh | hrefused
  · omega
  · by_contra hlt
    have haccepted := hmono (lastAccepted ok low high + 1) n (by omega) hn hok
    rw [hrefused] at haccepted
    cases haccepted

theorem firstAccepted_accepted (ok : Nat → Bool) {low high : Nat} (h : low ≤ high) :
    firstAccepted ok low high = high ∨ ok (firstAccepted ok low high) = true := by
  fun_induction firstAccepted ok low high with
  | case1 low high hlt hok ih =>
    rcases ih (by omega) with ih | ih
    · exact Or.inr (by rw [ih]; exact hok)
    · exact Or.inr ih
  | case2 low high hlt hok ih => exact ih (by omega)
  | case3 low high hge => exact Or.inl (by omega)

theorem firstAccepted_le (ok : Nat → Bool) {low high : Nat} (h : low ≤ high) :
    firstAccepted ok low high ≤ high := by
  fun_induction firstAccepted ok low high with
  | case1 low high hlt hok ih => exact Nat.le_trans (ih (by omega)) (by omega)
  | case2 low high hlt hok ih => exact ih (by omega)
  | case3 low high hge => exact h

theorem firstAccepted_previous (ok : Nat → Bool) {low high : Nat} (h : low ≤ high) :
    firstAccepted ok low high = low ∨
      low < firstAccepted ok low high ∧ ok (firstAccepted ok low high - 1) = false := by
  fun_induction firstAccepted ok low high with
  | case1 low high hlt hok ih => exact ih (by omega)
  | case2 low high hlt hok ih =>
    rcases ih (by omega) with ih | ⟨hpast, ih⟩
    · refine Or.inr ⟨by omega, ?_⟩
      rw [ih, Nat.add_sub_cancel]
      simpa using hok
    · exact Or.inr ⟨by omega, ih⟩
  | case3 low high hge => exact Or.inl rfl

theorem firstAccepted_le_of_accepted {ok : Nat → Bool} {low high n : Nat}
    (hmono : ∀ i j, i ≤ j → j ≤ high → ok i = true → ok j = true) (hlow : low ≤ n) (hn : n ≤ high)
    (hok : ok n = true) : firstAccepted ok low high ≤ n := by
  by_contra hlt
  rcases firstAccepted_previous ok (Nat.le_trans hlow hn) with hstart | ⟨hpast, hrefused⟩
  · omega
  · have hbound := firstAccepted_le ok (Nat.le_trans hlow hn)
    have haccepted := hmono n (firstAccepted ok low high - 1) (by omega) (by omega) hok
    rw [hrefused] at haccepted
    cases haccepted

end Bisect
