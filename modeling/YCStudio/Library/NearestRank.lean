import Mathlib.Algebra.Order.Floor.Div
import Mathlib.Data.List.Sort

namespace NearestRank

def rank (num den count : Nat) : Nat := max 1 (num * count ⌈/⌉ den)

section Rank

variable {num num' den count : Nat}

theorem one_le_rank : 1 ≤ rank num den count := le_max_left _ _

theorem mul_le_mul_rank (hden : 0 < den) : num * count ≤ den * rank num den count :=
  (ceilDiv_le_iff_le_mul hden).mp (le_max_right _ _)

theorem rank_le (hden : 0 < den) (hnum : num ≤ den) (hcount : 0 < count) :
    rank num den count ≤ count :=
  max_le hcount ((ceilDiv_le_iff_le_mul hden).mpr (Nat.mul_le_mul_right count hnum))

theorem rank_mono (hden : 0 < den) (h : num ≤ num') : rank num den count ≤ rank num' den count := by
  refine max_le one_le_rank ((ceilDiv_le_iff_le_mul hden).mpr ?_)
  exact (Nat.mul_le_mul_right count h).trans (mul_le_mul_rank hden)

theorem mul_pred_rank_lt (hden : 0 < den) (hnum : 0 < num) (hcount : 0 < count) :
    den * (rank num den count - 1) < num * count := by
  by_contra h
  have hceil : num * count ⌈/⌉ den ≤ rank num den count - 1 :=
    (ceilDiv_le_iff_le_mul hden).mpr (Nat.le_of_not_lt h)
  have hpos : 0 < num * count := Nat.mul_pos hnum hcount
  have hreach : num * count ≤ den * (num * count ⌈/⌉ den) := (ceilDiv_le_iff_le_mul hden).mp le_rfl
  have hone : 0 < num * count ⌈/⌉ den := Nat.pos_of_mul_pos_left (hpos.trans_le hreach)
  unfold rank at hceil
  omega

end Rank

variable {α : Type} [LinearOrder α] {xs ordered : List α}

theorem lt_countP_le (h : ordered.Pairwise (· ≤ ·)) {i : Nat} (hi : i < ordered.length) :
    i < ordered.countP (· ≤ ordered[i]) := by
  induction ordered generalizing i with
  | nil => cases hi
  | cons x ordered ih =>
    obtain ⟨hfirst, hrest⟩ := List.pairwise_cons.mp h
    cases i with
    | zero => simp
    | succ i =>
      have hi' : i < ordered.length := Nat.lt_of_succ_lt_succ hi
      have hx : x ≤ ordered[i] := hfirst _ (List.getElem_mem hi')
      simpa [hx] using ih hrest hi'

theorem countP_lt_le (h : ordered.Pairwise (· ≤ ·)) {i : Nat} (hi : i < ordered.length) :
    ordered.countP (· < ordered[i]) ≤ i := by
  induction ordered generalizing i with
  | nil => cases hi
  | cons x ordered ih =>
    obtain ⟨hfirst, hrest⟩ := List.pairwise_cons.mp h
    cases i with
    | zero => simpa [List.countP_eq_zero] using hfirst
    | succ i =>
      have hi' : i < ordered.length := Nat.lt_of_succ_lt_succ hi
      have hcount := ih hrest hi'
      rw [List.getElem_cons_succ, List.countP_cons]
      split <;> omega

theorem getElem_mono (h : ordered.Pairwise (· ≤ ·)) {i j : Nat} (hi : i < ordered.length)
    (hj : j < ordered.length) (hij : i ≤ j) : ordered[i] ≤ ordered[j] := by
  rcases hij.eq_or_lt with rfl | hlt
  · exact le_rfl
  · exact List.pairwise_iff_getElem.mp h i j hi hj hlt

structure IsNearestRank (num den : Nat) (xs : List α) (v : α) : Prop where
  mem : v ∈ xs
  reached : num * xs.length ≤ den * xs.countP (· ≤ v)
  below : 0 < num → den * xs.countP (· < v) < num * xs.length

theorem isNearestRank_getElem {num den : Nat} (hden : 0 < den) (hperm : ordered.Perm xs)
    (hsorted : ordered.Pairwise (· ≤ ·))
    (hi : rank num den xs.length - 1 < ordered.length) :
    IsNearestRank num den xs ordered[rank num den xs.length - 1] where
  mem := hperm.subset (List.getElem_mem hi)
  reached := by
    have hcount := lt_countP_le hsorted hi
    have hone : 1 ≤ rank num den xs.length := one_le_rank
    rw [hperm.countP_eq] at hcount
    exact (mul_le_mul_rank hden).trans (Nat.mul_le_mul_left den (by omega))
  below := by
    intro hnum
    have hcount := countP_lt_le hsorted hi
    have hlength := hperm.length_eq
    rw [hperm.countP_eq] at hcount
    exact (Nat.mul_le_mul_left den hcount).trans_lt (mul_pred_rank_lt hden hnum (by omega))

end NearestRank
