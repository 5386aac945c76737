import Mathlib.Algebra.Order.BigOperators.Group.List
import Mathlib.Algebra.BigOperators.Ring.List
import Mathlib.Algebra.Order.Field.Basic

namespace WeightedMean

variable {ι K : Type} [Field K] [LinearOrder K] [IsStrictOrderedRing K] (w v : ι → K) (xs : List ι)

def mean : K := (xs.map fun x => v x * w x).sum / (xs.map w).sum

def SameSign : Prop := (∀ x ∈ xs, 0 ≤ w x) ∨ ∀ x ∈ xs, w x ≤ 0

variable {w v xs}

omit [IsStrictOrderedRing K] in
theorem not_sameSign_iff :
    ¬ SameSign w xs ↔ (∃ x ∈ xs, w x < 0) ∧ ∃ x ∈ xs, 0 < w x := by
  simp [SameSign]

omit [IsStrictOrderedRing K] [LinearOrder K] in
theorem sum_neg (f : ι → K) : (xs.map fun x => - f x).sum = - (xs.map f).sum := by
  induction xs with
  | nil => simp
  | cons x xs ih => simp [ih, add_comm]

omit [IsStrictOrderedRing K] [LinearOrder K] in
theorem mean_neg : mean (fun x => - w x) v xs = mean w v xs := by
  simp only [mean, mul_neg]
  rw [sum_neg, sum_neg, neg_div_neg_eq]

theorem eq_zero_of_sameSign (hw : SameSign w xs) (hsum : (xs.map w).sum = 0) :
    ∀ x ∈ xs, w x = 0 := by
  intro x hx
  rcases hw with hnonneg | hnonpos
  · exact List.all_zero_of_le_zero_le_of_sum_eq_zero (by simpa using hnonneg) hsum
      (List.mem_map_of_mem hx)
  · have hneg : (xs.map fun x => - w x).sum = 0 := by rw [sum_neg, hsum, neg_zero]
    exact neg_eq_zero.mp (List.all_zero_of_le_zero_le_of_sum_eq_zero (by simpa using hnonpos) hneg
      (List.mem_map_of_mem hx))

section Bounds

variable (hv : ∀ x ∈ xs, 0 ≤ v x ∧ v x ≤ 1)

include hv

theorem mean_mem_of_nonneg (hw : ∀ x ∈ xs, 0 ≤ w x) : 0 ≤ mean w v xs ∧ mean w v xs ≤ 1 := by
  have hweights : 0 ≤ (xs.map w).sum := List.sum_nonneg (by simpa using hw)
  have hvalues : 0 ≤ (xs.map fun x => v x * w x).sum := by
    apply List.sum_nonneg
    simpa using fun x hx => mul_nonneg (hv x hx).1 (hw x hx)
  have hle : (xs.map fun x => v x * w x).sum ≤ (xs.map w).sum :=
    List.sum_le_sum fun x hx => mul_le_of_le_one_left (hw x hx) (hv x hx).2
  exact ⟨div_nonneg hvalues hweights, div_le_one_of_le₀ hle hweights⟩

theorem mean_mem_of_sameSign (hw : SameSign w xs) : 0 ≤ mean w v xs ∧ mean w v xs ≤ 1 := by
  rcases hw with hnonneg | hnonpos
  · exact mean_mem_of_nonneg hv hnonneg
  · rw [← mean_neg]
    exact mean_mem_of_nonneg hv fun x hx => neg_nonneg.mpr (hnonpos x hx)

end Bounds

variable (w) in
def positivePart (x : ι) : K := if 0 < w x then 1 else 0

omit [IsStrictOrderedRing K] in
theorem positivePart_mul (x : ι) : positivePart w x * w x = max 0 (w x) := by
  unfold positivePart
  split
  · rw [one_mul, max_eq_right (le_of_lt (by assumption))]
  · rw [zero_mul, max_eq_left (not_lt.mp (by assumption))]

theorem mean_positivePart_not_mem (hsign : ¬ SameSign w xs) (hsum : (xs.map w).sum ≠ 0) :
    ¬ (0 ≤ mean w (positivePart w) xs ∧ mean w (positivePart w) xs ≤ 1) := by
  obtain ⟨⟨y, hy, hneg⟩, x, hx, hpos⟩ := not_sameSign_iff.mp hsign
  have hparts : (xs.map fun x => positivePart w x * w x) = xs.map fun x => max 0 (w x) :=
    List.map_congr_left fun x _ => positivePart_mul x
  have hpositive : 0 < (xs.map fun x => max 0 (w x)).sum := by
    have hlt := List.sum_lt_sum (fun _ => 0) (fun x => max 0 (w x)) (l := xs)
      (fun x _ => le_max_left 0 (w x)) ⟨x, hx, lt_max_of_lt_right hpos⟩
    simpa using hlt
  have hexceeds : (xs.map w).sum < (xs.map fun x => max 0 (w x)).sum :=
    List.sum_lt_sum _ _ (fun x _ => le_max_right 0 (w x)) ⟨y, hy, lt_max_of_lt_left hneg⟩
  rintro ⟨hge, hle⟩
  rw [mean, hparts] at hge hle
  rcases lt_or_gt_of_ne hsum with hnegative | hpositive'
  · exact absurd (div_neg_of_pos_of_neg hpositive hnegative) (not_lt.mpr hge)
  · exact absurd ((div_le_one hpositive').mp hle) (not_le.mpr hexceeds)

end WeightedMean
