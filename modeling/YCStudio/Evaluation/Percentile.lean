import YCStudio.Evaluation.Metrics
import YCStudio.Library.NearestRank

namespace YCStudio

open NearestRank

theorem percentile_perm {xs ys : List Rat} (h : xs.Perm ys) (percentileValue : Rat) :
    percentile xs percentileValue = percentile ys percentileValue := by
  have hsorted : xs.insertionSort (· ≤ ·) = ys.insertionSort (· ≤ ·) :=
    ((List.perm_insertionSort _ xs).trans (h.trans (List.perm_insertionSort _ ys).symm)).eq_of_pairwise
      (fun a b _ _ hab hba => le_antisymm hab hba) (List.pairwise_insertionSort _ xs)
      (List.pairwise_insertionSort _ ys)
  have hempty : xs = [] ↔ ys = [] := by
    rw [← List.length_eq_zero_iff, ← List.length_eq_zero_iff, h.length_eq]
  simp only [percentile, hsorted, hempty]

-- A part in hundredths is a whole number or at least 1 / 100 away from one, so that adding
-- 0.999999 and truncating rounds it up.
theorem floor_hundredths (parts : Nat) :
    ⌊(parts : Rat) / 100 + 999999 / 1000000⌋.toNat = parts ⌈/⌉ 100 := by
  have hupper : parts ≤ 100 * (parts ⌈/⌉ 100) := (ceilDiv_le_iff_le_mul (by decide)).mp le_rfl
  have hlower : 100 * (parts ⌈/⌉ 100) ≤ parts + 99 := by
    rw [Nat.ceilDiv_eq_add_pred_div]
    omega
  generalize parts ⌈/⌉ 100 = whole at hupper hlower
  have hfloor : ⌊(parts : Rat) / 100 + 999999 / 1000000⌋ = (whole : Int) := by
    have hupper' : (parts : Rat) ≤ 100 * whole := by exact_mod_cast hupper
    have hlower' : 100 * (whole : Rat) ≤ parts + 99 := by exact_mod_cast hlower
    rw [Int.floor_eq_iff, Int.cast_natCast]
    constructor <;> linarith
  rw [hfloor, Int.toNat_natCast]

section Ranks

variable {values : List Rat} {p : Nat}

theorem rank_lt_length (hvalues : values ≠ []) (hp : p ≤ 100) :
    rank p 100 values.length - 1 < (values.insertionSort (· ≤ ·)).length := by
  have hcount : 0 < values.length := List.length_pos_iff.mpr hvalues
  have hone : 1 ≤ rank p 100 values.length := one_le_rank
  have hle : rank p 100 values.length ≤ values.length := rank_le (by decide) hp hcount
  rw [List.length_insertionSort]
  omega

theorem percentile_eq (hvalues : values ≠ []) (hp : p ≤ 100) :
    percentile values p = .ok ((values.insertionSort (· ≤ ·)).get
      ⟨rank p 100 values.length - 1, rank_lt_length hvalues hp⟩) := by
  have hrange : 0 ≤ (p : Rat) ∧ (p : Rat) ≤ 100 := ⟨p.cast_nonneg, by exact_mod_cast hp⟩
  have hparts : (p : Rat) / 100 * values.length = ((p * values.length : Nat) : Rat) / 100 := by
    push_cast
    ring
  have hlt := rank_lt_length hvalues hp
  have hmin : min values.length (rank p 100 values.length) = rank p 100 values.length := by
    rw [List.length_insertionSort] at hlt
    omega
  rw [percentile, if_neg hvalues, if_neg (not_not_intro hrange)]
  simp only [List.length_insertionSort, hparts, floor_hundredths]
  rw [← rank, hmin, List.getD_eq_getElem?_getD, List.getElem?_eq_getElem hlt, Option.getD_some,
    List.get_eq_getElem]

theorem percentile_nearestRank (hvalues : values ≠ []) (hp : p ≤ 100) :
    ∃ v, percentile values p = .ok v ∧ IsNearestRank p 100 values v ∧
      (∀ values', values'.Perm values → percentile values' p = .ok v) ∧
      ∀ q ≤ p, ∃ w, percentile values q = .ok w ∧ w ≤ v := by
  have hsorted := List.pairwise_insertionSort (· ≤ ·) values
  have hperm := List.perm_insertionSort (· ≤ ·) values
  have hlt := rank_lt_length hvalues hp
  refine ⟨_, percentile_eq hvalues hp, isNearestRank_getElem (by decide) hperm hsorted hlt,
    fun values' h => ?_, fun q hq => ⟨_, percentile_eq hvalues (hq.trans hp), ?_⟩⟩
  · rw [percentile_perm h, percentile_eq hvalues hp]
  · exact getElem_mono hsorted (rank_lt_length hvalues (hq.trans hp)) hlt
      (Nat.sub_le_sub_right (rank_mono (by decide) hq) 1)

theorem percentile_nearestRank_median :
    ∃ v, percentile [7, 1, 4, 4] ((50 : Nat) : Rat) = .ok v ∧ IsNearestRank 50 100 [7, 1, 4, 4] v ∧
      (∀ values', values'.Perm [7, 1, 4, 4] → percentile values' ((50 : Nat) : Rat) = .ok v) ∧
      ∀ q : Nat, q ≤ 50 → ∃ w, percentile [7, 1, 4, 4] q = .ok w ∧ w ≤ v :=
  percentile_nearestRank (by simp) (by decide)

end Ranks

end YCStudio
