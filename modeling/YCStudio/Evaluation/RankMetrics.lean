import Mathlib.Analysis.SpecialFunctions.Log.Base
import YCStudio.Evaluation.Metrics
import YCStudio.Library.Ranking

namespace YCStudio

open Ranking

-- math.log2 on the integers, without rounding.
noncomputable def binaryLog (n : Nat) : ℝ := Real.logb 2 n

theorem relevantPositions_eq (retrievedIds expectedIds : List Str) (k : Int) :
    relevantPositions retrievedIds expectedIds k =
      ranksFrom (· ∈ expectedIds) 1 (sliceTo retrievedIds k) := rfl

theorem sliceTo_of_nonneg {α : Type} (values : List α) {k : Int} (h : 0 ≤ k) :
    sliceTo values k = values.take k.toNat := by
  rw [sliceTo, if_neg (not_lt.mpr h)]

theorem length_relevantPositions {retrievedIds expectedIds : List Str} {k : Int} :
    (relevantPositions retrievedIds expectedIds k).length =
      ((sliceTo retrievedIds k).filter (· ∈ expectedIds)).length := length_ranksFrom

theorem relevantPositions_eq_nil_iff {retrievedIds expectedIds : List Str} {k : Int} :
    relevantPositions retrievedIds expectedIds k = [] ↔
      ∀ id ∈ sliceTo retrievedIds k, id ∉ expectedIds := ranksFrom_eq_nil_iff

theorem relevantPositions_dedup (retrievedIds expectedIds : List Str) (k : Int) :
    relevantPositions retrievedIds expectedIds.dedup k =
      relevantPositions retrievedIds expectedIds k := by
  simp only [relevantPositions, List.mem_dedup]

theorem mem_relevantPositions {retrievedIds expectedIds : List Str} {k : Int} (hk : 0 ≤ k)
    {position : Nat} :
    position ∈ relevantPositions retrievedIds expectedIds k ↔
      1 ≤ position ∧ position ≤ k.toNat ∧
        ∃ id, retrievedIds[position - 1]? = some id ∧ id ∈ expectedIds := by
  rw [relevantPositions_eq, mem_ranksFrom, sliceTo_of_nonneg _ hk, List.getElem?_take]
  constructor
  · rintro ⟨hpos, id, hget, hid⟩
    split at hget
    · exact ⟨hpos, by omega, id, hget, hid⟩
    · cases hget
  · rintro ⟨hpos, hle, id, hget, hid⟩
    exact ⟨hpos, id, by rw [if_pos (by omega)]; exact hget, hid⟩

section Gains

variable {K : Type} [Field K] [LinearOrder K]

structure Discounting (log2 : Nat → K) : Prop where
  pos : ∀ n, 2 ≤ n → 0 < log2 n
  lt : ∀ m n, 2 ≤ m → m < n → log2 m < log2 n

def gain (log2 : Nat → K) (position : Nat) : K := 1 / log2 (position + 1)

def idealHits (expectedIds : List Str) (k : Int) : Nat := min expectedIds.dedup.length k.toNat

def idealGain (log2 : Nat → K) (expectedIds : List Str) (k : Int) : K :=
  discountedGain log2 (List.range' 1 (idealHits expectedIds k))

omit [LinearOrder K] in
theorem discountedGain_eq (log2 : Nat → K) (positions : List Nat) :
    discountedGain log2 positions = (positions.map (gain log2)).sum := rfl

variable [IsStrictOrderedRing K] {log2 : Nat → K} {retrievedIds expectedIds : List Str} {k : Int}

theorem recallAtK_pos_iff (hk : 0 ≤ k) :
    0 < (recallAtK retrievedIds expectedIds k : K) ↔
      relevantPositions retrievedIds expectedIds k ≠ [] := by
  rw [recallAtK]
  dsimp only
  split
  · rename_i hnone
    have hnil : relevantPositions retrievedIds expectedIds k = [] := by
      rw [relevantPositions_eq_nil_iff]
      intro id hid hmem
      rcases hnone with hempty | hzero
      · rw [List.dedup_eq_nil] at hempty
        rw [hempty] at hmem
        cases hmem
      · rw [sliceTo_of_nonneg _ hk, Int.toNat_of_nonpos hzero] at hid
        cases hid
    simp [hnil]
  · rename_i hsome
    rw [not_or, not_le] at hsome
    have hpos : (0 : K) < expectedIds.dedup.length := by
      exact_mod_cast List.length_pos_iff.mpr hsome.1
    rw [lt_min_iff, lt_max_iff, and_iff_right one_pos, or_iff_right (lt_irrefl _),
      div_pos_iff_of_pos_right hpos, Nat.cast_pos, List.length_pos_iff, ne_eq, ne_eq, not_iff_not,
      List.filter_eq_nil_iff, relevantPositions_eq_nil_iff]
    simp only [List.mem_dedup, decide_eq_true_eq]
    exact ⟨fun h id hslice hid => h id hid hslice, fun h id hid hslice => h id hslice hid⟩

omit [IsStrictOrderedRing K] in
theorem recallAtK_of_nonpos (hk : k ≤ 0) : (recallAtK retrievedIds expectedIds k : K) = 0 :=
  if_pos (Or.inr hk)

omit [IsStrictOrderedRing K] in
theorem ndcgAtK_of_nonpos (hk : k ≤ 0) : ndcgAtK log2 retrievedIds expectedIds k = 0 :=
  if_pos (Or.inr hk)

omit [LinearOrder K] [IsStrictOrderedRing K] in
theorem reciprocalRank_of_nonneg (hk : 0 ≤ k) :
    (reciprocalRank retrievedIds expectedIds (some k) : K) =
      match relevantPositions retrievedIds expectedIds k with
      | [] => 0
      | position :: _ => 1 / position := by
  change (match relevantPositions retrievedIds expectedIds (max 0 k) with
    | [] => 0
    | position :: _ => 1 / (position : K)) = _
  rw [max_eq_right hk]

omit [LinearOrder K] [IsStrictOrderedRing K] in
theorem reciprocalRank_of_nonpos (hk : k ≤ 0) :
    (reciprocalRank retrievedIds expectedIds (some k) : K) = 0 := by
  have hnil : relevantPositions retrievedIds expectedIds 0 = [] := rfl
  rw [reciprocalRank]
  simp only [max_eq_left hk, hnil]

theorem reciprocalRank_pos_iff (hk : 0 ≤ k) :
    0 < (reciprocalRank retrievedIds expectedIds (some k) : K) ↔
      relevantPositions retrievedIds expectedIds k ≠ [] := by
  rw [reciprocalRank_of_nonneg hk]
  cases hpositions : relevantPositions retrievedIds expectedIds k with
  | nil => simp
  | cons position positions =>
    have hpos : 1 ≤ position := ((mem_relevantPositions hk).mp
      (hpositions ▸ List.mem_cons_self : position ∈ _)).1
    simp only [ne_eq, reduceCtorEq, not_false_eq_true, iff_true, one_div, inv_pos, Nat.cast_pos]
    omega

theorem recallAtK_mono {retrievedIds' : List Str}
    (h : ∀ id ∈ expectedIds, id ∈ sliceTo retrievedIds k → id ∈ sliceTo retrievedIds' k) :
    (recallAtK retrievedIds expectedIds k : K) ≤ recallAtK retrievedIds' expectedIds k := by
  have hcount : (expectedIds.dedup.filter (· ∈ sliceTo retrievedIds k)).length ≤
      (expectedIds.dedup.filter (· ∈ sliceTo retrievedIds' k)).length := by
    rw [← List.countP_eq_length_filter, ← List.countP_eq_length_filter]
    apply List.countP_mono_left
    intro id hid hslice
    rw [decide_eq_true_eq] at hslice ⊢
    exact h id (List.mem_dedup.mp hid) hslice
  rw [recallAtK, recallAtK]
  dsimp only
  split
  · exact le_refl _
  · refine min_le_min_left _ (max_le_max_left _ ?_)
    exact div_le_div_of_nonneg_right (Nat.cast_le.mpr hcount) (Nat.cast_nonneg _)

theorem reciprocalRank_mono {retrievedIds' : List Str} (hk : 0 ≤ k)
    (h : ∀ n ∈ relevantPositions retrievedIds expectedIds k,
      ∃ m ∈ relevantPositions retrievedIds' expectedIds k, m ≤ n) :
    (reciprocalRank retrievedIds expectedIds (some k) : K) ≤
      reciprocalRank retrievedIds' expectedIds (some k) := by
  have hsorted : (relevantPositions retrievedIds' expectedIds k).Pairwise (· < ·) :=
    ranksFrom_sorted
  rw [reciprocalRank_of_nonneg hk, reciprocalRank_of_nonneg hk]
  cases hbefore : relevantPositions retrievedIds expectedIds k with
  | nil =>
    cases relevantPositions retrievedIds' expectedIds k with
    | nil => exact le_refl _
    | cons position positions => exact one_div_nonneg.mpr (Nat.cast_nonneg _)
  | cons position positions =>
    rw [hbefore] at h
    obtain ⟨m, hm, hle⟩ := h position List.mem_cons_self
    cases hafter : relevantPositions retrievedIds' expectedIds k with
    | nil =>
      rw [hafter] at hm
      cases hm
    | cons first rest =>
      have hpos : 1 ≤ first := ((mem_relevantPositions hk).mp
        (hafter ▸ List.mem_cons_self : first ∈ _)).1
      rw [hafter] at hm hsorted
      have hfirst : first ≤ m := by
        rcases List.mem_cons.mp hm with rfl | hrest
        · exact le_rfl
        · exact ((List.pairwise_cons.mp hsorted).1 m hrest).le
      refine one_div_le_one_div_of_le (by exact_mod_cast hpos) ?_
      exact_mod_cast hfirst.trans hle

variable (hlog : Discounting log2)

include hlog

theorem Discounting.gain_pos {position : Nat} (h : 1 ≤ position) : 0 < gain log2 position :=
  one_div_pos.mpr (hlog.pos _ (by omega))

theorem Discounting.strictAntiOn_gain : StrictAntiOn (gain log2) (Set.Ici 1) := by
  intro m hm n _ hmn
  rw [Set.mem_Ici] at hm
  exact one_div_lt_one_div_of_lt (hlog.pos _ (by omega)) (hlog.lt _ _ (by omega) (by omega))

theorem Discounting.discountedGain_pos_iff {positions : List Nat} (h : ∀ n ∈ positions, 1 ≤ n) :
    0 < discountedGain log2 positions ↔ positions ≠ [] := by
  cases positions with
  | nil => simp [discountedGain]
  | cons position positions =>
    obtain ⟨hfirst, hrest⟩ := List.forall_mem_cons.mp h
    have hnonneg : 0 ≤ (positions.map (gain log2)).sum := by
      apply List.sum_nonneg
      intro v hv
      obtain ⟨n, hn, rfl⟩ := List.mem_map.mp hv
      exact (hlog.gain_pos (hrest n hn)).le
    rw [discountedGain_eq, List.map_cons, List.sum_cons]
    simpa using add_pos_of_pos_of_nonneg (hlog.gain_pos hfirst) hnonneg

theorem Discounting.idealGain_pos (hexpected : expectedIds ≠ []) (hk : 1 ≤ k) :
    0 < idealGain log2 expectedIds k := by
  rw [idealGain, hlog.discountedGain_pos_iff (fun n hn => (List.mem_range'_1.mp hn).1), ne_eq,
    List.range'_eq_nil_iff, idealHits]
  have hlength : 0 < expectedIds.dedup.length :=
    List.length_pos_iff.mpr (mt (List.dedup_eq_nil _).mp hexpected)
  omega

theorem Discounting.ndcgAtK_eq (hexpected : expectedIds ≠ []) (hk : 1 ≤ k) :
    ndcgAtK log2 retrievedIds expectedIds k =
      min 1 (max 0 (discountedGain log2 (relevantPositions retrievedIds expectedIds k) /
        idealGain log2 expectedIds k)) := by
  have hguard : ¬ (expectedIds.dedup = [] ∨ k ≤ 0) := by
    rw [not_or]
    exact ⟨mt (List.dedup_eq_nil _).mp hexpected, by omega⟩
  rw [ndcgAtK]
  dsimp only
  rw [if_neg hguard, relevantPositions_dedup]
  exact if_neg (hlog.idealGain_pos hexpected hk).ne'

theorem Discounting.ndcgAtK_pos_iff (hk : 0 ≤ k) :
    0 < ndcgAtK log2 retrievedIds expectedIds k ↔
      relevantPositions retrievedIds expectedIds k ≠ [] := by
  rcases eq_or_ne expectedIds [] with hempty | hexpected
  · have hnil : relevantPositions retrievedIds expectedIds k = [] := by
      rw [relevantPositions_eq_nil_iff, hempty]
      simp
    rw [hnil, hempty]
    simp [ndcgAtK]
  · rcases hk.eq_or_lt with rfl | hpos
    · rw [ndcgAtK_of_nonpos le_rfl]
      simp [show relevantPositions retrievedIds expectedIds 0 = [] from rfl]
    · rw [hlog.ndcgAtK_eq hexpected hpos, lt_min_iff, lt_max_iff, and_iff_right one_pos,
        or_iff_right (lt_irrefl _), div_pos_iff_of_pos_right (hlog.idealGain_pos hexpected hpos)]
      exact hlog.discountedGain_pos_iff fun n hn => ((mem_relevantPositions hk).mp hn).1

end Gains

theorem binaryLog_discounting : Discounting binaryLog where
  pos n hn := Real.logb_pos (by norm_num) (by exact_mod_cast hn)
  lt m n hm hmn := Real.logb_lt_logb (by norm_num) (by positivity) (by exact_mod_cast hmn)

end YCStudio
