import YCStudio.Evaluation.RankMetrics

namespace YCStudio

open Ranking

theorem length_relevantPositions_le {retrievedIds : List Str} (hnodup : retrievedIds.Nodup)
    (expectedIds : List Str) {k : Int} (hk : 0 ≤ k) :
    (relevantPositions retrievedIds expectedIds k).length ≤ idealHits expectedIds k := by
  have hslice : (sliceTo retrievedIds k).Nodup := by
    rw [sliceTo_of_nonneg _ hk]
    exact hnodup.sublist (List.take_sublist _ _)
  have hsubset : (sliceTo retrievedIds k).filter (· ∈ expectedIds) ⊆ expectedIds.dedup := by
    intro id hid
    simpa using (List.mem_filter.mp hid).2
  have hexpected := (List.subperm_of_subset (hslice.filter _) hsubset).length_le
  have hcut : ((sliceTo retrievedIds k).filter (· ∈ expectedIds)).length ≤ k.toNat := by
    refine (List.length_filter_le _ _).trans ?_
    rw [sliceTo_of_nonneg _ hk]
    exact List.length_take_le _ _
  rw [length_relevantPositions, idealHits]
  exact le_min hexpected hcut

theorem relevantPositions_eq_range' {retrievedIds expectedIds : List Str} {k : Int} (hk : 0 ≤ k)
    (hlength : (relevantPositions retrievedIds expectedIds k).length ≤ idealHits expectedIds k) :
    relevantPositions retrievedIds expectedIds k = List.range' 1 (idealHits expectedIds k) ↔
      ∀ i < idealHits expectedIds k, ∃ id, retrievedIds[i]? = some id ∧ id ∈ expectedIds := by
  rw [relevantPositions_eq] at hlength ⊢
  rw [ranksFrom_eq_range' hlength]
  refine forall₂_congr fun i hi => ?_
  have hcut : i < k.toNat := hi.trans_le (min_le_right _ _)
  rw [sliceTo_of_nonneg _ hk, List.getElem?_take_of_lt hcut]

section Normalised

variable {K : Type} [Field K] [LinearOrder K] {log2 : Nat → K} {retrievedIds expectedIds : List Str}
  {k : Int}

structure Normalised (log2 : Nat → K) (retrievedIds expectedIds : List Str) (k : Int) : Prop where
  gain_le : discountedGain log2 (relevantPositions retrievedIds expectedIds k) ≤
    idealGain log2 expectedIds k
  unclamped : ndcgAtK log2 retrievedIds expectedIds k =
    discountedGain log2 (relevantPositions retrievedIds expectedIds k) /
      idealGain log2 expectedIds k
  nonneg : 0 ≤ ndcgAtK log2 retrievedIds expectedIds k
  le_one : ndcgAtK log2 retrievedIds expectedIds k ≤ 1
  eq_zero_iff : ndcgAtK log2 retrievedIds expectedIds k = 0 ↔
    ∀ id ∈ sliceTo retrievedIds k, id ∉ expectedIds
  eq_one_iff : ndcgAtK log2 retrievedIds expectedIds k = 1 ↔
    ∀ i < idealHits expectedIds k, ∃ id, retrievedIds[i]? = some id ∧ id ∈ expectedIds

variable [IsStrictOrderedRing K] (hlog : Discounting log2)

include hlog

theorem Discounting.discountedGain_nonneg {positions : List Nat} (h : ∀ n ∈ positions, 1 ≤ n) :
    0 ≤ discountedGain log2 positions := by
  rcases eq_or_ne positions [] with rfl | hpositions
  · exact le_refl _
  · exact ((hlog.discountedGain_pos_iff h).mpr hpositions).le

theorem Discounting.discountedGain_le_ideal (hk : 0 ≤ k)
    (hlength : (relevantPositions retrievedIds expectedIds k).length ≤ idealHits expectedIds k) :
    discountedGain log2 (relevantPositions retrievedIds expectedIds k) ≤
      idealGain log2 expectedIds k :=
  calc discountedGain log2 (relevantPositions retrievedIds expectedIds k)
      ≤ discountedGain log2
          (List.range' 1 (relevantPositions retrievedIds expectedIds k).length) :=
        sum_gain_le hlog.strictAntiOn_gain.antitoneOn ranksFrom_sorted
          fun _ hn => ((mem_relevantPositions hk).mp hn).1
    _ ≤ idealGain log2 expectedIds k :=
        sum_range'_le_sum_range' (fun _ hn => (hlog.gain_pos hn).le) hlength

theorem Discounting.eq_range'_of_ideal (hk : 0 ≤ k)
    (hlength : (relevantPositions retrievedIds expectedIds k).length ≤ idealHits expectedIds k)
    (hideal : discountedGain log2 (relevantPositions retrievedIds expectedIds k) =
      idealGain log2 expectedIds k) :
    relevantPositions retrievedIds expectedIds k = List.range' 1 (idealHits expectedIds k) := by
  have hpos : ∀ n ∈ relevantPositions retrievedIds expectedIds k, 1 ≤ n := fun n hn =>
    ((mem_relevantPositions hk).mp hn).1
  have hsorted : (relevantPositions retrievedIds expectedIds k).Pairwise (· < ·) :=
    ranksFrom_sorted
  have htop := sum_gain_le hlog.strictAntiOn_gain.antitoneOn hsorted hpos
  have hsame : (relevantPositions retrievedIds expectedIds k).length = idealHits expectedIds k := by
    refine hlength.antisymm (not_lt.mp fun hlt => ?_)
    have hmore := sum_range'_lt_sum_range' (s := 1) (fun n hn => hlog.gain_pos hn) hlt
    exact absurd (htop.trans_lt hmore) (not_lt.mpr hideal.ge)
  have hall := eq_range'_of_sum_gain hlog.strictAntiOn_gain hsorted hpos
    (by
      rw [hsame]
      exact hideal.ge)
  rw [← hsame]
  exact hall

theorem Discounting.normalised (hnodup : retrievedIds.Nodup) (hexpected : expectedIds ≠ [])
    (hk : 1 ≤ k) : Normalised log2 retrievedIds expectedIds k := by
  have hk' : 0 ≤ k := by omega
  have hlength := length_relevantPositions_le hnodup expectedIds hk'
  have hpos : ∀ n ∈ relevantPositions retrievedIds expectedIds k, 1 ≤ n := fun n hn =>
    ((mem_relevantPositions hk').mp hn).1
  have hideal := hlog.idealGain_pos hexpected hk
  have hle := hlog.discountedGain_le_ideal hk' hlength
  have hratio : 0 ≤ discountedGain log2 (relevantPositions retrievedIds expectedIds k) /
      idealGain log2 expectedIds k := div_nonneg (hlog.discountedGain_nonneg hpos) hideal.le
  have hratio' : discountedGain log2 (relevantPositions retrievedIds expectedIds k) /
      idealGain log2 expectedIds k ≤ 1 := (div_le_one hideal).mpr hle
  have hunclamped : ndcgAtK log2 retrievedIds expectedIds k =
      discountedGain log2 (relevantPositions retrievedIds expectedIds k) /
        idealGain log2 expectedIds k := by
    rw [hlog.ndcgAtK_eq hexpected hk, max_eq_right hratio, min_eq_right hratio']
  have hnonneg : 0 ≤ ndcgAtK log2 retrievedIds expectedIds k := by
    rw [hunclamped]
    exact hratio
  refine ⟨hle, hunclamped, hnonneg, hunclamped ▸ hratio', ?_, ?_⟩
  · rw [← relevantPositions_eq_nil_iff, ← not_iff_not]
    exact hnonneg.lt_iff_ne'.symm.trans (hlog.ndcgAtK_pos_iff hk')
  · rw [hunclamped, div_eq_one_iff_eq hideal.ne', ← relevantPositions_eq_range' hk' hlength]
    constructor
    · exact hlog.eq_range'_of_ideal hk' hlength
    · intro hpositions
      rw [hpositions]
      rfl

end Normalised

theorem ndcgAtK_normalised {retrievedIds expectedIds : List Str} {k : Int}
    (hnodup : retrievedIds.Nodup) (hexpected : expectedIds ≠ []) (hk : 1 ≤ k) :
    Normalised binaryLog retrievedIds expectedIds k :=
  binaryLog_discounting.normalised hnodup hexpected hk

theorem ndcgAtK_normalised_secondRank :
    Normalised binaryLog ["x".toList, "a".toList] ["a".toList, "b".toList, "a".toList] 2 :=
  ndcgAtK_normalised (by decide) (by decide) (by decide)

end YCStudio
