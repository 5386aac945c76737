import YCStudio.Evaluation.Normalisation

namespace YCStudio

open Ranking

structure ScoresNoWorse {K : Type} [Field K] [LinearOrder K] (before after : RetrievalMetrics K) :
    Prop where
  «recall» : before.recall ≤ after.recall
  mrr : before.mrr ≤ after.mrr
  ndcg : before.ndcg ≤ after.ndcg

theorem mem_take_iff {m : Nat} {xs : List Str} {id : Str} :
    id ∈ xs.take m ↔ ∃ n < m, xs[n]? = some id := by
  constructor
  · intro hmem
    obtain ⟨n, hn⟩ := List.mem_iff_getElem?.mp hmem
    rw [List.getElem?_take] at hn
    split at hn
    · exact ⟨n, by assumption, hn⟩
    · cases hn
  · rintro ⟨n, hnm, hn⟩
    exact List.mem_iff_getElem?.mpr ⟨n, by rw [List.getElem?_take, if_pos hnm, hn]⟩

section Exchange

variable {K : Type} [Field K] [LinearOrder K] [IsStrictOrderedRing K] {log2 : Nat → K}
  {retrievedIds expectedIds : List Str} {k : Int} {i j : Nat} {x y : Str}
  (hi : retrievedIds[i]? = some x) (hj : retrievedIds[j]? = some y) (hij : i < j)
  (hx : x ∉ expectedIds) (hy : y ∈ expectedIds) (hk : 0 ≤ k)

include hi hj hij hx hy hk

omit hx hy in
theorem sliceTo_exchange (hcut : k ≤ i) :
    sliceTo (exchange retrievedIds i j) k = sliceTo retrievedIds k := by
  rw [sliceTo_of_nonneg _ hk, sliceTo_of_nonneg _ hk, take_exchange_of_le hi hj hij (by omega)]

theorem mem_relevantPositions_exchange (hcut : (i : Int) + 1 ≤ k) {position : Nat} :
    position ∈ relevantPositions (exchange retrievedIds i j) expectedIds k ↔
      position = i + 1 ∨
        (position ∈ relevantPositions retrievedIds expectedIds k ∧ position ≠ j + 1) := by
  rw [relevantPositions_eq, relevantPositions_eq, sliceTo_of_nonneg _ hk, sliceTo_of_nonneg _ hk]
  exact mem_ranksFrom_exchange hi hj hx hy hij (by omega)

theorem discountedGain_exchange_lt (hlog : Discounting log2) (hcut : (i : Int) + 1 ≤ k) :
    discountedGain log2 (relevantPositions retrievedIds expectedIds k) <
      discountedGain log2 (relevantPositions (exchange retrievedIds i j) expectedIds k) := by
  rw [relevantPositions_eq, relevantPositions_eq, sliceTo_of_nonneg _ hk, sliceTo_of_nonneg _ hk]
  exact sum_gain_exchange_lt hi hj hx hy hlog.strictAntiOn_gain (fun n hn => hlog.gain_pos hn) hij
    (by omega)

omit hy in
theorem recallAtK_exchange_le :
    (recallAtK retrievedIds expectedIds k : K) ≤
      recallAtK (exchange retrievedIds i j) expectedIds k := by
  refine recallAtK_mono fun id hid hslice => ?_
  rw [sliceTo_of_nonneg _ hk, mem_take_iff] at hslice ⊢
  obtain ⟨n, hn, hget⟩ := hslice
  by_cases hnj : n = j
  · subst hnj
    cases hj.symm.trans hget
    exact ⟨i, by omega, by rw [getElem?_exchange hi hj hij, if_pos rfl]⟩
  · have hni : n ≠ i := by
      rintro rfl
      cases hi.symm.trans hget
      exact hx hid
    exact ⟨n, hn, by rw [getElem?_exchange hi hj hij, if_neg hni, if_neg hnj, hget]⟩

theorem reciprocalRank_exchange_le :
    (reciprocalRank retrievedIds expectedIds (some k) : K) ≤
      reciprocalRank (exchange retrievedIds i j) expectedIds (some k) := by
  refine reciprocalRank_mono hk fun n hn => ?_
  by_cases hcut : (i : Int) + 1 ≤ k
  · by_cases hnj : n = j + 1
    · exact ⟨i + 1, (mem_relevantPositions_exchange hi hj hij hx hy hk hcut).mpr (Or.inl rfl),
        by omega⟩
    · exact ⟨n, (mem_relevantPositions_exchange hi hj hij hx hy hk hcut).mpr (Or.inr ⟨hn, hnj⟩),
        le_rfl⟩
  · refine ⟨n, ?_, le_rfl⟩
    rw [relevantPositions_eq, sliceTo_exchange hi hj hij hk (by omega)]
    exact hn

theorem ndcgAtK_exchange_lt (hlog : Discounting log2) (hnodup : retrievedIds.Nodup)
    (hcut : (i : Int) + 1 ≤ k) :
    ndcgAtK log2 retrievedIds expectedIds k <
      ndcgAtK log2 (exchange retrievedIds i j) expectedIds k := by
  have hexpected : expectedIds ≠ [] := List.ne_nil_of_mem hy
  have hnodup' : (exchange retrievedIds i j).Nodup :=
    (exchange_perm hi hj).nodup_iff.mpr hnodup
  rw [(hlog.normalised hnodup hexpected (by omega)).unclamped,
    (hlog.normalised hnodup' hexpected (by omega)).unclamped]
  exact div_lt_div_of_pos_right (discountedGain_exchange_lt hi hj hij hx hy hk hlog hcut)
    (hlog.idealGain_pos hexpected (by omega))

theorem ndcgAtK_exchange_le (hlog : Discounting log2) (hnodup : retrievedIds.Nodup) :
    ndcgAtK log2 retrievedIds expectedIds k ≤
      ndcgAtK log2 (exchange retrievedIds i j) expectedIds k := by
  by_cases hcut : (i : Int) + 1 ≤ k
  · exact (ndcgAtK_exchange_lt hi hj hij hx hy hk hlog hnodup hcut).le
  · have hsame : relevantPositions (exchange retrievedIds i j) expectedIds.dedup k =
        relevantPositions retrievedIds expectedIds.dedup k := by
      rw [relevantPositions_eq, sliceTo_exchange hi hj hij hk (by omega), ← relevantPositions_eq]
    simp only [ndcgAtK, hsame]
    exact le_refl _

end Exchange

theorem evaluateRetrieval_exchange {retrievedIds expectedIds : List Str} {k : Int} {i j : Nat}
    {x y : Str} (hnodup : retrievedIds.Nodup) (hk : 1 ≤ k) (hij : i < j)
    (hi : retrievedIds[i]? = some x) (hx : x ∉ expectedIds) (hj : retrievedIds[j]? = some y)
    (hy : y ∈ expectedIds) :
    ScoresNoWorse (evaluateRetrieval binaryLog retrievedIds expectedIds k)
        (evaluateRetrieval binaryLog (exchange retrievedIds i j) expectedIds k) ∧
      -- The id that moves up stood at rank i + 1.
      ((i : Int) + 1 ≤ k →
        (evaluateRetrieval binaryLog retrievedIds expectedIds k).ndcg <
          (evaluateRetrieval binaryLog (exchange retrievedIds i j) expectedIds k).ndcg) := by
  have hk' : 0 ≤ k := by omega
  refine ⟨⟨?_, ?_, ?_⟩, fun hcut => ?_⟩
  · exact recallAtK_exchange_le hi hj hij hx hk'
  · exact reciprocalRank_exchange_le hi hj hij hx hy hk'
  · exact ndcgAtK_exchange_le hi hj hij hx hy hk' binaryLog_discounting hnodup
  · exact ndcgAtK_exchange_lt hi hj hij hx hy hk' binaryLog_discounting hnodup hcut

theorem evaluateRetrieval_exchange_acrossCutoff :
    (evaluateRetrieval binaryLog ["x".toList, "z".toList, "a".toList] ["a".toList] 2).ndcg <
      (evaluateRetrieval binaryLog (exchange ["x".toList, "z".toList, "a".toList] 0 2)
        ["a".toList] 2).ndcg :=
  (evaluateRetrieval_exchange (k := 2) (x := "x".toList) (y := "a".toList) (by decide) (by decide)
    (by decide) rfl (by decide) rfl (by decide)).2 (by decide)

end YCStudio
