import YCStudio.Evaluation.RankMetrics

namespace YCStudio

structure RetrievalMetrics.Agree {K : Type} [Field K] [LinearOrder K] (metrics : RetrievalMetrics K)
    (retrievedIds expectedIds : List Str) (k : Int) : Prop where
  recall_iff : 0 < metrics.recall ↔ metrics.hitPositions ≠ []
  mrr_iff : 0 < metrics.mrr ↔ metrics.hitPositions ≠ []
  ndcg_iff : 0 < metrics.ndcg ↔ metrics.hitPositions ≠ []
  within : ∀ position ∈ metrics.hitPositions, 1 ≤ position ∧ (position : Int) ≤ k ∧
    ∃ id, retrievedIds[position - 1]? = some id ∧ id ∈ expectedIds
  first : ∀ position ∈ metrics.hitPositions.head?, metrics.mrr = 1 / position

section Agreement

variable {K : Type} [Field K] [LinearOrder K] [IsStrictOrderedRing K] {log2 : Nat → K}
  {retrievedIds expectedIds : List Str} {k : Int}

theorem Discounting.agree (hlog : Discounting log2) (hk : 0 ≤ k) :
    (evaluateRetrieval log2 retrievedIds expectedIds k).Agree retrievedIds expectedIds k where
  recall_iff := recallAtK_pos_iff hk
  mrr_iff := reciprocalRank_pos_iff hk
  ndcg_iff := hlog.ndcgAtK_pos_iff hk
  within position hposition := by
    obtain ⟨hpos, hle, hget⟩ := (mem_relevantPositions hk).mp hposition
    exact ⟨hpos, by omega, hget⟩
  first position hposition := by
    have hpositions : (relevantPositions retrievedIds expectedIds k).head? = some position :=
      hposition
    simp only [evaluateRetrieval, reciprocalRank_of_nonneg hk]
    cases hlist : relevantPositions retrievedIds expectedIds k with
    | nil => simp [hlist] at hpositions
    | cons first rest =>
      rw [hlist, List.head?_cons, Option.some.injEq] at hpositions
      rw [hpositions]

omit [IsStrictOrderedRing K] in
theorem agree_of_nonpos (hk : k ≤ 0)
    (hpositions : relevantPositions retrievedIds expectedIds k = []) :
    (evaluateRetrieval log2 retrievedIds expectedIds k).Agree retrievedIds expectedIds k := by
  have hrecall : (recallAtK retrievedIds expectedIds k : K) = 0 := recallAtK_of_nonpos hk
  have hmrr : (reciprocalRank retrievedIds expectedIds (some k) : K) = 0 :=
    reciprocalRank_of_nonpos hk
  have hndcg : ndcgAtK log2 retrievedIds expectedIds k = 0 := ndcgAtK_of_nonpos hk
  constructor <;> simp [evaluateRetrieval, hpositions, hrecall, hmrr, hndcg]

end Agreement

-- A negative k reaches the slice unguarded: retrieved_ids[:k] keeps all but the last -k ids.
theorem evaluateRetrieval_agree_iff (retrievedIds expectedIds : List Str) (k : Int) :
    (evaluateRetrieval binaryLog retrievedIds expectedIds k).Agree retrievedIds expectedIds k ↔
      (k < 0 → ∀ id ∈ sliceTo retrievedIds k, id ∉ expectedIds) := by
  constructor
  · intro hagree hk
    rw [← relevantPositions_eq_nil_iff]
    by_contra hpositions
    have hrecall := hagree.recall_iff.mpr hpositions
    have hzero : (recallAtK retrievedIds expectedIds k : ℝ) = 0 := recallAtK_of_nonpos hk.le
    exact absurd hrecall (not_lt.mpr hzero.le)
  · intro hslice
    rcases lt_or_ge k 0 with hk | hk
    · exact agree_of_nonpos hk.le (relevantPositions_eq_nil_iff.mpr (hslice hk))
    · exact binaryLog_discounting.agree hk

theorem not_agree_negativeCutoff :
    ¬ (evaluateRetrieval binaryLog ["a".toList, "b".toList] ["a".toList] (-1)).Agree
      ["a".toList, "b".toList] ["a".toList] (-1) := by
  intro hagree
  have hrecall := hagree.recall_iff.mpr (by decide +kernel)
  have hzero : (recallAtK ["a".toList, "b".toList] ["a".toList] (-1) : ℝ) = 0 :=
    recallAtK_of_nonpos (by norm_num)
  exact absurd hrecall (not_lt.mpr hzero.le)

end YCStudio
