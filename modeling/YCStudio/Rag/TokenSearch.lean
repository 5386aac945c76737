import YCStudio.Rag.Chunker

namespace YCStudio.TextChunker

variable (chunker : TextChunker) (text : Str) (limit : Nat)

def CountsPrefixes : Prop :=
  ∀ s t : Str, s <+: t → t <+: text → chunker.countTokens s ≤ chunker.countTokens t

def CountsSuffixes : Prop :=
  ∀ s t : Str, s <:+ t → t <:+ text → chunker.countTokens s ≤ chunker.countTokens t

structure FoundPrefix (n : Nat) : Prop where
  le_length : n ≤ text.length
  fits : n = 0 ∨ chunker.countTokens (text.take n) ≤ limit
  zero : n = 0 → text = [] ∨ ∃ c rest, text = c :: rest ∧ limit < chunker.countTokens [c]
  greatest : chunker.CountsPrefixes text → ∀ m ≤ text.length,
    chunker.countTokens (text.take m) ≤ limit → m ≤ n

structure FoundTail (suffix : Str) : Prop where
  isSuffix : suffix <:+ text
  fits : suffix = [] ∨ chunker.countTokens suffix ≤ limit
  longest : chunker.CountsSuffixes text → ∀ t, t <:+ text → chunker.countTokens t ≤ limit →
    t.length ≤ suffix.length

variable {text limit}

theorem largestPrefix_fits (h : chunker.largestPrefixWithinLimit text limit ≠ 0) :
    chunker.countTokens (text.take (chunker.largestPrefixWithinLimit text limit)) ≤ limit := by
  rcases Bisect.lastAccepted_accepted
    (fun n => chunker.countTokens (text.take n) ≤ limit) 0 text.length with hz | hok
  · exact absurd hz h
  · exact of_decide_eq_true hok

theorem largestPrefix_eq_zero {c : Char} {rest : Str}
    (h : chunker.largestPrefixWithinLimit (c :: rest) limit = 0) :
    limit < chunker.countTokens [c] := by
  rcases Bisect.lastAccepted_next
    (fun n => chunker.countTokens ((c :: rest).take n) ≤ limit)
    (Nat.zero_le (c :: rest).length) with hlen | hnext
  · change chunker.largestPrefixWithinLimit (c :: rest) limit = _ at hlen
    rw [h] at hlen
    simp at hlen
  · change decide (chunker.countTokens ((c :: rest).take
      (chunker.largestPrefixWithinLimit (c :: rest) limit + 1)) ≤ limit) = false at hnext
    rw [h] at hnext
    simpa using hnext

theorem largestPrefix_greatest (hmono : chunker.CountsPrefixes text) {n : Nat}
    (hn : n ≤ text.length) (hfits : chunker.countTokens (text.take n) ≤ limit) :
    n ≤ chunker.largestPrefixWithinLimit text limit := by
  refine Bisect.le_lastAccepted (fun i j hij _ hj => ?_) hn (decide_eq_true hfits) (Nat.zero_le _)
  have hprefix : text.take i <+: text.take j := List.take_prefix_take_left hij
  exact decide_eq_true ((hmono _ _ hprefix (List.take_prefix j text)).trans (of_decide_eq_true hj))

theorem foundPrefix_largestPrefix (text : Str) (limit : Nat) :
    chunker.FoundPrefix text limit (chunker.largestPrefixWithinLimit text limit) where
  le_length := Bisect.lastAccepted_le _ (Nat.zero_le _)
  fits := by
    by_cases hzero : chunker.largestPrefixWithinLimit text limit = 0
    · exact Or.inl hzero
    · exact Or.inr (chunker.largestPrefix_fits hzero)
  zero hzero := by
    cases text with
    | nil => exact Or.inl rfl
    | cons c rest => exact Or.inr ⟨c, rest, rfl, chunker.largestPrefix_eq_zero hzero⟩
  greatest hmono _ hm hfits := chunker.largestPrefix_greatest hmono hm hfits

theorem foundTail_firstAccepted (text : Str) (limit : Nat) :
    chunker.FoundTail text limit (text.drop
      (Bisect.firstAccepted (fun n => chunker.countTokens (text.drop n) ≤ limit) 0 text.length)) where
  isSuffix := List.drop_suffix _ text
  fits := by
    rcases Bisect.firstAccepted_accepted
      (fun n => chunker.countTokens (text.drop n) ≤ limit) (Nat.zero_le text.length) with hend | hok
    · exact Or.inl (by rw [hend]; exact List.drop_length)
    · exact Or.inr (of_decide_eq_true hok)
  longest hmono t ht hfits := by
    have hdrop : t = text.drop (text.length - t.length) := List.suffix_iff_eq_drop.mp ht
    have hle := ht.length_le
    have hfirst : Bisect.firstAccepted (fun n => chunker.countTokens (text.drop n) ≤ limit) 0
        text.length ≤ text.length - t.length := by
      refine Bisect.firstAccepted_le_of_accepted (fun i j hij _ hi => ?_) (Nat.zero_le _)
        (Nat.sub_le _ _) (decide_eq_true (hdrop ▸ hfits))
      have hsuffix : text.drop j <:+ text.drop i := List.drop_suffix_drop_left text hij
      exact decide_eq_true ((hmono _ _ hsuffix (List.drop_suffix i text)).trans (of_decide_eq_true hi))
    rw [List.length_drop]
    omega

theorem tokenSearches_found (text : Str) (limit : Nat) :
    chunker.FoundPrefix text limit (chunker.largestPrefixWithinLimit text limit) ∧
      (0 < limit → ∃ suffix, chunker.FoundTail text limit suffix ∧
        chunker.tokenLimitedTail text limit = Str.strip suffix) := by
  refine ⟨chunker.foundPrefix_largestPrefix text limit, fun hlimit => ?_⟩
  exact ⟨_, chunker.foundTail_firstAccepted text limit,
    by rw [tokenLimitedTail, if_neg (Nat.ne_of_gt hlimit)]⟩

end YCStudio.TextChunker
