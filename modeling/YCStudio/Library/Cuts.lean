import YCStudio.Library.Trim

namespace Trim

variable {α : Type} [DecidableEq α] {c : α} {sep s t : List α}

theorem length_cutFrom_eq_one_iff (hsep : sep ≠ []) (s acc : List α) :
    (cutFrom sep s 0 acc).length = 1 ↔ ¬ sep <:+: s := by
  induction s generalizing acc with
  | nil => simp [cutFrom, List.infix_nil, hsep]
  | cons c rest ih =>
    rw [cutFrom, List.infix_cons_iff]
    split
    · next hstarts =>
      have hne := cutFrom_ne_nil sep rest (sep.length - 1) []
      have hoccurs : sep <+: c :: rest := List.isPrefixOf_iff_prefix.mp hstarts
      simp [hne, hoccurs]
    · next hstarts =>
      have habsent : ¬ sep <+: c :: rest := fun h => hstarts (List.isPrefixOf_iff_prefix.mpr h)
      rw [ih]
      simp [habsent]

theorem length_cut_eq_one_iff (hsep : sep ≠ []) : (cut sep s).length = 1 ↔ ¬ sep <:+: s :=
  length_cutFrom_eq_one_iff hsep s []

theorem cut_eq_self (hsep : sep ≠ []) (h : ¬ sep <:+: s) : cut sep s = [s] := by
  obtain ⟨part, hpart⟩ := List.length_eq_one_iff.mp ((length_cut_eq_one_iff hsep).mpr h)
  have hs := intercalate_cut hsep s
  rw [hpart, List.intercalate_singleton] at hs
  rw [hpart, hs]

theorem length_cut_singleton_eq_one_iff : (cut [c] s).length = 1 ↔ c ∉ s := by
  rw [length_cut_eq_one_iff (by simp), not_iff_not]
  refine ⟨fun h => h.subset List.mem_cons_self, fun h => ?_⟩
  obtain ⟨before, after, rfl⟩ := List.append_of_mem h
  exact ⟨before, after, by simp⟩

theorem cutFrom_singleton (c : α) (s acc : List α) :
    cutFrom [c] s 0 acc = (s.splitOn c).modifyHead (acc ++ ·) := by
  induction s generalizing acc with
  | nil => simp [cutFrom]
  | cons d rest ih =>
    rw [cutFrom, List.splitOn_cons_eq_if_modifyHead]
    by_cases hd : d = c
    · subst hd
      simp only [List.isPrefixOf, beq_self_eq_true, Bool.and_self, if_pos, List.length_singleton,
        Nat.sub_self, ih, List.modifyHead_cons, List.append_nil]
      cases rest.splitOn d <;> simp
    · have hstarts : [c].isPrefixOf (d :: rest) = false := by simpa [List.isPrefixOf] using Ne.symm hd
      have hne : (d == c) = false := by simpa using hd
      rw [hstarts, hne, if_neg (by simp), if_neg (by simp), ih, List.modifyHead_modifyHead]
      congr 1
      funext line
      simp

theorem cut_singleton (c : α) (s : List α) : cut [c] s = s.splitOn c := by
  rw [cut, cutFrom_singleton]
  cases s.splitOn c <;> simp

theorem intercalate_cut_singleton (c : α) (new s : List α) :
    new.intercalate (cut [c] s) = s.flatMap fun d => if d = c then new else [d] := by
  rw [cut_singleton]
  induction s with
  | nil => simp
  | cons d s ih =>
    rw [List.splitOn_cons_eq_if_modifyHead, List.flatMap_cons, ← ih]
    have hne := List.splitOn_ne_nil c s
    by_cases hd : d = c
    · subst hd
      simp [List.intercalate_cons_of_ne_nil hne]
    · rw [if_neg hd, if_neg (by simpa using hd)]
      cases hs : s.splitOn c with
      | nil => exact absurd hs hne
      | cons line lines =>
        cases lines with
        | nil => simp
        | cons next lines => simp [List.intercalate_cons_cons]

theorem intercalate_cut_eq_self (h : c ∉ s) (new : List α) : new.intercalate (cut [c] s) = s := by
  rw [cut_eq_self (by simp) (fun hwithin => h (hwithin.subset (by simp))), List.intercalate_singleton]

end Trim
