import Mathlib.Data.List.Infix
import Mathlib.Data.List.TakeDrop

namespace Deletion

variable {α : Type} (words : List (List α))

def Covered (s : List α) (i : Nat) : Prop :=
  ∃ word ∈ words, ∃ j, j ≤ i ∧ i < j + word.length ∧ word <+: s.drop j

structure Separate (words : List (List α)) : Prop where
  nonempty : ∀ word ∈ words, word ≠ []
  prefixFree : ∀ word ∈ words, ∀ other ∈ words, word <+: other → word = other
  heads : ∀ word ∈ words, ∀ other ∈ words, ∀ c ∈ other.head?, c ∉ word.tail

variable {words}

theorem Separate.not_prefix_drop (h : Separate words) {word other rest : List α} (hword : word ∈ words)
    (hother : other ∈ words) (hoccurs : word <+: rest) {k : Nat} (hpos : 0 < k) (hk : k < word.length) :
    ¬ other <+: rest.drop k := by
  intro hstarts
  obtain ⟨after, rfl⟩ := hoccurs
  obtain ⟨c, tail, hother'⟩ := List.exists_cons_of_ne_nil (h.nonempty other hother)
  have hne : word.drop k ≠ [] := by simpa using hk
  obtain ⟨d, inner, hinner⟩ := List.exists_cons_of_ne_nil hne
  rw [List.drop_append_of_le_length hk.le, hinner, hother', List.cons_append,
    List.cons_prefix_cons] at hstarts
  have hmem : d ∈ word.tail := by
    have hdrop : word.drop k = word.tail.drop (k - 1) := by
      rw [← List.drop_one, List.drop_drop]
      congr 1
      omega
    exact List.mem_of_mem_drop (hdrop ▸ hinner ▸ List.mem_cons_self)
  exact h.heads word hword other hother d (by simp [hother', hstarts.1]) hmem

structure Scanned (words : List (List α)) (before rest : List α) (skip : Nat) : Prop where
  ends : ∀ word ∈ words, ∀ j < before.length, word <+: (before ++ rest).drop j →
    j + word.length ≤ before.length + skip
  covered : ∀ i, before.length ≤ i → i < before.length + skip → Covered words (before ++ rest) i
  clear : ∀ i, before.length ≤ i → i < before.length + skip →
    ∀ word ∈ words, ¬ word <+: (before ++ rest).drop i

section Scan

variable {before rest : List α} {c : α} {skip : Nat}

theorem drop_before (before rest : List α) : (before ++ rest).drop before.length = rest := List.drop_left

theorem Scanned.concat
    (hends : ∀ word ∈ words, ∀ j < before.length + 1, word <+: (before ++ c :: rest).drop j →
      j + word.length ≤ before.length + 1 + skip)
    (hcovered : ∀ i, before.length + 1 ≤ i → i < before.length + 1 + skip →
      Covered words (before ++ c :: rest) i)
    (hclear : ∀ i, before.length + 1 ≤ i → i < before.length + 1 + skip →
      ∀ word ∈ words, ¬ word <+: (before ++ c :: rest).drop i) :
    Scanned words (before ++ [c]) rest skip := by
  constructor <;>
    simpa only [List.length_append, List.length_singleton, List.append_assoc, List.singleton_append]

theorem ends_concat {bound : Nat}
    (hbefore : ∀ word ∈ words, ∀ j < before.length, word <+: (before ++ c :: rest).drop j →
      j + word.length ≤ bound)
    (hhere : ∀ word ∈ words, word <+: c :: rest → before.length + word.length ≤ bound) :
    ∀ word ∈ words, ∀ j < before.length + 1, word <+: (before ++ c :: rest).drop j →
      j + word.length ≤ bound := by
  intro word hword j hj hoccurs
  rcases Nat.lt_succ_iff_lt_or_eq.mp hj with hj | rfl
  · exact hbefore word hword j hj hoccurs
  · rw [drop_before] at hoccurs
    exact hhere word hword hoccurs

theorem Scanned.pass (h : Scanned words before (c :: rest) (skip + 1)) :
    Scanned words (before ++ [c]) rest skip := by
  have hbound : before.length + (skip + 1) = before.length + 1 + skip := by omega
  refine Scanned.concat (hbound ▸ ends_concat h.ends fun word hword hoccurs => ?_)
    (fun i hi hi' => h.covered i (by omega) (by omega)) fun i hi hi' => h.clear i (by omega) (by omega)
  rw [← drop_before before (c :: rest)] at hoccurs
  exact absurd hoccurs (h.clear before.length le_rfl (by omega) word hword)

theorem Scanned.not_covered (h : Scanned words before (c :: rest) 0)
    (hnone : ∀ word ∈ words, ¬ word <+: c :: rest) :
    ¬ Covered words (before ++ c :: rest) before.length := by
  rintro ⟨word, hword, j, hj, hreach, hoccurs⟩
  rcases hj.lt_or_eq with hj | rfl
  · have hend := h.ends word hword j hj hoccurs
    omega
  · rw [drop_before] at hoccurs
    exact hnone word hword hoccurs

theorem Scanned.keep (h : Scanned words before (c :: rest) 0)
    (hnone : ∀ word ∈ words, ¬ word <+: c :: rest) : Scanned words (before ++ [c]) rest 0 := by
  refine Scanned.concat (ends_concat (fun word hword j hj hoccurs => ?_) fun word hword hoccurs =>
    absurd hoccurs (hnone word hword)) (fun i hi hi' => by omega) fun i hi hi' => by omega
  exact (h.ends word hword j hj hoccurs).trans (by omega)

variable {word : List α} (hword : word ∈ words) (hoccurs : word <+: c :: rest)
include hword hoccurs

theorem covered_of_prefix {i : Nat} (hi : before.length ≤ i) (hi' : i < before.length + word.length) :
    Covered words (before ++ c :: rest) i :=
  ⟨word, hword, before.length, hi, hi', by rwa [drop_before]⟩

theorem Scanned.meet (hseparate : Separate words) (h : Scanned words before (c :: rest) 0) :
    Scanned words (before ++ [c]) rest (word.length - 1) := by
  have hpos := List.length_pos_iff.mpr (hseparate.nonempty word hword)
  refine Scanned.concat (ends_concat (fun other hother j hj hother' => ?_) fun other hother hother' => ?_)
    (fun i hi hi' => covered_of_prefix hword hoccurs (by omega) (by omega))
    fun i hi hi' other hother hother' => ?_
  · exact (h.ends other hother j hj hother').trans (by omega)
  · have hsame : other = word := by
      rcases List.prefix_or_prefix_of_prefix hother' hoccurs with hle | hle
      · exact hseparate.prefixFree other hother word hword hle
      · exact (hseparate.prefixFree word hword other hother hle).symm
    rw [hsame]
    omega
  · obtain ⟨k, rfl⟩ := Nat.exists_eq_add_of_le (Nat.le_of_succ_le hi)
    rw [← List.drop_drop, drop_before] at hother'
    exact hseparate.not_prefix_drop hword hother hoccurs (by omega) (by omega) hother'

end Scan

section Delete

variable [DecidableEq α]

instance : Decidable (Separate words) :=
  decidable_of_iff ((∀ word ∈ words, word ≠ []) ∧
    (∀ word ∈ words, ∀ other ∈ words, word <+: other → word = other) ∧
      ∀ word ∈ words, ∀ other ∈ words, ∀ c ∈ other.head?, c ∉ word.tail)
    ⟨fun h => ⟨h.1, h.2.1, h.2.2⟩, fun h => ⟨h.nonempty, h.prefixFree, h.heads⟩⟩

variable (words) in
-- Passes over each word it meets, left to right; skip counts the symbols of a word that are
-- still to be passed over.
def deleteFrom : List α → Nat → List α
  | [], _ => []
  | _ :: rest, skip + 1 => deleteFrom rest skip
  | c :: rest, 0 =>
      match words.find? (·.isPrefixOf (c :: rest)) with
      | some word => deleteFrom rest (word.length - 1)
      | none => c :: deleteFrom rest 0

variable (words) in
def delete (s : List α) : List α := deleteFrom words s 0

instance (s : List α) (i : Nat) : Decidable (Covered words s i) :=
  inferInstanceAs (Decidable (∃ word ∈ words, ∃ j, j ≤ i ∧ i < j + word.length ∧ word <+: s.drop j))

variable (words) in
def uncovered (s : List α) : List α :=
  (s.zipIdx.filter fun symbol => ¬ Covered words s symbol.2).map Prod.fst

theorem deleteFrom_eq (hseparate : Separate words) {before rest : List α} {skip : Nat}
    (h : Scanned words before rest skip) :
    deleteFrom words rest skip =
      ((rest.zipIdx before.length).filter fun symbol =>
        ¬ Covered words (before ++ rest) symbol.2).map Prod.fst := by
  induction rest generalizing before skip with
  | nil => simp [deleteFrom]
  | cons c rest ih =>
    have hnext {skip : Nat} (h : Scanned words (before ++ [c]) rest skip) :
        deleteFrom words rest skip =
          ((rest.zipIdx (before.length + 1)).filter fun symbol =>
            ¬ Covered words (before ++ c :: rest) symbol.2).map Prod.fst := by
      simpa using ih h
    rw [List.zipIdx_cons]
    cases skip with
    | succ skip =>
      have hcovered := h.covered before.length le_rfl (by omega)
      rw [deleteFrom, List.filter_cons_of_neg (by simpa using hcovered), hnext h.pass]
    | zero =>
      rw [deleteFrom]
      cases hfind : words.find? (·.isPrefixOf (c :: rest)) with
      | none =>
        have hnone : ∀ word ∈ words, ¬ word <+: c :: rest := fun word hword hoccurs =>
          List.find?_eq_none.mp hfind word hword (List.isPrefixOf_iff_prefix.mpr hoccurs)
        rw [List.filter_cons_of_pos (by simpa using h.not_covered hnone), List.map_cons]
        exact congrArg (c :: ·) (hnext (h.keep hnone))
      | some word =>
        have hword := List.mem_of_find?_eq_some hfind
        have hoccurs : word <+: c :: rest :=
          List.isPrefixOf_iff_prefix.mp (by simpa using List.find?_some hfind)
        have hpos := List.length_pos_iff.mpr (hseparate.nonempty word hword)
        have hcovered : Covered words (before ++ c :: rest) before.length :=
          covered_of_prefix hword hoccurs le_rfl (by omega)
        rw [List.filter_cons_of_neg (by simpa using hcovered)]
        exact hnext (h.meet hword hoccurs hseparate)

theorem delete_eq_uncovered (hseparate : Separate words) (s : List α) :
    delete words s = uncovered words s := by
  have h : Scanned words [] s 0 := ⟨by simp, by simp, by simp⟩
  simpa [delete, uncovered] using deleteFrom_eq hseparate h

end Delete

end Deletion
