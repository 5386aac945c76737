import Mathlib.Data.List.Nodup
import Mathlib.Data.List.Perm.Basic
import Mathlib.Data.List.Sort
import Mathlib.Order.Defs.LinearOrder

namespace TopK

variable {α κ : Type} [LinearOrder κ] (key : α → κ)

structure Ranks (rows ranked : List α) : Prop where
  perm : ranked.Perm rows
  sorted : ranked.Pairwise fun a b => key a ≤ key b

variable {key} {rows ranked ranked' : List α}

theorem Ranks.filter (h : Ranks key rows ranked) (p : α → Bool) :
    Ranks key (rows.filter p) (ranked.filter p) where
  perm := h.perm.filter p
  sorted := h.sorted.filter p

theorem insertionSort_ranks (rows : List α) :
    Ranks key rows (rows.insertionSort fun a b => key a ≤ key b) where
  perm := List.perm_insertionSort _ _
  sorted := by
    have : Std.Total fun a b : α => key a ≤ key b := ⟨fun _ _ => le_total _ _⟩
    have : IsTrans α fun a b => key a ≤ key b := ⟨fun _ _ _ => le_trans⟩
    exact List.pairwise_insertionSort _ _

theorem ranks_of_perm {listed : List α} (h : listed.Perm rows) :
    Ranks key rows (listed.insertionSort fun a b => key a ≤ key b) where
  perm := (List.perm_insertionSort _ _).trans h
  sorted := (insertionSort_ranks listed).sorted

theorem Ranks.insertionSort_eq (h : Ranks key rows ranked) :
    ranked.insertionSort (fun a b => key a ≤ key b) = ranked :=
  List.Pairwise.insertionSort_eq h.sorted

theorem Ranks.unique (h : Ranks key rows ranked) (h' : Ranks key rows ranked')
    (hdistinct : (rows.map key).Nodup) : ranked = ranked' := by
  have hranked : (ranked.map key).Nodup := (h.perm.map key).nodup_iff.mpr hdistinct
  apply (h.perm.trans h'.perm.symm).eq_of_pairwise ?_ h.sorted h'.sorted
  intro a b ha hb hab hba
  have hb' := (h.perm.trans h'.perm.symm).mem_iff.mpr hb
  exact List.inj_on_of_nodup_map hranked ha hb' (le_antisymm hab hba)

theorem Ranks.map {β : Type} {key' : β → κ} {f : α → β} (hkey : ∀ a, key' (f a) = key a)
    (h : Ranks key rows ranked) : Ranks key' (rows.map f) (ranked.map f) where
  perm := h.perm.map f
  sorted := by
    rw [List.pairwise_map]
    simpa only [hkey] using h.sorted

theorem Ranks.mem_take_or (h : Ranks key rows ranked) {a : α} (ha : a ∈ rows) (k : Nat) :
    a ∈ ranked.take k ∨ (ranked.take k).length = k ∧ ∀ b ∈ ranked.take k, key b ≤ key a := by
  have hsorted := h.sorted
  have hmem := h.perm.mem_iff.mpr ha
  rw [← List.take_append_drop k ranked] at hsorted hmem
  rcases List.mem_append.mp hmem with htaken | hdropped
  · exact Or.inl htaken
  · have hlength := List.length_pos_of_mem hdropped
    rw [List.length_drop] at hlength
    refine Or.inr ⟨by rw [List.length_take]; omega, fun b hb => ?_⟩
    exact (List.pairwise_append.mp hsorted).2.2 b hb a hdropped

section Parts

variable [DecidableEq α] {p : α → Bool} {left right merged : List α}
  (hdistinct : (rows.map key).Nodup) (hleft : Ranks key (rows.filter p) left)
  (hright : Ranks key (rows.filter fun a => !p a) right) (k : Nat)

include hdistinct hleft hright

end Parts

end TopK
