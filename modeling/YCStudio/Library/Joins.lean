import Mathlib.Algebra.BigOperators.Group.List.Basic
import Mathlib.Algebra.GroupWithZero.Nat
import YCStudio.Library.Table

theorem lookup_map_pair {α β : Type} [DecidableEq α] (keys : List α) (f : α → β) (key : α) :
    (keys.map fun key => (key, f key)).lookup key = if key ∈ keys then some (f key) else none := by
  induction keys with
  | nil => rfl
  | cons first keys ih =>
    rw [List.map_cons, List.lookup_cons]
    by_cases h : key = first
    · simp [h]
    · simp [beq_eq_false_iff_ne.mpr h, h, ih]

namespace Table

variable {ρ κ γ : Type} {key : ρ → κ} [DecidableEq κ]

theorem sum_ite_key {rows : List ρ} (hnodup : (rows.map key).Nodup) (p : ρ → Bool) (k : κ)
    (n : Nat) :
    ((rows.filter p).map fun row => if k = key row then n else 0).sum =
      if (rows.find? (key · = k)).any p then n else 0 := by
  induction rows with
  | nil => rfl
  | cons row rows ih =>
    obtain ⟨hnew, hnodup⟩ := List.nodup_cons.mp hnodup
    by_cases hkey : key row = k
    · subst hkey
      have hzero : ((rows.filter p).map fun other => if key row = key other then n else 0) =
          (rows.filter p).map fun _ => 0 := by
        apply List.map_congr_left
        intro other hother
        apply if_neg
        intro hsame
        rw [hsame] at hnew
        exact hnew (List.mem_map_of_mem (List.mem_filter.mp hother).1)
      cases hp : p row <;> simp [hp, hzero]
    · have hother : k ≠ key row := fun h => hkey h.symm
      cases hp : p row <;> simp [hp, hkey, hother, ih hnodup]

theorem sum_children (parents : Table key) (children : List γ) (ref : γ → κ) (p : ρ → Bool)
    (f : γ → Nat) :
    ((parents.rows.filter p).map fun row =>
      ((children.filter fun child => ref child = key row).map f).sum).sum =
      ((children.filter fun child => (parents.get? (ref child)).any p).map f).sum := by
  induction children with
  | nil => simp
  | cons child children ih =>
    have hsplit : ∀ row : ρ,
        (((child :: children).filter fun child => ref child = key row).map f).sum =
          (if ref child = key row then f child else 0) +
            ((children.filter fun child => ref child = key row).map f).sum := by
      intro row
      by_cases h : ref child = key row <;> simp [h]
    have hget : parents.get? (ref child) = parents.rows.find? (key · = ref child) := rfl
    simp only [hsplit, List.sum_map_add, ih, sum_ite_key parents.nodup p (ref child) (f child)]
    rw [← hget, List.filter_cons]
    split <;> simp

theorem length_children (parents : Table key) (children : List γ) (ref : γ → κ) (p : ρ → Bool) :
    ((parents.rows.filter p).map fun row =>
      (children.filter fun child => ref child = key row).length).sum =
      (children.filter fun child => (parents.get? (ref child)).any p).length := by
  have h := sum_children parents children ref p fun _ => 1
  simpa using h

end Table
