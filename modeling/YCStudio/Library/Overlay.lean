import Mathlib.Data.List.Forall2
import Mathlib.Data.List.Perm.Basic

def Overlays {α κ : Type} (key : α → κ) (before after : α → Prop) (entries : List α) : Prop :=
  ∀ a, after a ↔ a ∈ entries ∨ before a ∧ key a ∉ entries.map key

namespace Overlays

variable {α κ : Type} {key : α → κ} {before middle after : α → Prop} {entries others : List α}

theorem refl (before : α → Prop) : Overlays key before before [] := by
  simp [Overlays]

theorem trans (h : Overlays key before middle entries) (h' : Overlays key middle after others)
    (hdisjoint : ∀ k ∈ entries.map key, k ∉ others.map key) :
    Overlays key before after (entries ++ others) := by
  intro a
  rw [h' a, h a, List.mem_append, List.map_append, List.mem_append]
  have hkept : a ∈ entries → key a ∉ others.map key :=
    fun ha => hdisjoint (key a) (List.mem_map_of_mem ha)
  grind

theorem covers (h : Overlays key before middle entries) (h' : Overlays key middle after others)
    (hcovered : ∀ k ∈ entries.map key, k ∈ others.map key) : Overlays key before after others := by
  intro a
  rw [h' a, h a]
  have hgone : a ∈ entries → key a ∈ others.map key :=
    fun ha => hcovered (key a) (List.mem_map_of_mem ha)
  grind

theorem of_perm (h : Overlays key before after entries) (hperm : entries.Perm others) :
    Overlays key before after others := by
  intro a
  rw [h a, hperm.mem_iff, (hperm.map key).mem_iff]

theorem iff_of_not_mem (h : Overlays key before after entries) {a : α}
    (hkey : key a ∉ entries.map key) : after a ↔ before a := by
  rw [h a]
  have hnot : a ∉ entries := fun ha => hkey (List.mem_map_of_mem ha)
  simp [hkey, hnot]

end Overlays

theorem exists_perm_of_map_perm {α β : Type} {f : α → β} {xs : List β} {ys : List α}
    (h : xs.Perm (ys.map f)) : ∃ zs : List α, zs.Perm ys ∧ zs.map f = xs := by
  have hpairs : List.Forall₂ (fun x y => x = f y) (ys.map f) ys := by
    rw [List.forall₂_map_left_iff]
    exact List.forall₂_same.mpr fun _ _ => rfl
  obtain ⟨zs, hzs, hperm⟩ := List.perm_comp_forall₂ h hpairs
  refine ⟨zs, hperm, ?_⟩
  clear h hpairs hperm
  induction hzs with
  | nil => rfl
  | cons hhead htail ih => rw [List.map_cons, hhead, ih]
