import Mathlib.Data.List.Infix

variable {α : Type}

inductive Shingles : List α → List (List α) → List α → Prop
  | nil (previous : List α) : Shingles previous [] []
  | cons {previous carried fresh : List α} {pieces : List (List α)} {content : List α}
      (hcarried : carried <:+ previous) (hfresh : fresh ≠ [])
      (h : Shingles (carried ++ fresh) pieces content) :
      Shingles previous ((carried ++ fresh) :: pieces) (fresh ++ content)

namespace Shingles

variable {previous content : List α} {pieces : List (List α)}

theorem within (h : Shingles previous pieces content) :
    ∀ piece ∈ pieces, piece <:+: previous ++ content := by
  induction h with
  | nil => exact fun _ h => absurd h List.not_mem_nil
  | @cons previous carried fresh pieces content hcarried hfresh hrest ih =>
    obtain ⟨before, rfl⟩ := hcarried
    refine List.forall_mem_cons.mpr ⟨⟨before, content, by simp⟩, fun piece hpiece => ?_⟩
    obtain ⟨left, right, heq⟩ := ih piece hpiece
    refine ⟨before ++ left, right, ?_⟩
    simp only [List.append_assoc] at heq ⊢
    rw [heq]

theorem take (h : Shingles previous pieces content) (count : Nat) :
    ∃ shown, shown <+: content ∧ Shingles previous (pieces.take count) shown ∧
      (pieces.length ≤ count → shown = content) := by
  induction h generalizing count with
  | nil previous => exact ⟨[], List.nil_prefix, by simpa using nil previous, fun _ => rfl⟩
  | @cons previous carried fresh pieces content hcarried hfresh hrest ih =>
    cases count with
    | zero => exact ⟨[], List.nil_prefix, nil previous, fun h => absurd h (by simp)⟩
    | succ count =>
      obtain ⟨shown, hshown, htaken, hall⟩ := ih count
      refine ⟨fresh ++ shown, (List.prefix_append_right_inj fresh).mpr hshown,
        cons hcarried hfresh htaken, fun hlength => ?_⟩
      rw [hall (Nat.le_of_succ_le_succ hlength)]

theorem singleton {piece : List α} (h : piece ≠ []) : Shingles [] [piece] piece := by
  have hone := cons (List.suffix_refl ([] : List α)) h (nil ([] ++ piece))
  simpa using hone

end Shingles
