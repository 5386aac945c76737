import Mathlib.Algebra.GroupWithZero.Nat
import Mathlib.Data.List.Chain
import YCStudio.Library.LineBreaks

namespace Words

variable {α : Type} (blank : α → Bool)

-- str.split() without a separator: the runs of symbols that are not blank.
def words (s : List α) : List (List α) := (s.splitOnP blank).filter (· ≠ [])

def normalize (gap : α) (s : List α) : List α := [gap].intercalate (words blank s)

def IsWord (w : List α) : Prop := w ≠ [] ∧ ∀ c ∈ w, blank c = false

instance (w : List α) : Decidable (IsWord blank w) := inferInstanceAs (Decidable (_ ∧ _))

def normalLength (s : List α) : Nat :=
  ((words blank s).map List.length).sum + ((words blank s).length - 1)

variable {blank} {gap b : α} {s t w : List α}

theorem words_line (h : ∀ c ∈ s, blank c = false) : words blank s = [s].filter (· ≠ []) := by
  rw [words, List.splitOnP_eq_singleton h]

theorem words_append_cons (hb : blank b = true) (s t : List α) :
    words blank (s ++ b :: t) = words blank s ++ words blank t := by
  rw [words, List.splitOnP_append_cons s t hb, List.filter_append, words, words]

theorem isWord_of_mem (h : w ∈ words blank s) : IsWord blank w := by
  generalize hn : s.length = n
  induction n using Nat.strong_induction_on generalizing s with
  | _ n ih =>
    rcases Lines.line_cases blank s with hline | ⟨line, b, rest, rfl, hb, hline⟩
    · rw [words_line hline] at h
      obtain ⟨hmem, hne⟩ := List.mem_filter.mp h
      rw [List.mem_singleton.mp hmem] at hne ⊢
      exact ⟨by simpa using hne, hline⟩
    · rw [words_append_cons hb, List.mem_append, words_line hline] at h
      rcases h with h | h
      · obtain ⟨hmem, hne⟩ := List.mem_filter.mp h
        rw [List.mem_singleton.mp hmem] at hne ⊢
        exact ⟨by simpa using hne, hline⟩
      · refine ih rest.length ?_ h rfl
        rw [← hn, List.length_append, List.length_cons]
        omega

theorem words_word (h : IsWord blank w) : words blank w = [w] := by
  rw [words_line h.2, List.filter_cons_of_pos (by simpa using h.1), List.filter_nil]

theorem words_intercalate (hgap : blank gap = true) {ws : List (List α)}
    (h : ∀ w ∈ ws, IsWord blank w) : words blank ([gap].intercalate ws) = ws := by
  induction ws with
  | nil => simp [words]
  | cons w ws ih =>
    obtain ⟨hw, hws⟩ := List.forall_mem_cons.mp h
    by_cases hnil : ws = []
    · rw [hnil, List.intercalate_singleton, words_word hw]
    · rw [List.intercalate_cons_of_ne_nil hnil, List.append_assoc, List.singleton_append,
        words_append_cons hgap, words_word hw, ih hws, List.singleton_append]

theorem words_normalize (hgap : blank gap = true) (s : List α) :
    words blank (normalize blank gap s) = words blank s :=
  words_intercalate hgap fun _ => isWord_of_mem

theorem normalize_normalize (hgap : blank gap = true) (s : List α) :
    normalize blank gap (normalize blank gap s) = normalize blank gap s := by
  rw [normalize, words_normalize hgap, normalize]

section Length

theorem length_intercalate_singleton (gap : α) (ws : List (List α)) :
    ([gap].intercalate ws).length = (ws.map List.length).sum + (ws.length - 1) := by
  induction ws with
  | nil => rfl
  | cons w ws ih =>
    by_cases hnil : ws = []
    · simp [hnil]
    · have hpos := List.length_pos_iff.mpr hnil
      rw [List.intercalate_cons_of_ne_nil hnil, List.length_append, List.length_append, ih,
        List.length_singleton, List.map_cons, List.sum_cons, List.length_cons]
      omega

theorem length_normalize (gap : α) (s : List α) :
    (normalize blank gap s).length = normalLength blank s := length_intercalate_singleton gap _

theorem sum_length_words (s : List α) :
    ((words blank s).map List.length).sum + (words blank s).length ≤ s.length + 1 := by
  generalize hn : s.length = n
  induction n using Nat.strong_induction_on generalizing s with
  | _ n ih =>
    have hline {line : List α} (h : ∀ c ∈ line, blank c = false) :
        ((words blank line).map List.length).sum + (words blank line).length ≤ line.length + 1 := by
      rw [words_line h]
      cases line <;> simp
    rcases Lines.line_cases blank s with h | ⟨line, b, rest, rfl, hb, h⟩
    · exact hn ▸ hline h
    · have hfirst := hline h
      rw [List.length_append, List.length_cons] at hn
      have hrest := ih rest.length (by omega) rest rfl
      rw [words_append_cons hb, List.map_append, List.sum_append, List.length_append]
      omega

theorem length_normalize_le (gap : α) (s : List α) : (normalize blank gap s).length ≤ s.length := by
  have h : ((words blank s).map List.length).sum + (words blank s).length ≤ s.length + 1 :=
    sum_length_words s
  rw [length_normalize, normalLength]
  by_cases hwords : words blank s = []
  · simp [hwords]
  · have hpos := List.length_pos_iff.mpr hwords
    omega

end Length

section Shape

theorem eq_gap_of_mem_normalize {c : α} (hc : c ∈ normalize blank gap s) (hblank : blank c = true) :
    c = gap := by
  rcases Lines.mem_intercalate hc with h | ⟨w, hw, h⟩
  · exact List.mem_singleton.mp h
  · rw [(isWord_of_mem hw).2 c h] at hblank
    cases hblank

theorem strip_word (h : IsWord blank w) : Trim.strip blank w = w :=
  Trim.strip_eq_self_of_forall blank fun c hc => by simp [h.2 c hc]

theorem intercalate_ne_nil {ws : List (List α)} (h : ∀ w ∈ ws, IsWord blank w) (hws : ws ≠ []) :
    [gap].intercalate ws ≠ [] := by
  cases ws with
  | nil => exact absurd rfl hws
  | cons w ws =>
    have hw := (h w List.mem_cons_self).1
    cases ws with
    | nil => simpa using hw
    | cons v ws => simp [List.intercalate_cons_cons]

theorem strip_intercalate {ws : List (List α)} (h : ∀ w ∈ ws, IsWord blank w) :
    Trim.strip blank ([gap].intercalate ws) = [gap].intercalate ws := by
  induction ws with
  | nil => rfl
  | cons w ws ih =>
    obtain ⟨hw, hws⟩ := List.forall_mem_cons.mp h
    by_cases hnil : ws = []
    · rw [hnil, List.intercalate_singleton, strip_word hw]
    · rw [List.intercalate_cons_of_ne_nil hnil]
      exact Trim.strip_append (strip_word hw) hw.1 (ih hws) (intercalate_ne_nil hws hnil) [gap]

theorem isChain_word (h : IsWord blank w) :
    w.IsChain fun a b => ¬ (blank a = true ∧ blank b = true) := by
  refine List.Pairwise.isChain (List.pairwise_of_forall_mem_list fun a ha b _ => ?_)
  simp [h.2 a ha]

theorem isChain_intercalate {ws : List (List α)} (h : ∀ w ∈ ws, IsWord blank w) :
    ([gap].intercalate ws).IsChain fun a b => ¬ (blank a = true ∧ blank b = true) := by
  induction ws with
  | nil => exact List.IsChain.nil
  | cons w ws ih =>
    obtain ⟨hw, hws⟩ := List.forall_mem_cons.mp h
    by_cases hnil : ws = []
    · rw [hnil, List.intercalate_singleton]
      exact isChain_word hw
    · have hne : [gap].intercalate ws ≠ [] := intercalate_ne_nil hws hnil
      have hstrip : Trim.strip blank ([gap].intercalate ws) = [gap].intercalate ws :=
        strip_intercalate hws
      obtain ⟨c, rest, hrest⟩ := List.exists_cons_of_ne_nil hne
      have hchain := ih hws
      rw [hrest] at hstrip hchain
      have hc := Trim.head_not_blank blank hstrip
      rw [List.intercalate_cons_of_ne_nil hnil, hrest, List.append_assoc, List.singleton_append,
        List.isChain_append]
      refine ⟨isChain_word hw, List.isChain_cons_cons.mpr ⟨by simp [hc], hchain⟩, fun a ha b _ => ?_⟩
      simp [hw.2 a (List.mem_of_getLast? ha)]

theorem strip_normalize (gap : α) (s : List α) :
    Trim.strip blank (normalize blank gap s) = normalize blank gap s :=
  strip_intercalate fun _ => isWord_of_mem

theorem isChain_normalize (gap : α) (s : List α) :
    (normalize blank gap s).IsChain fun a b => ¬ (blank a = true ∧ blank b = true) :=
  isChain_intercalate fun _ => isWord_of_mem

end Shape

theorem infix_iff_word (hw : IsWord blank w) : w <:+: s ↔ ∃ v ∈ words blank s, w <:+: v := by
  have hline {line : List α} (h : ∀ c ∈ line, blank c = false) :
      w <:+: line ↔ ∃ v ∈ words blank line, w <:+: v := by
    rw [words_line h]
    by_cases hnil : line = []
    · simp [hnil, List.infix_nil, hw.1]
    · simp [hnil]
  generalize hn : s.length = n
  induction n using Nat.strong_induction_on generalizing s with
  | _ n ih =>
    rcases Lines.line_cases blank s with h | ⟨line, b, rest, rfl, hb, h⟩
    · exact hline h
    · have habsent : b ∉ w := fun hmem => by simpa [hb] using hw.2 b hmem
      rw [List.length_append, List.length_cons] at hn
      have hrest : w <:+: rest ↔ ∃ v ∈ words blank rest, w <:+: v := ih rest.length (by omega) rfl
      rw [Lines.infix_append_cons_iff habsent, hline h, hrest, words_append_cons hb]
      simp only [List.mem_append, or_and_right, exists_or]

theorem infix_normalize_iff (hgap : blank gap = true) (hw : IsWord blank w) :
    w <:+: normalize blank gap s ↔ w <:+: s := by
  rw [infix_iff_word hw, words_normalize hgap, ← infix_iff_word hw]

end Words
