import Mathlib.Data.List.DropRight
import Mathlib.Data.List.Infix

namespace Trim

variable {α : Type} (blank : α → Bool)

def strip (s : List α) : List α := (s.dropWhile blank).rdropWhile blank

def essence (s : List α) : List α := s.filter (fun c => !blank c)

@[simp] theorem essence_nil : essence blank ([] : List α) = [] := rfl

@[simp] theorem essence_append (s t : List α) :
    essence blank (s ++ t) = essence blank s ++ essence blank t := by
  simp [essence]

theorem essence_eq_nil_iff {s : List α} : essence blank s = [] ↔ ∀ c ∈ s, blank c := by
  simp [essence]

theorem essence_cons_blank {c : α} (h : blank c) (s : List α) :
    essence blank (c :: s) = essence blank s := by
  simp [essence, h]

theorem essence_suffix {s t : List α} (h : s <:+ t) : essence blank s <:+ essence blank t := by
  obtain ⟨r, rfl⟩ := h
  exact ⟨essence blank r, (essence_append blank r s).symm⟩

theorem essence_dropWhile (s : List α) : essence blank (s.dropWhile blank) = essence blank s := by
  induction s with
  | nil => rfl
  | cons c s ih =>
    by_cases hc : blank c
    · rw [List.dropWhile_cons_of_pos hc, ih, essence_cons_blank blank hc]
    · rw [List.dropWhile_cons_of_neg hc]

theorem essence_reverse (s : List α) : essence blank s.reverse = (essence blank s).reverse := by
  simp [essence]

theorem essence_rdropWhile (s : List α) : essence blank (s.rdropWhile blank) = essence blank s := by
  unfold List.rdropWhile
  rw [essence_reverse, essence_dropWhile, essence_reverse, List.reverse_reverse]

@[simp] theorem essence_strip (s : List α) : essence blank (strip blank s) = essence blank s := by
  rw [strip, essence_rdropWhile, essence_dropWhile]

theorem isInfix_strip (s : List α) : strip blank s <:+: s :=
  ((List.rdropWhile_prefix _ _).isInfix).trans (List.dropWhile_suffix _).isInfix

theorem mem_of_mem_strip {s : List α} {c : α} (h : c ∈ strip blank s) : c ∈ s :=
  (isInfix_strip blank s).mem h

theorem length_strip_le (s : List α) : (strip blank s).length ≤ s.length :=
  (isInfix_strip blank s).length_le

theorem strip_eq_nil_iff {s : List α} : strip blank s = [] ↔ ∀ c ∈ s, blank c := by
  rw [← essence_eq_nil_iff, ← essence_strip]
  constructor
  · intro h
    rw [h, essence_nil]
  · intro h
    by_contra hne
    have hlast := List.rdropWhile_last_not blank (s.dropWhile blank) hne
    exact hlast ((essence_eq_nil_iff blank).mp h _ (List.getLast_mem hne))

theorem head_not_blank {s t : List α} {c : α} (h : strip blank s = c :: t) : ¬ blank c := by
  obtain ⟨r, hr⟩ : strip blank s <+: s.dropWhile blank := List.rdropWhile_prefix _ _
  rw [h, List.cons_append] at hr
  have hne : s.dropWhile blank ≠ [] := by simp [← hr]
  have hhead := List.head_dropWhile_not (p := blank) (l := s) hne
  simpa [← hr] using hhead

@[simp] theorem strip_strip (s : List α) : strip blank (strip blank s) = strip blank s := by
  have hd : (strip blank s).dropWhile blank = strip blank s := by
    cases hs : strip blank s with
    | nil => rfl
    | cons c t => exact List.dropWhile_cons_of_neg (head_not_blank blank hs)
  rw [strip, hd, strip, List.rdropWhile_idempotent]

theorem exists_blanks (s : List α) :
    ∃ before after, s = before ++ strip blank s ++ after ∧ (∀ c ∈ before, blank c) ∧
      ∀ c ∈ after, blank c := by
  refine ⟨s.takeWhile blank, (s.dropWhile blank).rtakeWhile blank, ?_, ?_, ?_⟩
  · rw [strip, List.append_assoc, List.rdropWhile_append_rtakeWhile, List.takeWhile_append_dropWhile]
  · exact fun c hc => List.mem_takeWhile_imp hc
  · exact fun c hc => List.mem_rtakeWhile_imp hc

theorem strip_cons_blank {c : α} (h : blank c) (s : List α) :
    strip blank (c :: s) = strip blank s := by
  rw [strip, List.dropWhile_cons_of_pos h, strip]

theorem strip_concat_blank {c : α} (h : blank c) (s : List α) :
    strip blank (s ++ [c]) = strip blank s := by
  rw [strip, strip, List.dropWhile_append]
  split
  · rename_i hempty
    rw [List.isEmpty_iff.mp hempty, List.dropWhile_cons_of_pos h]
    rfl
  · exact List.rdropWhile_concat_pos _ _ _ h

theorem strip_rdropWhile {p : α → Bool} (hp : ∀ c, p c → blank c) (s : List α) :
    strip blank (s.rdropWhile p) = strip blank s := by
  induction s using List.reverseRecOn with
  | nil => rfl
  | append_singleton s c ih =>
    by_cases hc : p c
    · rw [List.rdropWhile_concat_pos _ _ _ hc, ih, strip_concat_blank blank (hp c hc)]
    · rw [List.rdropWhile_concat_neg _ _ _ hc]

theorem strip_eq_self_of_forall {s : List α} (h : ∀ c ∈ s, ¬ blank c) : strip blank s = s := by
  have hdrop : s.dropWhile blank = s := List.dropWhile_eq_self_iff.mpr fun hs => h _ (List.getElem_mem _)
  rw [strip, hdrop]
  exact List.rdropWhile_eq_self_iff.mpr fun hs => h _ (List.getLast_mem hs)

section Ends

variable {blank} {s t : List α}

theorem dropWhile_eq_self (h : strip blank s = s) : s.dropWhile blank = s := by
  cases s with
  | nil => rfl
  | cons c s => exact List.dropWhile_cons_of_neg (head_not_blank blank h)

theorem rdropWhile_eq_self (h : strip blank s = s) : s.rdropWhile blank = s := by
  rw [strip, dropWhile_eq_self h] at h
  exact h

theorem last_not_blank {c : α} (h : strip blank (s ++ [c]) = s ++ [c]) : ¬ blank c := by
  intro hblank
  have hdrop := rdropWhile_eq_self h
  rw [List.rdropWhile_concat_pos _ _ _ hblank] at hdrop
  have hlength := (List.rdropWhile_prefix blank s).length_le
  rw [hdrop, List.length_append, List.length_singleton] at hlength
  omega

theorem strip_append (hs : strip blank s = s) (hs' : s ≠ []) (ht : strip blank t = t)
    (ht' : t ≠ []) (between : List α) :
    strip blank (s ++ between ++ t) = s ++ between ++ t := by
  have hdrop : (s ++ between ++ t).dropWhile blank = s ++ between ++ t := by
    obtain ⟨c, s, rfl⟩ := List.exists_cons_of_ne_nil hs'
    exact List.dropWhile_cons_of_neg (head_not_blank blank hs)
  rw [strip, hdrop, List.rdropWhile, List.reverse_append, List.dropWhile_append]
  have hlast : t.reverse.dropWhile blank = t.reverse := by
    have h := rdropWhile_eq_self ht
    rw [List.rdropWhile, ← List.reverse_inj, List.reverse_reverse] at h
    exact h
  rw [hlast]
  simp [ht']

end Ends

variable [DecidableEq α]

-- Cuts at each occurrence of `sep`, left to right and without overlap; `skip` counts
-- the symbols of an occurrence that are still to be passed over.
omit [DecidableEq α] in
theorem append_cons_inj {c : α} {s s' t t' : List α} (hs : c ∉ s) (hs' : c ∉ s')
    (h : s ++ c :: t = s' ++ c :: t') : s = s' ∧ t = t' := by
  induction s generalizing s' with
  | nil =>
    cases s' with
    | nil => exact ⟨rfl, List.tail_eq_of_cons_eq h⟩
    | cons d s' => exact absurd (List.head_eq_of_cons_eq h ▸ List.mem_cons_self) hs'
  | cons d s ih =>
    cases s' with
    | nil => exact absurd (List.head_eq_of_cons_eq h ▸ List.mem_cons_self) hs
    | cons d' s' =>
      obtain ⟨hhead, htail⟩ := List.cons.inj h
      obtain ⟨hrest, ht⟩ := ih (fun hmem => hs (List.mem_cons_of_mem d hmem))
        (fun hmem => hs' (List.mem_cons_of_mem d' hmem)) htail
      exact ⟨by rw [hhead, hrest], ht⟩

def cutFrom (sep : List α) : List α → Nat → List α → List (List α)
  | [], _, acc => [acc]
  | _ :: rest, skip + 1, acc => cutFrom sep rest skip acc
  | c :: rest, 0, acc =>
      if sep.isPrefixOf (c :: rest) then
        acc :: cutFrom sep rest (sep.length - 1) []
      else cutFrom sep rest 0 (acc ++ [c])

def cut (sep s : List α) : List (List α) := cutFrom sep s 0 []

theorem cutFrom_ne_nil (sep s : List α) (skip : Nat) (acc : List α) :
    cutFrom sep s skip acc ≠ [] := by
  induction s generalizing skip acc with
  | nil => simp [cutFrom]
  | cons c rest ih =>
    cases skip with
    | succ skip => simpa [cutFrom] using ih skip acc
    | zero =>
      simp only [cutFrom]
      split
      · simp
      · exact ih 0 _

theorem cut_ne_nil (sep s : List α) : cut sep s ≠ [] := cutFrom_ne_nil sep s 0 []

theorem intercalate_cutFrom {sep : List α} (hsep : sep ≠ []) (s : List α) (skip : Nat)
    (acc : List α) :
    sep.intercalate (cutFrom sep s skip acc) = acc ++ s.drop skip := by
  induction s generalizing skip acc with
  | nil => simp [cutFrom, List.intercalate]
  | cons c rest ih =>
    cases skip with
    | succ skip => simpa [cutFrom] using ih skip acc
    | zero =>
      simp only [cutFrom]
      split
      · rename_i hpre
        have hhead : sep <+: c :: rest := List.isPrefixOf_iff_prefix.mp hpre
        have hpos : 0 < sep.length := List.length_pos_iff.mpr hsep
        have htail : rest.drop (sep.length - 1) = (c :: rest).drop sep.length := by
          obtain ⟨n, hn⟩ : ∃ n, sep.length = n + 1 := ⟨sep.length - 1, by omega⟩
          simp [hn]
        have hcut : sep ++ (c :: rest).drop sep.length = c :: rest := by
          conv_rhs => rw [← List.take_append_drop sep.length (c :: rest)]
          rw [← List.prefix_iff_eq_take.mp hhead]
        obtain ⟨part, parts, hparts⟩ :=
          List.exists_cons_of_ne_nil (cutFrom_ne_nil sep rest (sep.length - 1) [])
        have hrec := ih (sep.length - 1) []
        rw [hparts] at hrec ⊢
        rw [List.intercalate_cons_cons, hrec, htail, List.nil_append, List.append_assoc, hcut]
        rfl
      · rw [ih 0 (acc ++ [c])]
        simp

theorem intercalate_cut {sep : List α} (hsep : sep ≠ []) (s : List α) :
    sep.intercalate (cut sep s) = s := by
  simpa [cut] using intercalate_cutFrom hsep s 0 []

omit [DecidableEq α] in
theorem flatten_leading (sep part : List α) (parts : List (List α)) :
    (part :: parts.map (sep ++ ·)).flatten = sep.intercalate (part :: parts) := by
  induction parts generalizing part with
  | nil => simp [List.intercalate]
  | cons next rest ih =>
    rw [List.intercalate_cons_cons, ← ih next]
    simp

omit [DecidableEq α] in
theorem flatten_trailing (sep : List α) (parts : List (List α)) :
    (parts.dropLast.map (· ++ sep) ++ parts.getLast?.toList).flatten = sep.intercalate parts := by
  induction parts with
  | nil => rfl
  | cons part parts ih =>
    cases parts with
    | nil => simp [List.intercalate]
    | cons next rest =>
      rw [List.intercalate_cons_cons, ← ih]
      simp

end Trim
