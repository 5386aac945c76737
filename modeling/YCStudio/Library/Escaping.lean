import YCStudio.Library.LineBreaks

namespace Escaping

variable {α : Type} [DecidableEq α] (esc sep : α)

def escapeSymbol (c : α) : List α := if c = esc ∨ c = sep then [esc, c] else [c]

def escape (s : List α) : List α := s.flatMap (escapeSymbol esc sep)

def unescape : List α → List α
  | [] => []
  | [c] => [c]
  | c :: d :: rest =>
      if c = esc ∧ (d = esc ∨ d = sep) then d :: unescape rest else c :: unescape (d :: rest)

-- Cuts at each separator that an even number of escapes precedes; odd says whether the escapes
-- just passed are odd in number.
def cutFrom : Bool → List α → List α → List (List α)
  | _, part, [] => [part]
  | odd, part, c :: rest =>
      if c = sep ∧ ¬ odd then part :: cutFrom false [] rest
      else cutFrom (c = esc ∧ ¬ odd) (part ++ [c]) rest

def cut (s : List α) : List (List α) := cutFrom esc sep false [] s

@[simp] theorem escape_nil : escape esc sep [] = [] := rfl

theorem escape_append (s t : List α) :
    escape esc sep (s ++ t) = escape esc sep s ++ escape esc sep t := List.flatMap_append

theorem unescape_cons {c : α} (hc : c ≠ esc) (s : List α) :
    unescape esc sep (c :: s) = c :: unescape esc sep s := by
  cases s with
  | nil => rfl
  | cons d s => rw [unescape, if_neg (fun h => hc h.1)]

theorem unescape_escape (s : List α) : unescape esc sep (escape esc sep s) = s := by
  induction s with
  | nil => rfl
  | cons c s ih =>
    rw [escape, List.flatMap_cons, escapeSymbol]
    split
    · next hspecial =>
      change unescape esc sep (esc :: c :: escape esc sep s) = c :: s
      rw [unescape, if_pos ⟨rfl, hspecial⟩, ih]
    · next hplain =>
      change unescape esc sep (c :: escape esc sep s) = c :: s
      rw [unescape_cons esc sep fun h => hplain (Or.inl h), ih]

variable {esc sep} (hne : esc ≠ sep)
include hne

theorem cutFrom_escape (part s rest : List α) :
    cutFrom esc sep false part (escape esc sep s ++ rest) =
      cutFrom esc sep false (part ++ escape esc sep s) rest := by
  induction s generalizing part with
  | nil => simp
  | cons c s ih =>
    rw [escape, List.flatMap_cons, escapeSymbol]
    split
    · next hspecial =>
      change cutFrom esc sep false part (esc :: c :: (escape esc sep s ++ rest)) = _
      rw [cutFrom, if_neg (fun h => hne h.1), cutFrom]
      have hodd : decide (esc = esc ∧ ¬ (false : Bool) = true) = true := by simp
      rw [hodd, if_neg (by simp)]
      have heven : decide (c = esc ∧ ¬ (true : Bool) = true) = false := by simp
      rw [heven, ih]
      simp [escape]
    · next hplain =>
      obtain ⟨hesc, hsep⟩ := not_or.mp hplain
      change cutFrom esc sep false part (c :: (escape esc sep s ++ rest)) = _
      have heven : decide (c = esc ∧ ¬ (false : Bool) = true) = false := by simp [hesc]
      rw [cutFrom, if_neg (fun h => hsep h.1), heven, ih]
      simp [escape]

theorem cut_intercalate {parts : List (List α)} (hparts : parts ≠ []) :
    cut esc sep ([sep].intercalate (parts.map (escape esc sep))) = parts.map (escape esc sep) := by
  induction parts with
  | nil => exact absurd rfl hparts
  | cons part parts ih =>
    by_cases hnil : parts = []
    · have h := cutFrom_escape hne [] part []
      rw [List.append_nil, List.nil_append] at h
      rw [hnil, List.map_singleton, List.intercalate_singleton, cut, h]
      rfl
    · rw [List.map_cons, List.intercalate_cons_of_ne_nil (by simpa using hnil), List.append_assoc, cut,
        cutFrom_escape hne, List.nil_append, List.singleton_append, cutFrom, if_pos ⟨rfl, by simp⟩]
      exact congrArg (escape esc sep part :: ·) (ih hnil)

omit hne [DecidableEq α] in
theorem strip_flatMap {blank : α → Bool} {f : α → List α} (hblank : ∀ c, blank c → f c = [c])
    (hother : ∀ c, ¬ blank c → f c ≠ [] ∧ ∀ d ∈ f c, ¬ blank d) (s : List α) :
    Trim.strip blank (s.flatMap f) = (Trim.strip blank s).flatMap f := by
  have hdrop (f : α → List α) (hblank : ∀ c, blank c → f c = [c])
      (hother : ∀ c, ¬ blank c → f c ≠ [] ∧ ∀ d ∈ f c, ¬ blank d) (s : List α) :
      (s.flatMap f).dropWhile blank = (s.dropWhile blank).flatMap f := by
    induction s with
    | nil => rfl
    | cons c s ih =>
      by_cases hc : blank c
      · rw [List.flatMap_cons, hblank c hc, List.singleton_append, List.dropWhile_cons_of_pos hc,
          List.dropWhile_cons_of_pos hc, ih]
      · obtain ⟨hnonempty, hmem⟩ := hother c hc
        obtain ⟨d, rest, hd⟩ := List.exists_cons_of_ne_nil hnonempty
        rw [List.dropWhile_cons_of_neg hc, List.flatMap_cons, hd, List.cons_append,
          List.dropWhile_cons_of_neg (hmem d (by rw [hd]; exact List.mem_cons_self))]
  have hreverse := hdrop (List.reverse ∘ f) (fun c hc => by simp [hblank c hc])
    (fun c hc => by simpa using hother c hc)
  rw [Trim.strip, hdrop f hblank hother, List.rdropWhile, List.reverse_flatMap, hreverse, Trim.strip,
    List.rdropWhile, List.flatMap_reverse]

end Escaping
