import Mathlib.Algebra.Order.Floor.Div
import YCStudio.Library.Lines
import YCStudio.Rag.Text

namespace YCStudio

-- The boundaries of str.splitlines.
def isLineBoundary (c : Char) : Bool :=
  (0x0A ≤ c.toNat && c.toNat ≤ 0x0D) || (0x1C ≤ c.toNat && c.toNat ≤ 0x1E) || c.toNat == 0x85 ||
    c.toNat == 0x2028 || c.toNat == 0x2029

namespace Str

-- A carriage return and a newline are one boundary, and no line follows the last boundary.
def splitLinesFrom : Str → Str → List Str
  | line, [] => if line = [] then [] else [line]
  | line, '\r' :: '\n' :: rest => line :: splitLinesFrom [] rest
  | line, c :: rest =>
      if isLineBoundary c then line :: splitLinesFrom [] rest else splitLinesFrom (line ++ [c]) rest

def splitLines (s : Str) : List Str := splitLinesFrom [] s

def join (sep : Str) (parts : List Str) : Str := sep.intercalate parts

def replace (s old new : Str) : Str := join new (s.split old)

end Str

namespace TextCleaner

def firstContentLine (lines : List Str) : Str :=
  ((lines.filter fun line => line.strip ≠ []).head?.map Str.strip).getD []

def lastContentLine (lines : List Str) : Str := firstContentLine lines.reverse

def removeFirstMatchingLine (candidates : List Str) : List Str → List Str
  | [] => []
  | line :: lines =>
      if line.strip = [] then line :: removeFirstMatchingLine candidates lines
      else if line.strip ∈ candidates then lines
      else line :: lines

def removeLastMatchingLine (candidates : List Str) (lines : List Str) : List Str :=
  (removeFirstMatchingLine candidates lines.reverse).reverse

def repeatedLines (threshold : Nat) (lines : List Str) : List Str :=
  lines.dedup.filter fun line => line ≠ [] ∧ threshold ≤ lines.count line

def marginThreshold (pages : Nat) : Nat := max 2 ((pages + 1) / 2)

def cleanPage (repeatedHeaders repeatedFooters : List Str) (lines : List Str) : List Str :=
  removeLastMatchingLine repeatedFooters (removeFirstMatchingLine repeatedHeaders lines)

def pageLines (text : Str) : List (List Str) := (text.split ['\x0c']).map Str.splitLines

def removeRepeatedPageMargins (text : Str) : Str :=
  let pages := text.split ['\x0c']
  if pages.length < 2 then text
  else
    let pageLines := pages.map Str.splitLines
    let threshold := marginThreshold pages.length
    let repeatedHeaders := repeatedLines threshold (pageLines.map firstContentLine)
    let repeatedFooters := repeatedLines threshold (pageLines.map lastContentLine)
    let cleanedPages := pageLines.map fun lines =>
      (Str.join ['\n'] (cleanPage repeatedHeaders repeatedFooters lines)).strip
    Str.join ['\n', '\n'] (cleanedPages.filter (· ≠ []))

def isZeroWidth (c : Char) : Bool :=
  c ∈ ['\u200b', '\u200c', '\u200d', '\u2060', '\ufeff']

-- Category Cc.
def isControl (c : Char) : Bool := c.toNat < 0x20 || (0x7F ≤ c.toNat && c.toNat < 0xA0)

def isDecimal (c : Char) : Bool := (digitValue c).isSome

-- \d+ at the start of the text: what follows it.
def afterDigits (s : Str) : Option Str :=
  if (s.takeWhile isDecimal).isEmpty then none else some (s.dropWhile isDecimal)

def afterSpaces (s : Str) : Str := s.dropWhile isSpace

def isPageNumberLine (line : Str) : Bool :=
  let chinese := match line with
    | '第' :: rest => (afterDigits (afterSpaces rest)).any fun rest => afterSpaces rest = ['页']
    | _ => false
  let english :=
    (line.take 4).map Char.toLower = "page".toList &&
      afterSpaces (line.drop 4) ≠ line.drop 4 &&
        (afterDigits (afterSpaces (line.drop 4))).any fun rest => rest = []
  let fraction := (afterDigits line).any fun rest =>
    match afterSpaces rest with
    | '/' :: rest => (afterDigits (afterSpaces rest)).any fun rest => rest = []
    | _ => false
  chinese || english || fraction

def isLineBlank (c : Char) : Bool := c = ' ' || c = '\t'

-- What (?:[ \t]*\n)* leaves of the text, and how often it matches.
def skipBlankLines : Nat → Str → Nat × Str
  | 0, s => (0, s)
  | fuel + 1, s =>
      match s.dropWhile isLineBlank with
      | '\n' :: rest =>
          let skipped := skipBlankLines fuel rest
          (skipped.1 + 1, skipped.2)
      | _ => (0, s)

def collapseBlankLines : Nat → Str → Str
  | 0, s => s
  | _ + 1, [] => []
  | fuel + 1, c :: rest =>
      if c = '\n' ∧ 2 ≤ (skipBlankLines rest.length rest).1 then
        '\n' :: '\n' :: collapseBlankLines fuel (skipBlankLines rest.length rest).2
      else c :: collapseBlankLines fuel rest

def cleanLines (text : Str) : List Str :=
  ((text.split ['\n']).map fun line => Str.strip (line.rdropWhile isLineBlank)).filter
    fun stripped => ¬ isPageNumberLine stripped ∨ stripped = []

def clean (nfkc : Str → Str) (text : Str) : Str :=
  let normalized := ((nfkc text).replace ['\r', '\n'] ['\n']).replace ['\r'] ['\n']
  let withoutMargins := removeRepeatedPageMargins normalized
  let withoutInvisible := withoutMargins.filter (¬ isZeroWidth ·)
  let withoutControls := withoutInvisible.filter fun c =>
    c ∈ ['\n', '\t', '\x0c'] ∨ ¬ isControl c
  let joined := Str.join ['\n'] (cleanLines withoutControls)
  (collapseBlankLines joined.length joined).strip

section Margins

def contentLines (text : Str) : List Str := Lines.contents isSpace isLineBoundary text

def contents (lines : List Str) : List Str := (lines.map Str.strip).filter (· ≠ [])

theorem contents_cons (line : Str) (lines : List Str) :
    contents (line :: lines) = contents [line] ++ contents lines := by
  rw [contents, List.map_cons, ← List.singleton_append, List.filter_append]
  rfl

theorem contents_singleton {line : Str} (hline : ∀ c ∈ line, isLineBoundary c = false) :
    contents [line] = contentLines line := (Lines.contents_line hline).symm

theorem boundaryFree_splitLinesFrom (line s : Str) (hline : ∀ c ∈ line, isLineBoundary c = false) :
    ∀ l ∈ Str.splitLinesFrom line s, ∀ c ∈ l, isLineBoundary c = false := by
  fun_induction Str.splitLinesFrom line s with
  | case1 => simp
  | case2 line hne => simpa using hline
  | case3 line rest ih => exact List.forall_mem_cons.mpr ⟨hline, ih (by simp)⟩
  | case4 line c rest _ hc ih => exact List.forall_mem_cons.mpr ⟨hline, ih (by simp)⟩
  | case5 line c rest _ hc ih =>
    apply ih
    intro d hd
    rcases List.mem_append.mp hd with hd | hd
    · exact hline d hd
    · rw [List.mem_singleton.mp hd]
      simpa using hc

theorem contentLines_join {lines : List Str} (hlines : ∀ l ∈ lines, ∀ c ∈ l, isLineBoundary c = false) :
    contentLines (Str.join ['\n'] lines) = contents lines := by
  rw [contentLines, Str.join, Lines.contents_intercalate (by simp) (by simp; decide)]
  induction lines with
  | nil => rfl
  | cons line lines ih =>
    obtain ⟨hline, hrest⟩ := List.forall_mem_cons.mp hlines
    rw [contents_cons, contents_singleton hline, ← ih hrest]
    rfl

def DropsFirst (removable : Str → Prop) (lines kept : List Str) : Prop :=
  kept = lines ∨ ∃ blanks line rest, lines = blanks ++ line :: rest ∧ kept = blanks ++ rest ∧
    (∀ blank ∈ blanks, blank.strip = []) ∧ line.strip ≠ [] ∧ removable line.strip

def DropsLast (removable : Str → Prop) (lines kept : List Str) : Prop :=
  kept = lines ∨ ∃ rest line blanks, lines = rest ++ line :: blanks ∧ kept = rest ++ blanks ∧
    (∀ blank ∈ blanks, blank.strip = []) ∧ line.strip ≠ [] ∧ removable line.strip

def MarginsRemoved (header footer : Str → Prop) (lines kept : List Str) : Prop :=
  ∃ middle, DropsFirst header lines middle ∧ DropsLast footer middle kept

def RepeatedFirst (pages : List (List Str)) (line : Str) : Prop :=
  max 2 (pages.length ⌈/⌉ 2) ≤ pages.countP fun lines => firstContentLine lines = line

def RepeatedLast (pages : List (List Str)) (line : Str) : Prop :=
  max 2 (pages.length ⌈/⌉ 2) ≤ pages.countP fun lines => lastContentLine lines = line

theorem removeFirstMatchingLine_drops (candidates lines : List Str) :
    DropsFirst (· ∈ candidates) lines (removeFirstMatchingLine candidates lines) := by
  induction lines with
  | nil => exact Or.inl rfl
  | cons line lines ih =>
    rw [removeFirstMatchingLine]
    by_cases hblank : line.strip = []
    · rw [if_pos hblank]
      rcases ih with hsame | ⟨blanks, first, rest, hlines, hkept, hblanks, hfirst, hremovable⟩
      · exact Or.inl (by rw [hsame])
      · refine Or.inr ⟨line :: blanks, first, rest, by rw [hlines]; rfl, by rw [hkept]; rfl, ?_,
          hfirst, hremovable⟩
        exact List.forall_mem_cons.mpr ⟨hblank, hblanks⟩
    · rw [if_neg hblank]
      by_cases hmem : line.strip ∈ candidates
      · rw [if_pos hmem]
        exact Or.inr ⟨[], line, lines, rfl, rfl, by simp, hblank, hmem⟩
      · rw [if_neg hmem]
        exact Or.inl rfl

theorem removeLastMatchingLine_drops (candidates lines : List Str) :
    DropsLast (· ∈ candidates) lines (removeLastMatchingLine candidates lines) := by
  rw [removeLastMatchingLine]
  rcases removeFirstMatchingLine_drops candidates lines.reverse with
    hsame | ⟨blanks, line, rest, hlines, hkept, hblanks, hline, hremovable⟩
  · exact Or.inl (by rw [hsame, List.reverse_reverse])
  · refine Or.inr ⟨rest.reverse, line, blanks.reverse, ?_, ?_, ?_, hline, hremovable⟩
    · rw [← List.reverse_inj, hlines]
      simp
    · rw [hkept, List.reverse_append]
    · exact fun blank hblank => hblanks blank (List.mem_reverse.mp hblank)

theorem DropsFirst.mono {removable removable' : Str → Prop} {lines kept : List Str}
    (h : DropsFirst removable lines kept) (himp : ∀ line, removable line → removable' line) :
    DropsFirst removable' lines kept := by
  rcases h with hsame | ⟨blanks, line, rest, hlines, hkept, hblanks, hline, hremovable⟩
  · exact Or.inl hsame
  · exact Or.inr ⟨blanks, line, rest, hlines, hkept, hblanks, hline, himp _ hremovable⟩

theorem DropsLast.mono {removable removable' : Str → Prop} {lines kept : List Str}
    (h : DropsLast removable lines kept) (himp : ∀ line, removable line → removable' line) :
    DropsLast removable' lines kept := by
  rcases h with hsame | ⟨rest, line, blanks, hlines, hkept, hblanks, hline, hremovable⟩
  · exact Or.inl hsame
  · exact Or.inr ⟨rest, line, blanks, hlines, hkept, hblanks, hline, himp _ hremovable⟩

theorem DropsFirst.subset {removable : Str → Prop} {lines kept : List Str}
    (h : DropsFirst removable lines kept) : kept ⊆ lines := by
  rcases h with rfl | ⟨blanks, line, rest, rfl, rfl, _⟩
  · exact List.Subset.refl _
  · simp

theorem DropsLast.subset {removable : Str → Prop} {lines kept : List Str}
    (h : DropsLast removable lines kept) : kept ⊆ lines := by
  rcases h with rfl | ⟨rest, line, blanks, rfl, rfl, _⟩
  · exact List.Subset.refl _
  · simp

theorem MarginsRemoved.subset {header footer : Str → Prop} {lines kept : List Str}
    (h : MarginsRemoved header footer lines kept) : kept ⊆ lines := by
  obtain ⟨middle, hfirst, hlast⟩ := h
  exact fun l hl => hfirst.subset (hlast.subset hl)

theorem marginThreshold_eq (pages : Nat) : marginThreshold pages = max 2 (pages ⌈/⌉ 2) := by
  rw [marginThreshold, Nat.ceilDiv_eq_add_pred_div]
  rfl

theorem repeatedLines_count {pages : List (List Str)} {read : List Str → Str} {line : Str}
    (h : line ∈ repeatedLines (marginThreshold pages.length) (pages.map read)) :
    max 2 (pages.length ⌈/⌉ 2) ≤ pages.countP fun lines => read lines = line := by
  have hcount := (of_decide_eq_true (List.mem_filter.mp h).2).2
  rw [marginThreshold_eq, List.count_eq_countP, List.countP_map] at hcount
  refine hcount.trans_eq (List.countP_congr fun lines _ => ?_)
  simp

def cleanPages (pages : List (List Str)) : List (List Str) :=
  pages.map (cleanPage
    (repeatedLines (marginThreshold pages.length) (pages.map firstContentLine))
    (repeatedLines (marginThreshold pages.length) (pages.map lastContentLine)))

theorem cleanPage_margins (pages : List (List Str)) (lines : List Str) :
    MarginsRemoved (RepeatedFirst pages) (RepeatedLast pages) lines
      (cleanPage (repeatedLines (marginThreshold pages.length) (pages.map firstContentLine))
        (repeatedLines (marginThreshold pages.length) (pages.map lastContentLine)) lines) :=
  ⟨_, (removeFirstMatchingLine_drops _ lines).mono fun _ => repeatedLines_count,
    (removeLastMatchingLine_drops _ _).mono fun _ => repeatedLines_count⟩

theorem cleanPages_margins (pages : List (List Str)) :
    List.Forall₂ (MarginsRemoved (RepeatedFirst pages) (RepeatedLast pages)) pages
      (cleanPages pages) := by
  rw [cleanPages, List.forall₂_map_right_iff]
  exact List.forall₂_same.mpr fun lines _ => cleanPage_margins pages lines

def pageText (lines : List Str) : Str := (Str.join ['\n'] lines).strip

theorem removeRepeatedPageMargins_eq {text : Str} (hpages : 2 ≤ (pageLines text).length) :
    removeRepeatedPageMargins text =
      Str.join ['\n', '\n'] (((cleanPages (pageLines text)).map pageText).filter (· ≠ [])) := by
  have hlength : (pageLines text).length = (text.split ['\x0c']).length := List.length_map _
  rw [removeRepeatedPageMargins]
  dsimp only
  rw [if_neg (by omega), ← hlength, cleanPages, pageLines]
  simp only [List.map_map]
  rfl

theorem contentLines_pages {pages : List (List Str)}
    (hpages : ∀ lines ∈ pages, ∀ l ∈ lines, ∀ c ∈ l, isLineBoundary c = false) :
    contentLines (Str.join ['\n', '\n'] ((pages.map pageText).filter (· ≠ []))) =
      (pages.map contents).flatten := by
  rw [contentLines, Str.join, Lines.contents_intercalate (by simp) (by simp; decide)]
  induction pages with
  | nil => rfl
  | cons lines pages ih =>
    obtain ⟨hlines, hrest⟩ := List.forall_mem_cons.mp hpages
    have hpage : Lines.contents isSpace isLineBoundary (pageText lines) = contents lines :=
      (Lines.contents_strip _).trans (contentLines_join hlines)
    rw [List.map_cons, List.map_cons, List.flatten_cons, ← ih hrest, ← hpage]
    by_cases hempty : pageText lines = []
    · rw [hempty, Lines.contents_nil]
      simp
    · rw [List.filter_cons_of_pos (by simpa using hempty)]
      rfl

theorem boundaryFree_pageLines (text : Str) :
    ∀ lines ∈ pageLines text, ∀ l ∈ lines, ∀ c ∈ l, isLineBoundary c = false :=
  List.forall_mem_map.mpr fun _ _ => boundaryFree_splitLinesFrom _ _ (by simp)

theorem removeRepeatedPageMargins_margins (text : Str) (hpages : 2 ≤ (pageLines text).length) :
    ∃ kept, List.Forall₂
        (MarginsRemoved (RepeatedFirst (pageLines text)) (RepeatedLast (pageLines text)))
        (pageLines text) kept ∧
      removeRepeatedPageMargins text =
        Str.join ['\n', '\n'] ((kept.map pageText).filter (· ≠ [])) ∧
      contentLines (removeRepeatedPageMargins text) = (kept.map contents).flatten := by
  have hmargins := cleanPages_margins (pageLines text)
  have htext := removeRepeatedPageMargins_eq hpages
  refine ⟨cleanPages (pageLines text), hmargins, htext, ?_⟩
  rw [htext]
  apply contentLines_pages
  intro kept hkept l hl
  obtain ⟨lines, hlines, rfl⟩ := List.mem_map.mp hkept
  exact boundaryFree_pageLines text lines hlines l ((cleanPage_margins _ lines).subset hl)

def briefPages : Str := "Brief\none\n1/3\x0cCover\nBrief\n2/3\x0cBrief\nthree\n1/3".toList

theorem removeRepeatedPageMargins_brief :
    ∃ kept, List.Forall₂
        (MarginsRemoved (RepeatedFirst (pageLines briefPages)) (RepeatedLast (pageLines briefPages)))
        (pageLines briefPages) kept ∧
      removeRepeatedPageMargins briefPages =
        Str.join ['\n', '\n'] ((kept.map pageText).filter (· ≠ [])) ∧
      contentLines (removeRepeatedPageMargins briefPages) = (kept.map contents).flatten :=
  removeRepeatedPageMargins_margins briefPages (by decide +kernel)

example : removeRepeatedPageMargins briefPages = "one\n\nCover\nBrief\n2/3\n\nthree".toList := by
  decide +kernel

end Margins

end TextCleaner

example : TextCleaner.clean id "Brief\n1\x0cBrief\n  Page 2\x0cBrief\nbody\n\n \n\nend\n".toList =
    "1\n\nbody\n\nend".toList := by decide +kernel

end YCStudio
