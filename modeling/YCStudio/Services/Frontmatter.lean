import YCStudio.Services.PublicSeed

namespace YCStudio

section Utf8

def decodeUtf8 (content : Bytes) : Option Str :=
  content.toByteArray.utf8Decode?.map Array.toList

theorem decodeUtf8_encodeUtf8 (text : Str) : decodeUtf8 (encodeUtf8 text) = some text := by
  have h : text.utf8Encode.utf8Decode? = some text.toArray := List.utf8Decode?_utf8Encode
  change text.utf8Encode.utf8Decode?.map Array.toList = some text
  rw [h]
  rfl

theorem encodeUtf8_injective {text text' : Str} (h : encodeUtf8 text = encodeUtf8 text') :
    text = text' := by
  have hdecode := congrArg decodeUtf8 h
  rw [decodeUtf8_encodeUtf8, decodeUtf8_encodeUtf8] at hdecode
  exact Option.some.inj hdecode

-- None where the bytes are not UTF-8.
def stripFrontmatterBytes (content : Bytes) : Option Bytes :=
  (decodeUtf8 content).map fun text =>
    match matchFrontmatter text with
    | none => content
    | some rest => encodeUtf8 rest

theorem stripFrontmatterBytes_encodeUtf8 (text : Str) :
    stripFrontmatterBytes (encodeUtf8 text) = some (encodeUtf8 (stripFrontmatter text)) := by
  rw [stripFrontmatterBytes, decodeUtf8_encodeUtf8, Option.map_some, stripFrontmatter]
  cases matchFrontmatter text <;> rfl

end Utf8

inductive LineEnding where
  | lf
  | crlf
  deriving DecidableEq, Repr

def LineEnding.text : LineEnding → Str
  | lf => ['\n']
  | crlf => ['\r', '\n']

def delimiter : Str := "---".toList

def isBreak (c : Char) : Bool := c = '\n' ∨ c = '\r'

section Match

variable (eol : LineEnding) {line s rest : Str}

theorem LineEnding.exists_break : ∃ b tail, eol.text = b :: tail ∧ isBreak b = true := by
  cases eol with
  | lf => exact ⟨'\n', [], rfl, by decide⟩
  | crlf => exact ⟨'\r', ['\n'], rfl, by decide⟩

theorem skipNewline_text (s : Str) : skipNewline (eol.text ++ s) = some s := by
  cases eol <;> rfl

theorem skipNewline_eq_some (h : skipNewline s = some rest) :
    ∃ b tail, s = b :: tail ∧ isBreak b = true ∧ rest.length + 1 ≤ s.length := by
  rw [skipNewline.eq_def] at h
  split at h
  · cases h
    exact ⟨'\r', _, rfl, by decide, by simp⟩
  · cases h
    exact ⟨'\n', _, rfl, by decide, by simp⟩
  · cases h

theorem skipDashes_eq_some (h : skipDashes s = some rest) : s = delimiter ++ rest := by
  rw [skipDashes.eq_def] at h
  split at h
  · cases h
    rfl
  · cases h

theorem length_skipBlankLine_le (s : Str) : (skipBlankLine s).length ≤ s.length := by
  rw [skipBlankLine.eq_def]
  split <;> simp +arith

theorem noBreak_delimiter : ∀ c ∈ delimiter, isBreak c = false :=
  List.forall_iff_forall_mem.mp (by decide)

theorem takeWhile_line (hline : ∀ c ∈ line, isBreak c = false) {b : Char} (hb : isBreak b = true)
    (t : Str) : (line ++ b :: t).takeWhile (fun c => !isBreak c) = line := by
  rw [List.takeWhile_append_of_pos (fun c hc => by simp [hline c hc]),
    List.takeWhile_cons_of_neg (by simp [hb]), List.append_nil]

theorem skipDashes_line (hline : ∀ c ∈ line, isBreak c = false) (hne : line ≠ delimiter) (t : Str) :
    (skipDashes (line ++ (eol.text ++ t))).bind skipNewline = none := by
  by_contra hsome
  obtain ⟨rest, hrest⟩ := Option.ne_none_iff_exists'.mp hsome
  obtain ⟨dashed, hdashes, hnewline⟩ := Option.bind_eq_some_iff.mp hrest
  obtain ⟨b, tail, heol, hb⟩ := eol.exists_break
  obtain ⟨b', tail', rfl, hb', _⟩ := skipNewline_eq_some hnewline
  have htext := skipDashes_eq_some hdashes
  rw [heol, List.cons_append] at htext
  have hfirst := congrArg (List.takeWhile fun c => !isBreak c) htext
  rw [takeWhile_line hline hb, takeWhile_line noBreak_delimiter hb'] at hfirst
  exact hne hfirst

theorem skipClosing_cons {c : Char} (hc : isBreak c = false) (s : Str) :
    skipClosing (c :: s) = none := by
  cases hnewline : skipNewline (c :: s) with
  | none =>
    rw [skipClosing, hnewline]
    rfl
  | some rest =>
    obtain ⟨b, tail, hcons, hb, _⟩ := skipNewline_eq_some hnewline
    rw [← (List.cons.inj hcons).1, hc] at hb
    cases hb

theorem skipHeader_line (hline : ∀ c ∈ line, isBreak c = false) (t : Str) :
    skipHeader (line ++ t) = skipHeader t := by
  induction line with
  | nil => rfl
  | cons c line ih =>
    obtain ⟨hc, hrest⟩ := List.forall_mem_cons.mp hline
    rw [List.cons_append, skipHeader, skipClosing_cons hc]
    exact ih hrest

theorem skipClosing_text (s : Str) :
    skipClosing (eol.text ++ s) = ((skipDashes s).bind skipNewline).map skipBlankLine := by
  rw [skipClosing, skipNewline_text]
  change ((skipDashes s).bind fun rest => (skipNewline rest).bind fun rest => some (skipBlankLine rest)) =
    ((skipDashes s).bind skipNewline).map skipBlankLine
  rw [Option.map_bind]
  congr 1
  funext rest
  rw [Function.comp_apply]
  cases skipNewline rest <;> rfl

theorem skipHeader_break (h : (skipDashes s).bind skipNewline = none) :
    skipHeader (eol.text ++ s) = skipHeader s := by
  have hclosing (eol : LineEnding) : skipClosing (eol.text ++ s) = none := by
    rw [skipClosing_text, h]
    rfl
  have hlf : skipHeader ('\n' :: s) = skipHeader s := by
    have hnone : skipClosing ('\n' :: s) = none := hclosing .lf
    rw [skipHeader, hnone]
  cases eol with
  | lf => exact hlf
  | crlf =>
    have hnone : skipClosing ('\r' :: '\n' :: s) = none := hclosing .crlf
    change skipHeader ('\r' :: '\n' :: s) = skipHeader s
    rw [skipHeader, hnone]
    exact hlf

theorem skipHeader_lines {lines : List Str}
    (hlines : ∀ line ∈ lines, line ≠ delimiter ∧ ∀ c ∈ line, isBreak c = false) (t : Str) :
    skipHeader (lines.flatMap (eol.text ++ ·) ++ (eol.text ++ t)) = skipHeader (eol.text ++ t) := by
  induction lines with
  | nil => rfl
  | cons line lines ih =>
    obtain ⟨⟨hne, hline⟩, hrest⟩ := List.forall_mem_cons.mp hlines
    obtain ⟨next, hnext⟩ : ∃ next, lines.flatMap (eol.text ++ ·) ++ (eol.text ++ t) =
        eol.text ++ next := by
      cases lines with
      | nil => exact ⟨t, rfl⟩
      | cons following lines =>
        exact ⟨following ++ (lines.flatMap (eol.text ++ ·) ++ (eol.text ++ t)), by simp⟩
    have hskip := ih hrest
    rw [hnext] at hskip
    rw [List.flatMap_cons, List.append_assoc, List.append_assoc, hnext,
      skipHeader_break eol (skipDashes_line eol hline hne next), skipHeader_line hline, hskip]

theorem length_skipHeader (h : skipHeader s = some rest) : rest.length + 5 ≤ s.length := by
  have hclosing {s : Str} (h : skipClosing s = some rest) : rest.length + 5 ≤ s.length := by
    obtain ⟨first, hfirst, h⟩ := Option.bind_eq_some_iff.mp h
    obtain ⟨dashed, hdashes, h⟩ := Option.bind_eq_some_iff.mp h
    obtain ⟨last, hlast, h⟩ := Option.bind_eq_some_iff.mp h
    obtain ⟨_, _, _, _, hlength⟩ := skipNewline_eq_some hfirst
    obtain ⟨_, _, _, _, hlength'⟩ := skipNewline_eq_some hlast
    have hdashed := congrArg List.length (skipDashes_eq_some hdashes)
    have hblank := length_skipBlankLine_le last
    cases h
    simp only [List.length_append] at hdashed
    have : delimiter.length = 3 := rfl
    omega
  induction s with
  | nil =>
    change none = some rest at h
    cases h
  | cons c s ih =>
    rw [skipHeader] at h
    split at h
    · next hsome =>
      cases h
      exact hclosing hsome
    · have hlength := ih h
      simp only [List.length_cons]
      omega

end Match

inductive SeedText where
  | framed (header : List Str) (blankLine : Bool) (body : Str)
  | unfinished (header : List Str)
  | plain (text : Str)

namespace SeedText

def opening (eol : LineEnding) (header : List Str) : Str :=
  delimiter ++ eol.text ++ header.flatMap (· ++ eol.text) ++ delimiter

def text (eol : LineEnding) : SeedText → Str
  | framed header blankLine body =>
      opening eol header ++ eol.text ++ (if blankLine then eol.text else []) ++ body
  | unfinished header => opening eol header
  | plain text => text

def content : SeedText → Str
  | framed _ _ body => body
  | unfinished _ => []
  | plain text => text

def HeaderLines (header : List Str) : Prop :=
  ∀ line ∈ header, line ≠ delimiter ∧ ∀ c ∈ line, isBreak c = false

instance (header : List Str) : Decidable (HeaderLines header) :=
  letI (line : Str) : Decidable (∀ c ∈ line, isBreak c = false) := List.decidableBAll _ line
  inferInstanceAs (Decidable (∀ line ∈ header, _ ∧ _))

def WellFormed : SeedText → Prop
  | framed header _ body => HeaderLines header ∧ ∀ c ∈ body.head?, isBreak c = false
  | unfinished header => HeaderLines header
  | plain text => ∀ eol : LineEnding, ¬ delimiter ++ eol.text <+: text

def Delimited : SeedText → Prop
  | framed header _ _ => header ≠ []
  | unfinished _ => False
  | plain _ => True

variable {eol : LineEnding} {header : List Str} {body : Str}

theorem flatMap_append_delimiter (line : Str) (lines : List Str) (t : Str) :
    (line :: lines).flatMap (· ++ eol.text) ++ t =
      line ++ (lines.flatMap (eol.text ++ ·) ++ (eol.text ++ t)) := by
  induction lines generalizing line with
  | nil => simp
  | cons next lines ih =>
    rw [List.flatMap_cons, List.append_assoc, List.append_assoc, ih, List.flatMap_cons]
    simp

theorem matchFrontmatter_opening (t : Str) :
    matchFrontmatter (opening eol header ++ t) =
      skipHeader (header.flatMap (· ++ eol.text) ++ (delimiter ++ t)) := by
  have hdashes (s : Str) : skipDashes (delimiter ++ s) = some s := rfl
  rw [matchFrontmatter, opening, List.append_assoc, List.append_assoc, List.append_assoc, hdashes]
  change (skipNewline (eol.text ++ _)).bind skipHeader = _
  rw [skipNewline_text]
  rfl

theorem matchFrontmatter_header (hheader : HeaderLines header) (hne : header ≠ []) (t : Str) :
    matchFrontmatter (opening eol header ++ t) = skipHeader (eol.text ++ (delimiter ++ t)) := by
  obtain ⟨line, lines, rfl⟩ := List.exists_cons_of_ne_nil hne
  obtain ⟨⟨_, hline⟩, hlines⟩ := List.forall_mem_cons.mp hheader
  rw [matchFrontmatter_opening, flatMap_append_delimiter, skipHeader_line hline,
    skipHeader_lines eol hlines]

theorem skipBlankLine_text (blankLine : Bool) (hbody : ∀ c ∈ body.head?, isBreak c = false) :
    skipBlankLine ((if blankLine then eol.text else []) ++ body) = body := by
  cases blankLine with
  | true => cases eol <;> rfl
  | false =>
    cases body with
    | nil => rfl
    | cons c body =>
      have hne : c ≠ '\n' ∧ c ≠ '\r' := by simpa [isBreak] using hbody c rfl
      simp [skipBlankLine, hne]

theorem skipHeader_delimiter (t : Str) :
    skipHeader (eol.text ++ (delimiter ++ eol.text ++ t)) = some (skipBlankLine t) := by
  cases eol <;> rfl

theorem skipHeader_end : skipHeader (eol.text ++ (delimiter ++ [])) = none := by
  cases eol <;> decide

theorem matchFrontmatter_empty (t : Str) :
    matchFrontmatter (opening eol [] ++ t) = skipHeader t := by
  rw [matchFrontmatter_opening, List.flatMap_nil, List.nil_append]
  exact skipHeader_line noBreak_delimiter t

theorem stripFrontmatter_framed (hheader : HeaderLines header)
    (hbody : ∀ c ∈ body.head?, isBreak c = false) (blankLine : Bool) :
    stripFrontmatter ((framed header blankLine body).text eol) = body ↔ header ≠ [] := by
  have htext : (framed header blankLine body).text eol =
      opening eol header ++ (eol.text ++ ((if blankLine then eol.text else []) ++ body)) := by
    simp [text]
  constructor
  · rintro hstrip rfl
    have hlength : body.length < (eol.text ++ ((if blankLine then eol.text else []) ++ body)).length ∧
        (eol.text ++ ((if blankLine then eol.text else []) ++ body)).length ≤ body.length + 4 := by
      cases eol <;> cases blankLine <;> simp +arith [LineEnding.text]
    rw [htext, stripFrontmatter, matchFrontmatter_empty] at hstrip
    generalize eol.text ++ ((if blankLine then eol.text else []) ++ body) = t at hstrip hlength
    cases hskip : skipHeader t with
    | none =>
      rw [hskip, Option.getD_none] at hstrip
      have hwhole := congrArg List.length hstrip
      rw [List.length_append] at hwhole
      omega
    | some rest =>
      rw [hskip, Option.getD_some] at hstrip
      have hrest := length_skipHeader hskip
      rw [hstrip] at hrest
      omega
  · intro hne
    rw [htext, stripFrontmatter, matchFrontmatter_header hheader hne, ← List.append_assoc delimiter,
      skipHeader_delimiter, Option.getD_some, skipBlankLine_text blankLine hbody]

theorem stripFrontmatter_unfinished (hheader : HeaderLines header) :
    stripFrontmatter ((unfinished header).text eol) ≠ [] := by
  have hnone : matchFrontmatter (opening eol header) = none := by
    by_cases hne : header = []
    · have h : matchFrontmatter (opening eol [] ++ []) = skipHeader [] := matchFrontmatter_empty []
      rw [List.append_nil] at h
      rw [hne, h]
      rfl
    · have h : matchFrontmatter (opening eol header ++ []) = skipHeader (eol.text ++ (delimiter ++ [])) :=
        matchFrontmatter_header hheader hne []
      rw [List.append_nil] at h
      rw [h, skipHeader_end]
  rw [stripFrontmatter, text, hnone, Option.getD_none, opening]
  simp [delimiter]

theorem stripFrontmatter_plain {s : Str} (h : ∀ eol : LineEnding, ¬ delimiter ++ eol.text <+: s) :
    stripFrontmatter s = s := by
  cases hmatch : matchFrontmatter s with
  | none => rw [stripFrontmatter, hmatch, Option.getD_none]
  | some body =>
    obtain ⟨dashed, hdashes, hrest⟩ := Option.bind_eq_some_iff.mp hmatch
    obtain ⟨lines, hnewline, _⟩ := Option.bind_eq_some_iff.mp hrest
    have hs := skipDashes_eq_some hdashes
    rw [skipNewline.eq_def] at hnewline
    split at hnewline
    · exact absurd ⟨_, by rw [hs, List.append_assoc]; rfl⟩ (h .crlf)
    · exact absurd ⟨_, by rw [hs, List.append_assoc]; rfl⟩ (h .lf)
    · cases hnewline

theorem stripFrontmatterBytes_eq_iff (eol : LineEnding) {file : SeedText} (h : file.WellFormed) :
    stripFrontmatterBytes (encodeUtf8 (file.text eol)) = some (encodeUtf8 file.content) ↔
      file.Delimited := by
  have htext : stripFrontmatterBytes (encodeUtf8 (file.text eol)) = some (encodeUtf8 file.content) ↔
      stripFrontmatter (file.text eol) = file.content := by
    rw [stripFrontmatterBytes_encodeUtf8, Option.some_inj]
    exact ⟨encodeUtf8_injective, congrArg encodeUtf8⟩
  rw [htext]
  cases file with
  | framed header blankLine body => exact stripFrontmatter_framed h.1 h.2 blankLine
  | unfinished header => exact iff_of_false (stripFrontmatter_unfinished h) id
  | plain text => exact iff_of_true (stripFrontmatter_plain h) trivial

def baseline : SeedText :=
  framed ["seed_version: 1".toList, [], "library: public-rules".toList] true
    "# Baseline\n\n---\n\nNever fabricate a source.".toList

theorem stripFrontmatterBytes_baseline :
    stripFrontmatterBytes (encodeUtf8 (baseline.text .crlf)) = some (encodeUtf8 baseline.content) :=
  (stripFrontmatterBytes_eq_iff .crlf (show baseline.WellFormed from
    ⟨by decide, by rintro _ ⟨⟩; decide⟩)).mpr (List.cons_ne_nil _ _)

def emptyHeader : SeedText := framed [] false "# Rule one\n---\n# Rule two".toList

theorem not_stripFrontmatterBytes_emptyHeader :
    emptyHeader.WellFormed ∧
      stripFrontmatterBytes (encodeUtf8 (emptyHeader.text .lf)) =
        some (encodeUtf8 "# Rule two".toList) ∧
      "# Rule two".toList ≠ emptyHeader.content := by
  refine ⟨⟨by decide, by rintro _ ⟨⟩; decide⟩, ?_, by decide⟩
  have hstrip : stripFrontmatter (emptyHeader.text .lf) = "# Rule two".toList := by decide
  rw [stripFrontmatterBytes_encodeUtf8, hstrip]

end SeedText

end YCStudio
