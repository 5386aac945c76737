import YCStudio.Library.Traverse
import YCStudio.Rag.CleanText
import YCStudio.Rag.Parsers
import YCStudio.Services.Ingest

namespace YCStudio

open Script

section Paths

theorem mem_part {s part : Str} {sep : Str} (hsep : sep ≠ []) (h : part ∈ s.split sep) :
    part <:+: s := by
  rw [← Trim.intercalate_cut hsep s]
  change part ∈ Trim.cut sep s at h
  generalize Trim.cut sep s = parts at h ⊢
  induction parts with
  | nil => cases h
  | cons first rest ih =>
    cases rest with
    | nil => simpa using (List.mem_singleton.mp h ▸ List.infix_refl part : part <:+: first)
    | cons second rest =>
      rw [List.intercalate_cons_cons]
      rcases List.mem_cons.mp h with rfl | h
      · exact ⟨[], sep ++ sep.intercalate (second :: rest), by simp⟩
      · exact (ih h).trans ⟨first ++ sep, [], by simp⟩

theorem purePathName_isPart (path : Str) : purePathName path <:+: path := by
  rw [purePathName]
  cases hlast : (purePathParts path).getLast? with
  | none => exact List.nil_infix
  | some part =>
    have hmem : part ∈ purePathParts path := List.mem_of_getLast? hlast
    exact mem_part (by simp) (List.mem_of_mem_filter hmem)

theorem stem_isPart (name : Str) : (splitSuffix name).1 <:+: name := by
  rw [splitSuffix]
  split
  · exact List.infix_refl name
  · exact (List.take_prefix _ name).isInfix

end Paths

section Titles

structure IsHeading (line : Str) : Prop where
  marked : "# ".toList <+: line
  nonblank : Str.strip (line.drop 2) ≠ []

def FirstHeading (text heading : Str) : Prop :=
  ∃ before line after, text.splitLines = before ++ line :: after ∧ (∀ l ∈ before, ¬ IsHeading l) ∧
    IsHeading line ∧ heading = Str.strip (line.drop 2)

def FirstParagraph (paragraphs : List Str) (paragraph : Str) : Prop :=
  ∃ before text after, paragraphs = before ++ text :: after ∧ (∀ p ∈ before, p.strip = []) ∧
    text.strip ≠ [] ∧ paragraph = text.strip

inductive ContentTitle (libs : ParserLibraries) (content : Bytes) : ParserClass → Str → Prop
  | markdown {text encoding : Str} {confidence : MetaValue} {heading : Str}
      (hdecode : decodeTextBytes libs content = .ok (text, encoding, confidence))
      (hfirst : FirstHeading text heading) : ContentTitle libs content .markdown heading
  | html {html encoding converted : Str} {confidence : MetaValue} {heading : Str}
      (hdecode : decodeTextBytes libs content = .ok (html, encoding, confidence))
      (hconvert : libs.markdownify html = .ok converted)
      (hfirst : FirstHeading converted.strip heading) : ContentTitle libs content .html heading
  | word {document : DocxDocument} {paragraph : Str} (hread : libs.docx content = .ok document)
      (hfirst : FirstParagraph document.paragraphs paragraph) :
      ContentTitle libs content .word paragraph

theorem head?_filter_map_iff {α β : Type} {p : α → Bool} {f : α → β} {xs : List α} {b : β} :
    (xs.filter p).head?.map f = some b ↔
      ∃ before x after, xs = before ++ x :: after ∧ (∀ y ∈ before, p y = false) ∧ p x = true ∧
        b = f x := by
  rw [List.head?_filter, Option.map_eq_some_iff]
  constructor
  · rintro ⟨x, hfind, rfl⟩
    obtain ⟨hx, before, after, hxs, hbefore⟩ := List.find?_eq_some_iff_append.mp hfind
    exact ⟨before, x, after, hxs, by simpa using hbefore, hx, rfl⟩
  · rintro ⟨before, x, after, hxs, hbefore, hx, rfl⟩
    exact ⟨x, List.find?_eq_some_iff_append.mpr ⟨hx, before, after, hxs, by simpa using hbefore⟩, rfl⟩

def headingOf (text : Str) : Option Str :=
  (text.splitLines.filter fun line =>
    "# ".toList.isPrefixOf line ∧ Str.strip (line.drop 2) ≠ []).head?.map
      fun line => Str.strip (line.drop 2)

theorem titleFromMarkdown_eq (text fallback : Str) :
    titleFromMarkdown text fallback = (headingOf text).getD fallback := rfl

theorem isHeading_iff {line : Str} :
    decide ("# ".toList.isPrefixOf line ∧ Str.strip (line.drop 2) ≠ []) = true ↔ IsHeading line := by
  rw [decide_eq_true_iff, List.isPrefixOf_iff_prefix]
  exact ⟨fun h => ⟨h.1, h.2⟩, fun h => ⟨h.marked, h.nonblank⟩⟩

theorem headingOf_eq_some_iff {text heading : Str} :
    headingOf text = some heading ↔ FirstHeading text heading := by
  rw [headingOf, head?_filter_map_iff, FirstHeading]
  simp only [isHeading_iff, ← Bool.not_eq_true]

def paragraphOf (paragraphs : List Str) : Option Str :=
  ((paragraphs.map Str.strip).filter (· ≠ [])).head?

theorem paragraphOf_eq_some_iff {paragraphs : List Str} {paragraph : Str} :
    paragraphOf paragraphs = some paragraph ↔ FirstParagraph paragraphs paragraph := by
  rw [paragraphOf, List.filter_map, List.head?_map, head?_filter_map_iff, FirstParagraph]
  simp

variable {libs : ParserLibraries} {file : StagedFile} {parsed : ParseResult}

theorem title_of_content {cls : ParserClass} (h : cls.parse libs file = .ok parsed) {title : Str}
    (htitle : ContentTitle libs file.content cls title) : parsed.title = title := by
  cases htitle with
  | markdown hdecode hfirst =>
    change (decodeTextBytes libs file.content >>= _) = _ at h
    rw [hdecode] at h
    cases h
    rw [titleFromMarkdown_eq, headingOf_eq_some_iff.mpr hfirst]
    rfl
  | html hdecode hconvert hfirst =>
    change (decodeTextBytes libs file.content >>= _) = _ at h
    rw [hdecode] at h
    change (libs.markdownify _ >>= _) = _ at h
    rw [hconvert] at h
    cases h
    rw [titleFromMarkdown_eq, headingOf_eq_some_iff.mpr hfirst]
    rfl
  | word hread hfirst =>
    change (libs.docx file.content >>= _) = _ at h
    rw [hread] at h
    cases h
    exact congrArg (Option.getD · _) (paragraphOf_eq_some_iff.mpr hfirst)

theorem title_cases {cls : ParserClass} (h : cls.parse libs file = .ok parsed) :
    parsed.title = file.stem ∨ ContentTitle libs file.content cls parsed.title := by
  cases cls with
  | markdown =>
    obtain ⟨⟨text, encoding, confidence⟩, hdecode, h⟩ := Except.bind_eq_ok h
    cases h
    dsimp only
    rw [titleFromMarkdown_eq]
    cases hheading : headingOf text with
    | none => exact Or.inl rfl
    | some heading => exact Or.inr (.markdown hdecode (headingOf_eq_some_iff.mp hheading))
  | html =>
    obtain ⟨⟨html, encoding, confidence⟩, hdecode, h⟩ := Except.bind_eq_ok h
    obtain ⟨converted, hconvert, h⟩ := Except.bind_eq_ok h
    cases h
    dsimp only
    rw [titleFromMarkdown_eq]
    cases hheading : headingOf converted.strip with
    | none => exact Or.inl rfl
    | some heading => exact Or.inr (.html hdecode hconvert (headingOf_eq_some_iff.mp hheading))
  | text =>
    obtain ⟨⟨text, encoding, confidence⟩, hdecode, h⟩ := Except.bind_eq_ok h
    cases h
    exact Or.inl rfl
  | word =>
    obtain ⟨document, hread, h⟩ := Except.bind_eq_ok h
    have htitle : parsed.title = (paragraphOf document.paragraphs).getD file.stem := by
      cases h
      rfl
    rw [htitle]
    cases hparagraph : paragraphOf document.paragraphs with
    | none => exact Or.inl rfl
    | some paragraph => exact Or.inr (.word hread (paragraphOf_eq_some_iff.mp hparagraph))
  | pdf =>
    obtain ⟨document, hread, h⟩ := Except.bind_eq_ok h
    split at h
    · cases h
    · cases h
      exact Or.inl rfl

theorem parserVersion_length {cls : ParserClass} (h : cls.parse libs file = .ok parsed) :
    parsed.parserVersion.length ≤ 200 := by
  cases cls with
  | pdf =>
    obtain ⟨_, _, h⟩ := Except.bind_eq_ok h
    split at h
    · cases h
    · cases h
      dsimp only
      decide
  | html =>
    obtain ⟨_, _, h⟩ := Except.bind_eq_ok h
    obtain ⟨_, _, h⟩ := Except.bind_eq_ok h
    cases h
    dsimp only
    decide
  | _ =>
    obtain ⟨_, _, h⟩ := Except.bind_eq_ok h
    cases h
    dsimp only
    decide

end Titles

section Inserts

structure FitsColumns (title rawText parserVersion : Str) : Prop where
  title_length : title.length ≤ 200
  title : '\x00' ∉ title
  rawText : '\x00' ∉ rawText
  parserVersion_length : parserVersion.length ≤ 200

def Document.FitsSchema (document : Document) : Prop :=
  FitsColumns document.title document.rawText document.parserVersion

def Op.InsertsFitting : Op → Prop
  | flush _ writes => ∀ document, .insertDocument document ∈ writes → document.FitsSchema
  | _ => True

abbrev InsertsFitting {α : Type} (program : Program α) : Prop := program.Asks Op.InsertsFitting

theorem insertsFitting_allows : Op.AllowsPipeline Op.InsertsFitting where
  newId := trivial
  newIds _ := trivial
  now := trivial
  status _ _ _ document hdocument := by simp at hdocument
  chunks _ _ document hdocument := by simp at hdocument

variable {rt : Runtime} {source : Source} {collection : Collection} {filename : Str}
  {fileBytes : Bytes} {metadata : Option (List (Str × Str))} {countTokens : Option (Str → Nat)}

theorem insertsFitting_runPipeline
    (h : ∀ parsed cleanedText, rt.parseFile filename fileBytes = .ok parsed →
      rt.clean parsed.text = .ok cleanedText →
        FitsColumns parsed.title cleanedText parsed.parserVersion) :
    InsertsFitting
      (runPipeline rt source collection filename fileBytes metadata countTokens) := by
  refine asks_runPipeline insertsFitting_allows _ _ _ _ _ ?_
  intro parsed cleanedText hparsed hcleaned fault inserted htitle hraw hversion document hdocument
  cases List.mem_singleton.mp hdocument
  rw [Document.FitsSchema, htitle, hraw, hversion]
  exact h parsed cleanedText hparsed hcleaned

theorem fitsColumns_of_insertsFitting {parsed : ParseResult} {cleanedText : Str}
    (h : InsertsFitting
      (runPipeline rt source collection filename fileBytes metadata countTokens))
    (hparsed : rt.parseFile filename fileBytes = .ok parsed)
    (hcleaned : rt.clean parsed.text = .ok cleanedText) :
    FitsColumns parsed.title cleanedText parsed.parserVersion := by
  have hsent := h.2 (.ok ())
  rw [hparsed] at hsent
  change InsertsFitting (attempt (rt.clean parsed.text) >>= _) at hsent
  rw [hcleaned] at hsent
  have hinsert := (hsent.2 (.ok (⟨0, 0⟩ : Uuid))).2 (.ok (0 : Timestamp))
  exact hinsert.1 _ List.mem_cons_self

end Inserts

section Uploads

def stagedFile (libs : ParserLibraries) (filename : Str) (fileBytes : Bytes) : StagedFile where
  directory := libs.stagingDir
  name := purePathName filename
  content := fileBytes

theorem parseUpload_ok {libs : ParserLibraries} {filename : Str} {fileBytes : Bytes}
    {parsed : ParseResult} (h : parseUpload libs filename fileBytes = .ok parsed) :
    ∃ cls, getParser libs (stagedFile libs filename fileBytes) = .ok cls ∧
      cls.parse libs (stagedFile libs filename fileBytes) = .ok parsed := by
  rw [parseUpload] at h
  split at h
  · cases h
  · exact Except.bind_eq_ok h

theorem runPipeline_insertsFitting_iff (libs : ParserLibraries) (rt : Runtime) (source : Source)
    (collection : Collection) {filename : Str} {fileBytes : Bytes}
    (metadata : Option (List (Str × Str))) (countTokens : Option (Str → Nat))
    (hlength : filename.length ≤ 200) (hname : '\x00' ∉ filename)
    (hparses : ∃ parsed, parseUpload libs filename fileBytes = .ok parsed) :
    InsertsFitting
        (runPipeline (rt.parsing libs) source collection filename fileBytes metadata countTokens) ↔
      ∀ cls title, getParser libs (stagedFile libs filename fileBytes) = .ok cls →
        ContentTitle libs fileBytes cls title → title.length ≤ 200 ∧ '\x00' ∉ title := by
  obtain ⟨parsed, hparsed⟩ := hparses
  obtain ⟨cls, hcls, hparse⟩ := parseUpload_ok hparsed
  constructor
  · intro h cls' title hcls' htitle
    cases hcls.symm.trans hcls'
    have hfits := fitsColumns_of_insertsFitting h hparsed rfl
    rw [← title_of_content hparse htitle]
    exact ⟨hfits.title_length, hfits.title⟩
  · intro h
    apply insertsFitting_runPipeline
    intro parsed' cleanedText hparsed' hcleaned
    cases hparsed.symm.trans hparsed'
    have hclean : TextCleaner.clean libs.nfkc parsed.text = cleanedText := Except.ok.inj hcleaned
    -- The cleaner drops category Cc, whatever normalization returns.
    have hraw : '\x00' ∉ cleanedText :=
      hclean ▸ fun hmem => absurd (TextCleaner.visible_of_mem_clean _ _ _ hmem) (by decide)
    have hversion := parserVersion_length hparse
    rcases title_cases hparse with hstem | hcontent
    · have hpart : parsed.title <:+: filename :=
        hstem ▸ (stem_isPart _).trans (purePathName_isPart filename)
      exact ⟨hpart.length_le.trans hlength, fun hmem => hname (hpart.mem hmem), hraw, hversion⟩
    · obtain ⟨htitle, hfree⟩ := h cls parsed.title hcls hcontent
      exact ⟨htitle, hfree, hraw, hversion⟩

end Uploads

def asciiBytes (text : Str) : Bytes := text.map fun c => c.toNat.toUInt8

def uploadedSource : Source :=
  ⟨⟨0, 2⟩, ⟨0, 0⟩, none, "brief.md".toList, "61".toList, none, .pending, none, 0, none⟩

def uploadCollection : Collection := ⟨⟨0, 0⟩, none, .case, .private, "briefs".toList⟩

theorem runPipeline_insertsFitting_brief :
    InsertsFitting (runPipeline (Runtime.reliable.parsing asciiLibraries) uploadedSource
      uploadCollection "brief.md".toList (asciiBytes "intro\n# Brief\n".toList) none none) := by
  have hparses : (parseUpload asciiLibraries "brief.md".toList
      (asciiBytes "intro\n# Brief\n".toList)).map ParseResult.title = .ok "Brief".toList := by
    decide +kernel
  obtain ⟨parsed, hparsed, htitle⟩ : ∃ parsed, parseUpload asciiLibraries "brief.md".toList
      (asciiBytes "intro\n# Brief\n".toList) = .ok parsed ∧ parsed.title = "Brief".toList := by
    cases hresult : parseUpload asciiLibraries "brief.md".toList
        (asciiBytes "intro\n# Brief\n".toList) with
    | error e => rw [hresult] at hparses; cases hparses
    | ok parsed => rw [hresult] at hparses; exact ⟨parsed, rfl, Except.ok.inj hparses⟩
  obtain ⟨cls, hcls, hparse⟩ := parseUpload_ok hparsed
  refine (runPipeline_insertsFitting_iff asciiLibraries Runtime.reliable uploadedSource
    uploadCollection none none (by decide) (by decide) ⟨parsed, hparsed⟩).mpr ?_
  intro cls' title hcls' hcontent
  cases hcls.symm.trans hcls'
  rw [← title_of_content hparse hcontent, htitle]
  decide

def longHeading : Bytes := asciiBytes ("# ".toList ++ List.replicate 201 'a')

theorem not_insertsFitting_longHeading :
    ¬ (∀ (libs : ParserLibraries) (rt : Runtime) (source : Source) (collection : Collection)
      (filename : Str) (fileBytes : Bytes), filename.length ≤ 200 → '\x00' ∉ filename →
      (∃ parsed, parseUpload libs filename fileBytes = .ok parsed) →
        InsertsFitting
          (runPipeline (rt.parsing libs) source collection filename fileBytes none none)) ∧
    (parseUpload asciiLibraries "brief.md".toList longHeading).map
      (fun parsed => parsed.title.length) = .ok 201 := by
  have hparses : (parseUpload asciiLibraries "brief.md".toList longHeading).map
      (fun parsed => parsed.title.length) = .ok 201 := by decide +kernel
  refine ⟨fun h => ?_, hparses⟩
  cases hresult : parseUpload asciiLibraries "brief.md".toList longHeading with
  | error e =>
    rw [hresult] at hparses
    cases hparses
  | ok parsed =>
    rw [hresult] at hparses
    have hfits := fitsColumns_of_insertsFitting
      (h asciiLibraries Runtime.reliable uploadedSource uploadCollection "brief.md".toList
        longHeading (by decide) (by decide) ⟨parsed, hresult⟩) hresult rfl
    have hlength : parsed.title.length = 201 := Except.ok.inj hparses
    exact absurd hfits.title_length (by omega)

end YCStudio
