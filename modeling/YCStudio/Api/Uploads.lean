import Mathlib.Data.List.Lex
import YCStudio.Evaluation.CorpusRoutes
import YCStudio.Rag.ParserRegistry
import YCStudio.Services.DirPaths

namespace YCStudio

inductive SourcePreviewMode where
  | text
  | pdf
  | download
  deriving DecidableEq, Repr

def unknownMimeType : Str := "application/octet-stream".toList

def markdownMimeTypes : List Str :=
  ["text/markdown".toList, "text/x-markdown".toList, "text/plain".toList]

def docxMimeType : Str :=
  "application/vnd.openxmlformats-officedocument.wordprocessingml.document".toList

def mimeTypesBySuffix : List (Str × List Str) :=
  [(".md".toList, markdownMimeTypes), (".markdown".toList, markdownMimeTypes),
    (".txt".toList, ["text/plain".toList]), (".htm".toList, ["text/html".toList]),
    (".html".toList, ["text/html".toList]), (".pdf".toList, ["application/pdf".toList]),
    (".docx".toList, [docxMimeType])]

def textMediaType : Str := "text/plain; charset=utf-8".toList

def markdownMediaType : Str := "text/markdown; charset=utf-8".toList

def servedFileBySuffix : List (Str × Str × SourcePreviewMode) :=
  [(".md".toList, markdownMediaType, .text), (".markdown".toList, markdownMediaType, .text),
    (".txt".toList, textMediaType, .text), (".htm".toList, textMediaType, .download),
    (".html".toList, textMediaType, .download), (".pdf".toList, "application/pdf".toList, .pdf),
    (".docx".toList, docxMimeType, .download)]

def servedFileFor (suffix : Str) : Str × SourcePreviewMode :=
  (servedFileBySuffix.lookup suffix).getD (unknownMimeType, .download)

def supportedSuffixes : List Str := parserRegistry.map Prod.fst

def runtimeError (message : Str) : Exn where
  errorClass := .other
  message

def checkMapped {β : Type} (tableName : Str) (table : List (Str × β)) : Except Exn Unit :=
  let unmapped := supportedSuffixes.filter fun suffix => suffix ∉ table.map Prod.fst
  if unmapped = [] then .ok ()
  else .error (runtimeError ("Parsable suffixes missing from ".toList ++ tableName ++ ": ".toList ++
    Str.join ", ".toList unmapped ++ ". Add them to ".toList ++ tableName ++ ".".toList))

def assertEveryParsedSuffixIsMapped : Except Exn Unit := do
  checkMapped "_MIME_TYPES_BY_SUFFIX".toList mimeTypesBySuffix
  checkMapped "_SERVED_FILE_BY_SUFFIX".toList servedFileBySuffix

def unprocessable (detail : Str) : HttpException where
  statusCode := 422
  detail

-- reads holds what file.read returns, chunk by chunk.
structure UploadFile where
  filename : Option Str
  contentType : Option Str
  reads : List Bytes
  deriving DecidableEq, Repr

def pyReprOption (text : Option Str) : Str := (text.map pyRepr).getD "None".toList

def filenameRequired : HttpException := unprocessable "An uploaded filename is required.".toList

def unsupportedUpload (suffix : Str) : HttpException :=
  unprocessable ("Unsupported file type ".toList ++
    (if suffix = [] then "(no extension)".toList else suffix) ++ ". Supported formats: ".toList ++
    Str.join ", ".toList supportedSuffixes ++ ".".toList)

def wrongContentType (contentType : Option Str) (suffix : Str) (allowed : List Str) :
    HttpException :=
  unprocessable ("Content type ".toList ++ pyReprOption contentType ++ " is not valid for ".toList ++
    suffix ++ ". Expected one of: ".toList ++
    Str.join ", ".toList (allowed.insertionSort (· ≤ ·)) ++ ".".toList)

def fileTooLarge (limit : Nat) : HttpException :=
  unprocessable ("File exceeds the ".toList ++ (toString limit).toList ++
    "-byte upload limit.".toList)

def uploadSuffix (libs : ParserLibraries) (filename : Str) : Str :=
  libs.casefold (splitSuffix filename).2

def validateUploadMetadata (libs : ParserLibraries) (file : UploadFile) :
    Except HttpException Str :=
  match file.filename.filter (· ≠ []) with
  | none => .error filenameRequired
  | some path =>
      let filename := purePathName path
      let suffix := uploadSuffix libs filename
      if suffix ∉ supportedSuffixes then .error (unsupportedUpload suffix)
      else
        match mimeTypesBySuffix.lookup suffix with
        | none => .error internalServerError
        | some allowed =>
            if file.contentType ∉ (unknownMimeType :: allowed).map some then
              .error (wrongContentType file.contentType suffix allowed)
            else .ok filename

def readUpTo (limit : Nat) (data : Bytes) : List Bytes → Except HttpException Bytes
  | [] => .ok data
  | chunk :: reads =>
      if chunk = [] then .ok data
      else if limit < (data ++ chunk).length then .error (fileTooLarge limit)
      else readUpTo limit (data ++ chunk) reads

def readLimitedUpload (limit : Nat) (file : UploadFile) : Except HttpException Bytes :=
  readUpTo limit [] file.reads

def acceptUpload (libs : ParserLibraries) (limit : Nat) (file : UploadFile) :
    Except HttpException (Str × Bytes) := do
  let filename ← validateUploadMetadata libs file
  let fileBytes ← readLimitedUpload limit file
  return (filename, fileBytes)

def UploadFile.body (file : UploadFile) : Bytes := (file.reads.takeWhile (· ≠ [])).flatten

section Stream

theorem readUpTo_eq (limit : Nat) (reads : List Bytes) {data : Bytes} (hdata : data.length ≤ limit) :
    let body := data ++ (reads.takeWhile (· ≠ [])).flatten
    readUpTo limit data reads =
      if body.length ≤ limit then .ok body else .error (fileTooLarge limit) := by
  induction reads generalizing data with
  | nil =>
    dsimp only
    rw [readUpTo, List.takeWhile_nil, List.flatten_nil, List.append_nil, if_pos hdata]
  | cons chunk reads ih =>
    dsimp only at ih ⊢
    rw [readUpTo]
    by_cases hchunk : chunk = []
    · rw [if_pos hchunk, List.takeWhile_cons_of_neg (by simp [hchunk]), List.flatten_nil,
        List.append_nil, if_pos hdata]
    · rw [if_neg hchunk, List.takeWhile_cons_of_pos (by simp [hchunk]), List.flatten_cons,
        ← List.append_assoc]
      by_cases hlong : limit < (data ++ chunk).length
      · have htotal : ¬ (data ++ chunk ++ (reads.takeWhile (· ≠ [])).flatten).length ≤ limit := by
          rw [List.length_append]
          omega
        rw [if_pos hlong, if_neg htotal]
      · rw [if_neg hlong, ih (Nat.le_of_not_lt hlong)]

theorem readLimitedUpload_eq (limit : Nat) (file : UploadFile) :
    readLimitedUpload limit file =
      if file.body.length ≤ limit then .ok file.body else .error (fileTooLarge limit) :=
  readUpTo_eq limit file.reads (Nat.zero_le limit)

end Stream

theorem assertEveryParsedSuffixIsMapped_ok : assertEveryParsedSuffixIsMapped = .ok () := by
  decide +kernel

-- What str.casefold leaves alone.
structure ParserLibraries.FoldsSuffixes (libs : ParserLibraries) : Prop where
  nil : libs.casefold [] = []
  supported : ∀ suffix ∈ supportedSuffixes, libs.casefold suffix = suffix

def HasMappedSuffix (libs : ParserLibraries) (filename : Str) : Prop :=
  uploadSuffix libs (purePathName filename) ∈ supportedSuffixes

structure ProperName (name : Str) : Prop where
  named : name ≠ []
  simple : '/' ∉ name
  notHere : name ≠ ['.']
  notParent : name ≠ ['.', '.']

section Names

theorem purePathParts_of_mem {path part : Str} (h : part ∈ purePathParts path) :
    part ≠ [] ∧ '/' ∉ part ∧ part ≠ ['.'] := by
  obtain ⟨hmem, hpart⟩ := List.mem_filter.mp h
  obtain ⟨hne, hdot⟩ := of_decide_eq_true hpart
  rw [Str.split_singleton] at hmem
  exact ⟨hne, Lines.not_mem_of_mem_splitOn hmem, hdot⟩

theorem purePathName_eq_nil_or_mem (path : Str) :
    purePathName path = [] ∨ purePathName path ∈ purePathParts path := by
  rw [purePathName]
  cases hlast : (purePathParts path).getLast? with
  | none => exact Or.inl rfl
  | some part => exact Or.inr (List.mem_of_getLast? hlast)

theorem purePathParts_name {name : Str} (hne : name ≠ []) (hsimple : '/' ∉ name)
    (hdot : name ≠ ['.']) : purePathParts name = [name] := by
  rw [purePathParts, Str.split_singleton, List.splitOn_eq_singleton hsimple]
  simp [hne, hdot]

theorem purePathName_name (path : Str) : purePathName (purePathName path) = purePathName path := by
  rcases purePathName_eq_nil_or_mem path with hnil | hmem
  · rw [hnil]
    rfl
  · obtain ⟨hne, hsimple, hdot⟩ := purePathParts_of_mem hmem
    conv_lhs => rw [purePathName, purePathParts_name hne hsimple hdot]
    rfl

variable {libs : ParserLibraries} (hfolds : libs.FoldsSuffixes)

include hfolds

theorem ProperName.of_mapped {filename : Str} (h : HasMappedSuffix libs filename) :
    ProperName (purePathName filename) := by
  -- Neither an empty name nor one of dots alone has a suffix.
  have hsuffix : (splitSuffix (purePathName filename)).2 ≠ [] := by
    intro hnil
    rw [HasMappedSuffix, uploadSuffix, hnil, hfolds.nil] at h
    exact absurd h (by decide)
  rcases purePathName_eq_nil_or_mem filename with hnil | hmem
  · rw [hnil] at hsuffix
    exact absurd rfl hsuffix
  · obtain ⟨hne, hsimple, hdot⟩ := purePathParts_of_mem hmem
    refine ⟨hne, hsimple, hdot, fun hparent => hsuffix ?_⟩
    rw [hparent]
    rfl

theorem getParser_of_mapped {name : Str} (h : uploadSuffix libs name ∈ supportedSuffixes)
    (directory : Str) (content : Bytes) :
    ∃ parserClass, getParser libs { directory, name, content } = .ok parserClass := by
  obtain ⟨suffix, hsuffix⟩ : ∃ suffix, uploadSuffix libs name = suffix := ⟨_, rfl⟩
  rw [hsuffix] at h
  have hplain : ∀ suffix ∈ supportedSuffixes, suffix ≠ [] ∧ Str.strip suffix = suffix ∧
      suffix.head? = some '.' ∧ (parserRegistry.lookup suffix).isSome := by decide
  obtain ⟨hne, hstrip, hdot, hknown⟩ := hplain suffix h
  obtain ⟨parserClass, hparser⟩ := Option.isSome_iff_exists.mp hknown
  have hnormal := BaseParser.normalizeSuffix_of_normal hstrip hdot (hfolds.supported suffix h)
  refine ⟨parserClass, ?_⟩
  have hfound : parserForSuffix libs suffix = .ok (some parserClass) := by
    rw [parserForSuffix, if_neg hne, hnormal, ← hparser]
    rfl
  have hown : libs.casefold (StagedFile.suffix { directory, name, content }) = suffix := hsuffix
  simp only [getParser, hown, hfound]
  rfl

end Names

section Gate

variable {libs : ParserLibraries} {limit : Nat} {file : UploadFile} {filename : Str}
  {fileBytes : Bytes}

structure UploadFile.Admissible (libs : ParserLibraries) (file : UploadFile) (filename : Str) :
    Prop where
  named : ∃ path, file.filename = some path ∧ path ≠ [] ∧ purePathName path = filename
  mapped : uploadSuffix libs filename ∈ supportedSuffixes
  typed : ∃ allowed, mimeTypesBySuffix.lookup (uploadSuffix libs filename) = some allowed ∧
    (file.contentType = some unknownMimeType ∨ ∃ mime ∈ allowed, file.contentType = some mime)

theorem mem_allowed_iff {contentType : Option Str} {allowed : List Str} :
    contentType ∈ (unknownMimeType :: allowed).map some ↔
      contentType = some unknownMimeType ∨ ∃ mime ∈ allowed, contentType = some mime := by
  simp [eq_comm]

theorem validateUploadMetadata_ok_iff :
    validateUploadMetadata libs file = .ok filename ↔ file.Admissible libs filename := by
  rw [validateUploadMetadata]
  constructor
  · intro h
    split at h
    · cases h
    · next path hpath =>
      obtain ⟨hfilename, hne⟩ := Option.filter_eq_some_iff.mp hpath
      dsimp only at h
      split at h
      · cases h
      · next hsupported =>
        split at h
        · cases h
        · next allowed hallowed =>
          split at h
          · cases h
          · next htype =>
            cases h
            refine ⟨⟨path, hfilename, of_decide_eq_true hne, rfl⟩, not_not.mp hsupported, allowed,
              hallowed, mem_allowed_iff.mp (not_not.mp htype)⟩
  · rintro ⟨⟨path, hfilename, hne, rfl⟩, hmapped, allowed, hallowed, htype⟩
    have hpath : file.filename.filter (· ≠ []) = some path :=
      Option.filter_eq_some_iff.mpr ⟨hfilename, decide_eq_true hne⟩
    have htype' := not_not.mpr (mem_allowed_iff.mpr htype)
    rw [hpath]
    dsimp only
    rw [if_neg (not_not.mpr hmapped), hallowed]
    exact if_neg htype'

theorem acceptUpload_ok_iff :
    acceptUpload libs limit file = .ok (filename, fileBytes) ↔
      file.Admissible libs filename ∧ file.body = fileBytes ∧ fileBytes.length ≤ limit := by
  rw [← validateUploadMetadata_ok_iff, acceptUpload]
  constructor
  · intro h
    obtain ⟨name, hname, h⟩ := Except.bind_eq_ok h
    obtain ⟨content, hcontent, h⟩ := Except.bind_eq_ok h
    cases h
    rw [readLimitedUpload_eq] at hcontent
    split at hcontent
    case isTrue hlength =>
      cases hcontent
      exact ⟨hname, rfl, hlength⟩
    case isFalse => cases hcontent
  · rintro ⟨hname, rfl, hlength⟩
    rw [hname, readLimitedUpload_eq, if_pos hlength]
    rfl

end Gate

end YCStudio
