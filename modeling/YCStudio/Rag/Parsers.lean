import YCStudio.Rag.Cleaner
import YCStudio.Services.Runtime

namespace YCStudio

structure Detection where
  encoding : Option Str
  confidence : MetaValue

inductive DocxBlock where
  | paragraph (text : Str)
  | table (rows : List (List Str))

-- What python-docx reads from a file.
structure DocxDocument where
  innerContent : List DocxBlock
  paragraphs : List Str
  tableCount : Nat

structure DoclingDocument where
  text : Str
  markdown : Str
  pageCount : Nat
  tableCount : Nat

structure ParserLibraries where
  nfkc : Str → Str
  casefold : Str → Str
  detect : Bytes → Detection
  -- None where bytes.decode raises LookupError or UnicodeDecodeError.
  decode : Bytes → Str → Option Str
  markdownify : Str → Except Exn Str
  docx : Bytes → Except Exn DocxDocument
  docling : Bytes → Except Exn DoclingDocument
  stagingDir : Str
  stageFault : Str → Option Exn

def pathExtension (name : Str) : Str := name.rtakeWhile (· ≠ '.')

-- The part before the last dot and the part from it on, where both hold a character.
def splitSuffix (name : Str) : Str × Str :=
  let extension := pathExtension name
  let stem := name.take (name.length - extension.length - 1)
  if extension.length = name.length ∨ extension = [] ∨ stem = [] then (name, [])
  else (stem, '.' :: extension)

structure StagedFile where
  directory : Str
  name : Str
  content : Bytes

def StagedFile.path (file : StagedFile) : Str := file.directory ++ '/' :: file.name

def StagedFile.stem (file : StagedFile) : Str := (splitSuffix file.name).1

def StagedFile.suffix (file : StagedFile) : Str := (splitSuffix file.name).2

def escapeCell (value : Str) : Str :=
  (((value.replace ['\\'] ['\\', '\\']).replace ['|'] ['\\', '|']).replace ['\n']
    "<br>".toList).strip

def tableLine (cells : List Str) : Str :=
  "| ".toList ++ Str.join " | ".toList cells ++ " |".toList

def rowsToMarkdown (rows : List (List Str)) : Str :=
  let normalizedRows := rows.map fun row => row.map escapeCell
  let width := (normalizedRows.map List.length).max?.getD 0
  if width = 0 then []
  else
    let paddedRows := normalizedRows.map fun row =>
      row ++ List.replicate (width - row.length) []
    Str.join ['\n']
      (paddedRows.head?.toList.map tableLine ++
        tableLine (List.replicate width "---".toList) :: paddedRows.tail.map tableLine)

def documentBlocks (document : DocxDocument) : List Str :=
  (document.innerContent.map fun block =>
    match block with
    | .paragraph text => text.strip
    | .table rows => rowsToMarkdown rows).filter (· ≠ [])

def titleFromMarkdown (text fallback : Str) : Str :=
  ((text.splitLines.filter fun line =>
      "# ".toList.isPrefixOf line ∧ Str.strip (line.drop 2) ≠ []).head?.map
    fun line => Str.strip (line.drop 2)).getD fallback

inductive ParserClass where
  | markdown
  | html
  | text
  | word
  | pdf
  deriving DecidableEq, Repr

def parserRegistry : List (Str × ParserClass) :=
  [(".docx".toList, .word), (".htm".toList, .html), (".html".toList, .html),
    (".markdown".toList, .markdown), (".md".toList, .markdown), (".pdf".toList, .pdf),
    (".txt".toList, .text)]

def unsupportedFileType (suffix : Str) : Exn :=
  Exn.valueError ("Unsupported file type: ".toList ++
    (if suffix = [] then "(no extension)".toList else suffix) ++ ". Supported formats: ".toList ++
    Str.join ", ".toList (parserRegistry.map Prod.fst))

section Parse

variable (libs : ParserLibraries)

def decodeTextBytes (data : Bytes) : Except Exn (Str × Str × MetaValue) :=
  if data = [] then .ok ([], "utf-8".toList, .number 1)
  else
    let detection := libs.detect data
    let encoding := (detection.encoding.filter (· ≠ [])).getD "utf-8".toList
    match libs.decode data encoding with
    | some text => .ok (text, encoding, detection.confidence)
    | none => .error (Exn.valueError
        ("Unable to decode text using detected encoding ".toList ++ pyRepr encoding))

def normalizeSuffix (suffix : Str) : Except Exn Str :=
  let normalized := libs.casefold suffix.strip
  if normalized = [] then .error (Exn.valueError "Parser suffix cannot be empty".toList)
  else .ok (if normalized.head? = some '.' then normalized else '.' :: normalized)

def parserForSuffix (suffix : Str) : Except Exn (Option ParserClass) := do
  if suffix = [] then return none
  else return parserRegistry.lookup (← normalizeSuffix libs suffix)

def getParser (file : StagedFile) : Except Exn ParserClass := do
  let suffix := libs.casefold file.suffix
  match ← parserForSuffix libs suffix with
  | none => throw (unsupportedFileType suffix)
  | some parserClass => return parserClass

def parseMarkdown (file : StagedFile) : Except Exn ParseResult := do
  let (text, encoding, confidence) ← decodeTextBytes libs file.content
  return {
    text
    title := titleFromMarkdown text file.stem
    «meta» :=
      [("encoding".toList, .text encoding), ("encoding_confidence".toList, confidence),
        ("source_path".toList, .text file.path)]
    parserVersion := "markdown-v1".toList }

def parseHtml (file : StagedFile) : Except Exn ParseResult := do
  let (html, encoding, confidence) ← decodeTextBytes libs file.content
  let text := (← libs.markdownify html).strip
  return {
    text
    title := titleFromMarkdown text file.stem
    «meta» :=
      [("encoding".toList, .text encoding), ("encoding_confidence".toList, confidence),
        ("source_path".toList, .text file.path), ("source_format".toList, .text "html".toList)]
    parserVersion := "html-markdownify-v1".toList }

def parseText (file : StagedFile) : Except Exn ParseResult := do
  let (text, encoding, confidence) ← decodeTextBytes libs file.content
  return {
    text
    title := file.stem
    «meta» :=
      [("encoding".toList, .text encoding), ("encoding_confidence".toList, confidence),
        ("source_path".toList, .text file.path)]
    parserVersion := "txt-v1".toList }

def parseWord (file : StagedFile) : Except Exn ParseResult := do
  let document ← libs.docx file.content
  return {
    text := Str.join ['\n', '\n'] (documentBlocks document)
    title := ((document.paragraphs.map Str.strip).filter (· ≠ [])).head?.getD file.stem
    «meta» :=
      [("source_path".toList, .text file.path), ("table_count".toList, .number document.tableCount)]
    parserVersion := "docx-python-docx-v1".toList }

def parsePdf (file : StagedFile) : Except Exn ParseResult := do
  let document ← libs.docling file.content
  if document.text.strip = [] then
    throw (Exn.valueError ("PDF has no extractable text layer: ".toList ++ file.name ++
      ". OCR is not enabled.".toList))
  else return {
    text := document.markdown.strip
    title := file.stem
    «meta» :=
      [("source_path".toList, .text file.path), ("page_count".toList, .number document.pageCount),
        ("table_count".toList, .number document.tableCount), ("ocr_enabled".toList, .flag false)]
    parserVersion := "pdf-docling-v1".toList }

def ParserClass.parse : ParserClass → StagedFile → Except Exn ParseResult
  | markdown => parseMarkdown libs
  | html => parseHtml libs
  | text => parseText libs
  | word => parseWord libs
  | pdf => parsePdf libs

def parseFile (file : StagedFile) : Except Exn ParseResult := do
  let parserClass ← getParser libs file
  parserClass.parse libs file

def parseUpload (filename : Str) (fileBytes : Bytes) : Except Exn ParseResult :=
  match libs.stageFault (purePathName filename) with
  | some e => .error e
  | none => parseFile libs {
      directory := libs.stagingDir
      name := purePathName filename
      content := fileBytes }

def Runtime.parsing (rt : Runtime) : Runtime :=
  { rt with
    parseFile := parseUpload libs
    clean := fun text => .ok (TextCleaner.clean libs.nfkc text) }

end Parse

def asciiLibraries : ParserLibraries where
  nfkc := id
  casefold := fun s => s.map Char.toLower
  detect := fun _ => { encoding := some "ascii".toList, confidence := .number 1 }
  decode := fun content _ => some (decodeAscii content)
  markdownify := .ok
  docx := fun _ => .ok { innerContent := [], paragraphs := [], tableCount := 0 }
  docling := fun _ => .ok { text := [], markdown := [], pageCount := 0, tableCount := 0 }
  stagingDir := "/tmp".toList
  stageFault := fun _ => none

example : splitSuffix "brief.v2.md".toList = ("brief.v2".toList, ".md".toList) := by decide +kernel

example : splitSuffix ".md".toList = (".md".toList, []) := by decide +kernel

end YCStudio
