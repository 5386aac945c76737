import Mathlib.Algebra.GroupWithZero.Nat
import Mathlib.Data.Char
import Mathlib.Data.List.Lex
import YCStudio.Services.Ingest

namespace YCStudio

def skipNewline : Str → Option Str
  | '\r' :: '\n' :: rest => some rest
  | '\n' :: rest => some rest
  | _ => none

def skipDashes : Str → Option Str
  | '-' :: '-' :: '-' :: rest => some rest
  | _ => none

def skipBlankLine : Str → Str
  | '\r' :: '\n' :: rest => rest
  | '\r' :: rest => rest
  | '\n' :: rest => rest
  | rest => rest

def skipClosing (text : Str) : Option Str := do
  let rest ← skipNewline text
  let rest ← skipDashes rest
  let rest ← skipNewline rest
  return skipBlankLine rest

-- The lazy quantifier of the pattern stops at the first position where the closing line matches.
def skipHeader (text : Str) : Option Str :=
  match skipClosing text with
  | some rest => some rest
  | none =>
      match text with
      | [] => none
      | _ :: text => skipHeader text

def matchFrontmatter (text : Str) : Option Str := do
  let rest ← skipDashes text
  let rest ← skipNewline rest
  skipHeader rest

def stripFrontmatter (text : Str) : Str := (matchFrontmatter text).getD text

def encodeUtf8 (text : Str) : Bytes := text.flatMap String.utf8EncodeChar

-- text is none when the bytes are not UTF-8.
structure SeedEntry where
  relativePath : Str
  isFile : Bool
  text : Option Str
  deriving DecidableEq, Repr

abbrev SeedTree := Str → Option (Table SeedEntry.relativePath)

structure SeedLibrary where
  directory : Str
  kind : CollectionKind
  collectionName : Str
  deriving DecidableEq, Repr

structure SeedFile where
  relativePath : Str
  content : Bytes
  contentHash : Str
  deriving DecidableEq, Repr

structure SeedSummary where
  createdCollections : Nat
  createdSources : Nat
  updatedSources : Nat
  unchangedSources : Nat
  deriving DecidableEq, Repr

def rulesLibrary : SeedLibrary where
  directory := "rules".toList
  kind := .rule
  collectionName := "public-rules".toList

def templatesLibrary : SeedLibrary where
  directory := "templates".toList
  kind := .template
  collectionName := "public-templates".toList

def publicLibraries : List SeedLibrary := [rulesLibrary, templatesLibrary]

def seedConfiguration (message : Str) : Exn where
  errorClass := .seedConfigurationError
  message

def pathOrder (a b : SeedEntry) : Prop :=
  a.relativePath.split ['/'] ≤ b.relativePath.split ['/']

instance : DecidableRel pathOrder := fun a b =>
  inferInstanceAs (Decidable (a.relativePath.split ['/'] ≤ b.relativePath.split ['/']))

def readSeedFile (rt : Runtime) (entry : SeedEntry) : Except Exn SeedFile :=
  match entry.text with
  | none => .error { errorClass := .other, message := "invalid start byte".toList }
  | some text =>
      let content := encodeUtf8 (stripFrontmatter text)
      .ok {
        relativePath := entry.relativePath
        content
        contentHash := computeContentHash rt content }

-- seen holds the files already read, newest first.
def readSeedFiles (rt : Runtime) (library : SeedLibrary) :
    List SeedFile → List SeedEntry → Except Exn (List SeedFile)
  | seen, [] => .ok seen.reverse
  | seen, entry :: entries =>
      if !entry.isFile then readSeedFiles rt library seen entries
      else do
        let file ← readSeedFile rt entry
        match seen.find? (·.contentHash = file.contentHash) with
        | some duplicate =>
            .error (seedConfiguration ("Seed files ".toList ++ pyRepr duplicate.relativePath ++
              " and ".toList ++ pyRepr file.relativePath ++ " in ".toList ++
              pyRepr library.directory ++ (" have identical content; source hashes must be unique"
              ++ " within a collection.").toList))
        | none => readSeedFiles rt library (file :: seen) entries

def readLibraryFiles (rt : Runtime) (tree : SeedTree) (library : SeedLibrary) :
    Except Exn (List SeedFile) :=
  match tree library.directory with
  | none =>
      .error (seedConfiguration
        ("Required public seed directory is missing: ".toList ++ library.directory))
  | some entries => readSeedFiles rt library [] (entries.rows.insertionSort pathOrder)

def getOrCreatePublicCollection (rt : Runtime) (library : SeedLibrary) :
    Program (Collection × Bool) := do
  match ← select (.publicCollection library.kind library.collectionName) with
  | some collection =>
      if collection.scope ≠ .public then
        throw (seedConfiguration ("Collection ".toList ++ pyRepr library.collectionName ++
          " must use public scope.".toList))
      else return (collection, false)
  | none =>
      let id ← newId
      let collection : Collection := {
        id
        userId := none
        kind := library.kind
        scope := .public
        name := library.collectionName }
      flush (rt.flushFault library.directory .collection) [.insertCollection collection]
      return (collection, true)

def sourcesByFilename (library : SeedLibrary) :
    List (Str × Source) → List Source → Except Exn (List (Str × Source))
  | dict, [] => .ok dict
  | dict, source :: sources =>
      if dict.any (·.1 = source.filename) then
        .error (seedConfiguration ("Public collection ".toList ++ pyRepr library.collectionName ++
          " has multiple sources named ".toList ++ pyRepr source.filename ++
          "; resolve the duplicate before seeding.".toList))
      else sourcesByFilename library (dict ++ [(source.filename, source)]) sources

def ensureContentHashIsAvailable (collectionId : Uuid) (contentHash : Str)
    (excludingSourceId : Option Uuid) : Program Unit := do
  match ← select (.filenameByHash collectionId contentHash excludingSourceId) with
  | none => return ()
  | some existing =>
      throw (seedConfiguration ("Seed content duplicates existing source ".toList ++
        pyRepr existing ++ " in this public collection.".toList))

inductive SeedOutcome where
  | created
  | updated
  | unchanged
  deriving DecidableEq, Repr

def seedMetadata (file : SeedFile) : List (Str × Str) :=
  [("seed_path".toList, file.relativePath)]

def isUpToDate (source : Source) (file : SeedFile) : Bool :=
  source.contentHash = file.contentHash ∧ source.ingestStatus = .completed ∧
    source.deletedAt = none

def Source.reseed (source : Source) (contentHash : Str) : Source :=
  { source with
    contentHash
    deletedAt := none
    ingestStatus := .pending
    errorMessage := none }

def seedFile (rt : Runtime) (collection : Collection) (source : Option Source)
    (file : SeedFile) : Program SeedOutcome := do
  match source with
  | none =>
      ensureContentHashIsAvailable collection.id file.contentHash none
      let result ← ingestDocument rt collection.id file.relativePath file.content none
        (some (seedMetadata file)) none
      if result.skipped then
        throw (seedConfiguration ("Seed ".toList ++ pyRepr file.relativePath ++
          " unexpectedly matched an existing source.".toList))
      else return .created
  | some source =>
      if isUpToDate source file then return .unchanged
      else
        ensureContentHashIsAvailable collection.id file.contentHash (some source.id)
        let assigned := source.reseed file.contentHash
        flush (rt.flushFault file.relativePath .reset) [.updateSource source assigned]
        execute (.deleteDocuments source.id)
        let _ ← ingestPendingSource rt assigned collection file.content (seedMetadata file)
        return .updated

def seedFiles (rt : Runtime) (collection : Collection) (dict : List (Str × Source)) :
    List SeedFile → Program (List SeedOutcome)
  | [] => return []
  | file :: files => do
      let outcome ← seedFile rt collection (dict.lookup file.relativePath) file
      let outcomes ← seedFiles rt collection dict files
      return outcome :: outcomes

def seedLibrary (rt : Runtime) (tree : SeedTree) (library : SeedLibrary) :
    Program (Bool × List SeedOutcome) := do
  let files ← attempt (readLibraryFiles rt tree library)
  let (collection, created) ← getOrCreatePublicCollection rt library
  let sources ← select (.sources collection.id)
  let dict ← attempt (sourcesByFilename library [] sources)
  let outcomes ← seedFiles rt collection dict files
  return (created, outcomes)

def seedLibraries (rt : Runtime) (tree : SeedTree) :
    List SeedLibrary → Program (List (Bool × List SeedOutcome))
  | [] => return []
  | library :: libraries => do
      let result ← seedLibrary rt tree library
      let results ← seedLibraries rt tree libraries
      return result :: results

def summarize (results : List (Bool × List SeedOutcome)) : SeedSummary :=
  let outcomes := (results.map Prod.snd).flatten
  { createdCollections := (results.filter Prod.fst).length
    createdSources := outcomes.count .created
    updatedSources := outcomes.count .updated
    unchangedSources := outcomes.count .unchanged }

def seedPublicLibraries (rt : Runtime) (tree : SeedTree) : Program SeedSummary := do
  let results ← seedLibraries rt tree publicLibraries
  return summarize results

def runSeedCommand (rt : Runtime) (tree : SeedTree) : Program SeedSummary := do
  let summary ← seedPublicLibraries rt tree
  commit
  return summary

end YCStudio
