import YCStudio.Rag.Chunker
import YCStudio.Services.Printable
import YCStudio.Store.Session

namespace YCStudio

structure Settings where
  embeddingBatchSize : Nat
  ingestBatchSize : Nat
  chunkSize : Int
  chunkOverlap : Int
  ingestBatchSize_pos : 0 < ingestBatchSize

structure ParseResult where
  text : Str
  title : Str
  «meta» : List (Str × MetaValue)
  parserVersion : Str
  deriving DecidableEq, Repr

structure LocalEmbedding where
  maxInputTokens : Option Int
  countTokens : Str → Nat
  embedModel : Str
  embedVersion : Str

inductive FlushPoint where
  | collection
  | batch
  | commit
  | upload (index : Nat)
  | source
  | reset
  | parsing
  | document
  | chunking
  | embedding
  | chunks (offset : Nat)
  | completed
  | removal
  deriving DecidableEq, Repr

-- What one operation meets outside the repository: hashlib, parsers, encoder, disk, server.
structure Runtime where
  settings : Settings
  sha256 : Bytes → Str
  parseFile : Str → Bytes → Except Exn ParseResult
  clean : Str → Except Exn Str
  localEmbedding : Except Exn LocalEmbedding
  encodeTexts : List Str → Nat → Except Exn (List Embedding)
  flushFault : Str → FlushPoint → Option Exn
  saveFault : Nat → Option SaveFault
  readFault : Option Exn

def Exn.valueError (message : Str) : Exn where
  errorClass := .valueError
  message

def ChunkerError.exn : ChunkerError → Exn
  | .valueError message => Exn.valueError message
  | .assertionError message => { errorClass := .assertionError, message }

def hexDigit (n : Nat) : Char := Char.ofNat (if n < 10 then 48 + n else 87 + n)

def hexDigits : Nat → Nat → Str
  | 0, _ => []
  | width + 1, n => hexDigits width (n / 16) ++ [hexDigit (n % 16)]

def pyEscape (quote c : Char) : Str :=
  if c = '\\' ∨ c = quote then ['\\', c]
  else if c = '\n' then "\\n".toList
  else if c = '\r' then "\\r".toList
  else if c = '\t' then "\\t".toList
  else if isPrintable c then [c]
  else if c.toNat < 256 then "\\x".toList ++ hexDigits 2 c.toNat
  else if c.toNat < 65536 then "\\u".toList ++ hexDigits 4 c.toNat
  else "\\U".toList ++ hexDigits 8 c.toNat

def pyRepr (s : Str) : Str :=
  let quote := if '\'' ∈ s ∧ '"' ∉ s then '"' else '\''
  quote :: s.flatMap (pyEscape quote) ++ [quote]

example : pyRepr ['é', '\x7f', '\u200b'] = "'é\\x7f\\u200b'".toList := by decide +kernel

def purePathParts (path : Str) : List Str :=
  (path.split ['/']).filter fun part => part ≠ [] ∧ part ≠ ['.']

def purePathName (path : Str) : Str := (purePathParts path).getLast?.getD []

-- The digests of "a" and "b"; every other content stands for its own digest in hexadecimal.
def digest : Bytes → Str
  | [97] => "ca978112ca1bbdcafac231b39a23dc4da786eff8147c4e72b9807785afee48bb".toList
  | [98] => "3e23e8160039594a33894f6564e1b1348bbd7a0088d42c4acb73eeaed59c009d".toList
  | content => content.flatMap fun byte => [hexDigit (byte.toNat / 16), hexDigit (byte.toNat % 16)]

def decodeAscii (content : Bytes) : Str := content.map fun byte => Char.ofNat byte.toNat

def Runtime.reliable : Runtime where
  settings :=
    { embeddingBatchSize := 32
      ingestBatchSize := 200
      chunkSize := 512
      chunkOverlap := 51
      ingestBatchSize_pos := by decide }
  sha256 := digest
  parseFile filename content :=
    .ok {
      text := decodeAscii content
      title := filename.takeWhile (· ≠ '.')
      «meta» := [("encoding".toList, .text "ascii".toList)]
      parserVersion := "txt-v1".toList }
  clean text := .ok text.strip
  localEmbedding :=
    .ok {
      maxInputTokens := some 512
      countTokens := fun text => text.length + 2
      embedModel := "BAAI/bge-base-zh-v1.5".toList
      embedVersion := "1".toList }
  encodeTexts texts _ := .ok (texts.map fun _ => [1])
  flushFault _ _ := none
  saveFault _ := none
  readFault := none

def dictSet {β : Type} (dict : List (Str × β)) (entry : Str × β) : List (Str × β) :=
  if dict.any (·.1 = entry.1) then
    dict.map fun old => if old.1 = entry.1 then entry else old
  else dict ++ [entry]

def dictMerge {β : Type} (dict update : List (Str × β)) : List (Str × β) :=
  update.foldl dictSet dict

end YCStudio
