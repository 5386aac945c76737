import YCStudio.Library.Bisect
import YCStudio.Rag.Text

namespace YCStudio

inductive ChunkerError where
  | valueError (message : Str)
  | assertionError (message : Str)
  deriving DecidableEq, Repr

structure ChunkData where
  ordinal : Nat
  text : Str
  tokenCount : Nat
  deriving DecidableEq, Repr

structure TextChunker where
  countTokens : Str → Nat
  maxTokens : Nat
  overlapTokens : Nat
  separators : List Str
  maxTokens_pos : 0 < maxTokens
  overlap_lt : overlapTokens < maxTokens
  separators_ne_nil : separators ≠ []
  separator_ne_nil : ∀ separator ∈ separators, separator ≠ []

namespace TextChunker

def defaultSeparators : List Str :=
  ["\n## ".toList, "。".toList, "！".toList, "？".toList, "? ".toList, "! ".toList, ". ".toList,
    "\n\n".toList, "\n".toList, " ".toList]

def init (countTokens : Str → Nat) (maxTokens overlapTokens : Int)
    (separators : List Str := defaultSeparators) : Except ChunkerError TextChunker :=
  if hmax : maxTokens ≤ 0 then .error (.valueError "max_tokens must be positive".toList)
  else if hover : overlapTokens < 0 ∨ maxTokens ≤ overlapTokens then
    .error (.valueError
      "overlap_tokens must be non-negative and smaller than max_tokens".toList)
  else if hsep : separators = [] ∨ ∃ separator ∈ separators, separator = [] then
    .error (.valueError "separators must contain non-empty strings".toList)
  else
    .ok {
      countTokens
      maxTokens := maxTokens.toNat
      overlapTokens := overlapTokens.toNat
      separators
      maxTokens_pos := by omega
      overlap_lt := by omega
      separators_ne_nil := fun h => hsep (Or.inl h)
      separator_ne_nil := fun s hs h => hsep (Or.inr ⟨s, hs, h⟩) }

variable (chunker : TextChunker)

def largestPrefixWithinLimit (text : Str) (tokenLimit : Nat) : Nat :=
  Bisect.lastAccepted (fun n => chunker.countTokens (text.take n) ≤ tokenLimit) 0 text.length

def tokenLimitedTail (text : Str) (tokenLimit : Nat) : Str :=
  if tokenLimit = 0 then []
  else
    Str.strip (text.drop
      (Bisect.firstAccepted (fun n => chunker.countTokens (text.drop n) ≤ tokenLimit) 0
        text.length))

def trailingSeparators : List Str :=
  ["。".toList, "！".toList, "？".toList, "? ".toList, "! ".toList, ". ".toList]

def splitPreservingSeparator (text separator : Str) : List Str :=
  let parts := text.split separator
  if parts.length = 1 then [text]
  else if separator ∈ trailingSeparators then
    parts.dropLast.map (· ++ separator) ++ parts.getLast?.toList
  else parts.head?.toList ++ parts.tail.map (separator ++ ·)

def join (left right : Str) : Str :=
  if left = [] then Str.strip right else Str.strip (left ++ '\n' :: right)

def makeChunk (ordinal : Nat) (text : Str) : Except ChunkerError ChunkData :=
  let normalized := Str.strip text
  let tokenCount := chunker.countTokens normalized
  if chunker.maxTokens < tokenCount then
    .error (.assertionError "chunk exceeds configured token limit".toList)
  else .ok { ordinal, text := normalized, tokenCount }

def hardSplitLoop (remaining : Str) : Except ChunkerError (List Str) :=
  if _hnil : remaining = [] then .ok []
  else
    let stop := chunker.largestPrefixWithinLimit remaining chunker.maxTokens
    if _hstop : stop = 0 then
      .error (.valueError
        "Tokenizer reports more than max_tokens for a single character".toList)
    else do
      let pieces ← hardSplitLoop (Str.strip (remaining.drop stop))
      return Str.strip (remaining.take stop) :: pieces
termination_by remaining.length
decreasing_by
  have hle : (Str.strip (remaining.drop stop)).length ≤ remaining.length - stop := by
    simpa using Str.length_strip_le (remaining.drop stop)
  have hpos := List.length_pos_iff.mpr _hnil
  exact Nat.lt_of_le_of_lt hle (Nat.sub_lt hpos (Nat.pos_of_ne_zero _hstop))

def hardSplit (text : Str) : Except ChunkerError (List Str) := do
  let pieces ← chunker.hardSplitLoop text
  return pieces.filter (· ≠ [])

def splitToLimit : List Str → Str → Except ChunkerError (List Str)
  | [], text =>
      if chunker.countTokens text ≤ chunker.maxTokens then .ok [text] else chunker.hardSplit text
  | separator :: remaining, text =>
      if chunker.countTokens text ≤ chunker.maxTokens then .ok [text]
      else
        let pieces := splitPreservingSeparator text separator
        if pieces.length = 1 then splitToLimit remaining text
        else do
          let result ← pieces.mapM (fun piece => splitToLimit remaining (Str.strip piece))
          return result.flatten.filter (· ≠ [])

-- The loop of split from its state (len(chunks), current): the chunks it still appends.
def packFrom (ordinal : Nat) (current : Str) : List Str → Except ChunkerError (List ChunkData)
  | [] => if current = [] then .ok [] else do return [← chunker.makeChunk ordinal current]
  | piece :: pieces =>
      let candidate := join current piece
      if current ≠ [] ∧ chunker.maxTokens < chunker.countTokens candidate then do
        let chunk ← chunker.makeChunk ordinal current
        let overlap := chunker.tokenLimitedTail current chunker.overlapTokens
        let candidate := join overlap piece
        let next := if chunker.countTokens candidate ≤ chunker.maxTokens then candidate else piece
        let chunks ← packFrom (ordinal + 1) next pieces
        return chunk :: chunks
      else packFrom ordinal candidate pieces

def split (text : Str) : Except ChunkerError (List ChunkData) :=
  let normalized := Str.strip text
  if normalized = [] then .ok []
  else do
    let pieces ← chunker.splitToLimit chunker.separators normalized
    chunker.packFrom 0 [] pieces

def preserveAsSingleChunk (text : Str) : List ChunkData :=
  let normalized := Str.strip text
  if normalized = [] then []
  else [{ ordinal := 0, text := normalized, tokenCount := chunker.countTokens normalized }]

end TextChunker

end YCStudio
