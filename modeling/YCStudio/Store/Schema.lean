import YCStudio.Library.Table
import YCStudio.Rag.Text

namespace YCStudio

structure Uuid where
  stream : Nat
  draw : Nat
  deriving DecidableEq, Repr

def Uuid.str (id : Uuid) : Str :=
  (Nat.repr id.stream).toList ++ '-' :: (Nat.repr id.draw).toList

theorem toList_repr_injective {m n : Nat} (h : (Nat.repr m).toList = (Nat.repr n).toList) :
    m = n := by
  have hvalue (k : Nat) : Nat.ofDigitChars 10 (Nat.repr k).toList 0 = k := by
    simp [Nat.repr]
  rw [← hvalue m, h, hvalue]

theorem not_mem_repr {c : Char} (hc : c.isDigit = false) (n : Nat) :
    c ∉ (Nat.repr n).toList := by
  intro h
  have hdigit : c.isDigit = true :=
    Nat.isDigit_of_mem_toDigits (by decide : 0 < 10) (by decide : 10 ≤ 10)
      (by simpa [Nat.repr] using h)
  rw [hc] at hdigit
  cases hdigit

theorem Uuid.str_injective : Function.Injective Uuid.str := by
  have hdash (n : Nat) : '-' ∉ (Nat.repr n).toList := not_mem_repr (by decide) n
  rintro ⟨stream, draw⟩ ⟨stream', draw'⟩ hstr
  obtain ⟨hstream, hdraw⟩ := Trim.append_cons_inj (hdash _) (hdash _) hstr
  cases toList_repr_injective hstream
  cases toList_repr_injective hdraw
  rfl

theorem Uuid.not_mem_str {c : Char} (hdigit : c.isDigit = false) (hdash : c ≠ '-') (id : Uuid) :
    c ∉ id.str := by
  rw [Uuid.str, List.mem_append, List.mem_cons]
  rintro (h | h | h)
  · exact not_mem_repr hdigit _ h
  · exact hdash h
  · exact not_mem_repr hdigit _ h

def Uuid.le (a b : Uuid) : Bool :=
  decide (a.stream < b.stream) || (decide (a.stream = b.stream) && decide (a.draw ≤ b.draw))

theorem Uuid.le_iff {a b : Uuid} :
    a.le b = true ↔ a.stream < b.stream ∨ (a.stream = b.stream ∧ a.draw ≤ b.draw) := by
  simp [Uuid.le]

theorem Uuid.le_total (a b : Uuid) : a.le b = true ∨ b.le a = true := by
  rw [Uuid.le_iff, Uuid.le_iff]
  omega

theorem Uuid.le_trans {a b c : Uuid} (hab : a.le b = true) (hbc : b.le c = true) :
    a.le c = true := by
  rw [Uuid.le_iff] at hab hbc ⊢
  omega

abbrev Timestamp := Nat

abbrev Bytes := List UInt8

abbrev Embedding := List Rat

inductive CollectionKind where
  | «case»
  | rule
  | template
  | material
  deriving DecidableEq, Repr

def CollectionKind.value : CollectionKind → Str
  | «case» => "case".toList
  | rule => "rule".toList
  | template => "template".toList
  | material => "material".toList

inductive CollectionScope where
  | «public»
  | «private»
  deriving DecidableEq, Repr

inductive IngestStatus where
  | pending
  | parsing
  | chunking
  | embedding
  | completed
  | failed
  deriving DecidableEq, Repr

def IngestStatus.value : IngestStatus → Str
  | pending => "pending".toList
  | parsing => "parsing".toList
  | chunking => "chunking".toList
  | embedding => "embedding".toList
  | completed => "completed".toList
  | failed => "failed".toList

inductive MetaValue where
  | text (value : Str)
  | number (value : Int)
  | flag (value : Bool)
  deriving DecidableEq, Repr

structure Collection where
  id : Uuid
  userId : Option Uuid
  kind : CollectionKind
  scope : CollectionScope
  name : Str
  deriving DecidableEq, Repr

structure IngestBatch where
  id : Uuid
  collectionId : Uuid
  userId : Uuid
  uploadMetadata : List (Str × Str)
  deriving DecidableEq, Repr

structure Source where
  id : Uuid
  collectionId : Uuid
  batchId : Option Uuid
  filename : Str
  contentHash : Str
  dirPath : Option Str
  ingestStatus : IngestStatus
  errorMessage : Option Str
  createdAt : Timestamp
  deletedAt : Option Timestamp
  deriving DecidableEq, Repr

structure Document where
  id : Uuid
  sourceId : Uuid
  title : Str
  rawText : Str
  «meta» : List (Str × MetaValue)
  parserVersion : Str
  createdAt : Timestamp
  deletedAt : Option Timestamp
  deriving DecidableEq, Repr

structure Chunk where
  id : Uuid
  collectionId : Uuid
  documentId : Uuid
  ordinal : Nat
  text : Str
  tokenCount : Nat
  embedding : Option Embedding
  embedModel : Option Str
  embedVersion : Option Str
  deriving DecidableEq, Repr

structure Database where
  users : List Uuid
  kbCollections : Table Collection.id
  ingestBatches : Table IngestBatch.id
  sources : Table Source.id
  documents : Table Document.id
  chunks : Table Chunk.id
  deriving DecidableEq

def Database.empty (users : List Uuid) : Database where
  users
  kbCollections := .empty
  ingestBatches := .empty
  sources := .empty
  documents := .empty
  chunks := .empty

inductive Constraint where
  | primaryKey
  | uqKbCollectionsOwnerKindName
  | uqSourcesCollectionContentHash
  | uqChunksDocumentOrdinal
  | kbCollectionsUserIdFkey
  | ingestBatchesCollectionIdFkey
  | ingestBatchesUserIdFkey
  | sourcesCollectionIdFkey
  | sourcesBatchIdFkey
  | documentsSourceIdFkey
  | chunksCollectionIdFkey
  | chunksDocumentIdFkey
  deriving DecidableEq, Repr

inductive ErrorClass where
  | collectionNotFoundError
  | collectionAccessError
  | collectionKindMismatchError
  | collectionAlreadyExistsError
  | unknownPrincipalError
  | sourceNotFoundError
  | sourceFileNotFoundError
  | unsupportedSearchKindError
  | seedConfigurationError
  | valueError
  | assertionError
  | fileNotFoundError
  | osError
  | integrityError (constraint : Constraint)
  | databaseError
  | staleDataError
  | pendingRollbackError
  | other
  deriving DecidableEq, Repr

structure Exn where
  errorClass : ErrorClass
  message : Str
  deriving DecidableEq, Repr

end YCStudio
