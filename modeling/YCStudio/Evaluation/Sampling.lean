import YCStudio.Services.Reads

namespace YCStudio

-- random.Random(seed).shuffle
structure Shuffler where
  shuffle : Int → List Chunk → List Chunk
  perm : ∀ seed chunks, (shuffle seed chunks).Perm chunks

def SearchRow.IsEligibleFor (row : SearchRow) (ownerId : Uuid) : Prop :=
  (row.collection.kind = .case ∨ row.collection.kind = .material) ∧
    (row.collection.scope = .public ∨ row.collection.userId = some ownerId) ∧
    row.chunk.embedding ≠ none ∧ row.document.deletedAt = none ∧ row.source.deletedAt = none

instance (row : SearchRow) (ownerId : Uuid) : Decidable (row.IsEligibleFor ownerId) :=
  inferInstanceAs (Decidable (_ ∧ _))

def eligibleChunks (db : Database) (ownerId : Uuid) : List Chunk :=
  (((db.chunks.rows.filterMap (joinChunk db)).filter (·.IsEligibleFor ownerId)).map
    SearchRow.chunk).insertionSort fun a b => a.id.le b.id

def tooFewChunks (eligible : Nat) (count : Int) : Exn :=
  Exn.valueError ("only ".toList ++ (toString eligible).toList ++
    " eligible public searchable chunks; need ".toList ++ (toString count).toList)

def sampleChunks (shuffler : Shuffler) (db : Database) (ownerId : Uuid) (count seed : Int) :
    Except Exn (List Chunk) :=
  if count < 1 then .error (Exn.valueError "synthetic case count must be positive".toList)
  else
    let chunks := shuffler.shuffle seed (eligibleChunks db ownerId)
    if (chunks.length : Int) < count then .error (tooFewChunks chunks.length count)
    else .ok (chunks.take count.toNat)

end YCStudio
