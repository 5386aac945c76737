import YCStudio.Consistency.SeedRuns
import YCStudio.Consistency.Settled
import YCStudio.Library.Bookshelf

namespace YCStudio

def Runtime.documentText (rt : Runtime) (filename : Str) (fileBytes : Bytes) : Option Str :=
  match rt.parseFile filename fileBytes with
  | .error _ => none
  | .ok parsed => (rt.clean parsed.text).toOption

theorem Pipeline.outcome_rawText {rt : Runtime} {source : Source} {collection : Collection}
    {filename : Str} {fileBytes : Bytes} {metadata : Option (List (Str × Str))}
    {countTokens : Option (Str → Nat)} {documentId : Uuid} {createdAt : Timestamp} {out : Ingested}
    (h : outcome rt source collection filename fileBytes metadata countTokens documentId createdAt =
      .ok out) : rt.documentText filename fileBytes = some out.document.rawText := by
  obtain ⟨parsed, cleanedText, _, _, _, hparsed, hcleaned, _, _, hdocument, _⟩ := outcome_eq_ok h
  rw [Runtime.documentText, hparsed]
  dsimp only
  rw [hcleaned, hdocument]
  rfl

abbrev SeedShelf := Bookshelf Str Bytes

namespace Database

structure Displays (db : Database) (rt : Runtime) (source : Source) (content : Bytes) : Prop where
  contentHash : source.contentHash = rt.sha256 content
  completed : source.ingestStatus = .completed
  live : source.deletedAt = none
  document : ∃ document, db.documentsOf source.id = [document] ∧ document.deletedAt = none ∧
    rt.documentText source.filename content = some document.rawText

structure Stocks (db : Database) (rt : Runtime) (collectionId : Uuid) (shelf : SeedShelf) : Prop where
  rows : ∀ source ∈ db.sources, source.collectionId = collectionId →
    ∃ content, (source.filename, content) ∈ shelf ∧ db.Displays rt source content
  entries : ∀ entry ∈ shelf, ∃ source ∈ db.sources,
    source.collectionId = collectionId ∧ source.filename = entry.1
  names : ∀ a ∈ db.sources, ∀ b ∈ db.sources, a.collectionId = collectionId →
    b.collectionId = collectionId → a.filename = b.filename → a = b

variable {db db' : Database} {rt : Runtime} {collectionId : Uuid} {shelf : SeedShelf}

theorem Stocks.displays (h : db.Stocks rt collectionId shelf) {source : Source}
    (hsource : source ∈ db.sources) (hcollection : source.collectionId = collectionId)
    {content : Bytes} (hentry : (source.filename, content) ∈ shelf) :
    db.Displays rt source content := by
  obtain ⟨held, hheld, hdisplays⟩ := h.rows source hsource hcollection
  have hsame := Table.eq_of_key_eq hheld hentry rfl
  exact (Prod.mk.inj hsame).2 ▸ hdisplays

theorem Stocks.restock (h : db.Stocks rt collectionId shelf) {source : Source} {content : Bytes}
    (hagrees : db.AgreesOff db' source.id) (hsource : source ∈ db'.sources)
    (hcollection : source.collectionId = collectionId) (hdisplays : db'.Displays rt source content)
    (hpath : ∀ row ∈ db.sources, row.collectionId = collectionId →
      (row.id = source.id ↔ row.filename = source.filename)) :
    db'.Stocks rt collectionId (shelf.store (source.filename, content)) where
  rows row hrow hin := by
    by_cases hid : row.id = source.id
    · rw [Table.eq_of_key_eq hrow hsource hid]
      exact ⟨content, Table.mem_store.mpr (Or.inl rfl), hdisplays⟩
    · have hold := (hagrees.mem_sources hid).mp hrow
      have hname : row.filename ≠ source.filename :=
        fun hname => hid ((hpath row hold hin).mpr hname)
      obtain ⟨held, hheld, hshown⟩ := h.rows row hold hin
      refine ⟨held, Table.mem_store.mpr (Or.inr ⟨hheld, hname⟩), { hshown with document := ?_ }⟩
      rw [hagrees.documents row.id hid]
      exact hshown.document
  entries entry hentry := by
    rcases Table.mem_store.mp hentry with rfl | ⟨hheld, hname⟩
    · exact ⟨source, hsource, hcollection, rfl⟩
    · obtain ⟨row, hrow, hin, hfilename⟩ := h.entries entry hheld
      have hid : row.id ≠ source.id :=
        fun hid => hname (hfilename.symm.trans ((hpath row hrow hin).mp hid))
      exact ⟨row, (hagrees.mem_sources hid).mpr hrow, hin, hfilename⟩
  names a ha b hb hina hinb hname := by
    by_cases haid : a.id = source.id
    · by_cases hbid : b.id = source.id
      · exact Table.eq_of_key_eq ha hb (haid.trans hbid.symm)
      · have hold := (hagrees.mem_sources hbid).mp hb
        rw [Table.eq_of_key_eq ha hsource haid] at hname
        exact absurd ((hpath b hold hinb).mpr hname.symm) hbid
    · have holda := (hagrees.mem_sources haid).mp ha
      by_cases hbid : b.id = source.id
      · rw [Table.eq_of_key_eq hb hsource hbid] at hname
        exact absurd ((hpath a holda hina).mpr hname) haid
      · exact h.names a holda b ((hagrees.mem_sources hbid).mp hb) hina hinb hname

theorem Stocks.unchanged (h : db.Stocks rt collectionId shelf) {entry : Str × Bytes}
    (hentry : entry ∈ shelf) : db.Stocks rt collectionId (shelf.store entry) := by
  have hsame : ∀ x : Str × Bytes, x ∈ shelf.store entry ↔ x ∈ shelf := by
    intro x
    rw [Table.mem_store]
    constructor
    · rintro (rfl | ⟨hx, _⟩)
      · exact hentry
      · exact hx
    · intro hx
      by_cases hkey : x.1 = entry.1
      · exact Or.inl (Table.eq_of_key_eq hx hentry hkey)
      · exact Or.inr ⟨hx, hkey⟩
  refine ⟨?_, ?_, h.names⟩
  · intro source hsource hin
    obtain ⟨content, hheld, hshown⟩ := h.rows source hsource hin
    exact ⟨content, (hsame _).mpr hheld, hshown⟩
  · exact fun x hx => h.entries x ((hsame x).mp hx)

end Database

end YCStudio
