import YCStudio.Consistency.Shelves

namespace YCStudio

abbrev Heeds {α β : Type} (done : β → Prop) (r : Except Exn α) (verdict : Option β) : Prop :=
  History.Heeds (fun e => e.errorClass = .seedConfigurationError) done r verdict

def CollisionFree (rt : Runtime) (known : Bytes → Prop) : Prop :=
  ∀ a b, known a → known b → rt.sha256 a = rt.sha256 b → a = b

def Finds (existing : Option Source) (db : Database) (collectionId : Uuid) (path : Str) : Prop :=
  ∀ source, existing = some source ↔
    source ∈ db.sources ∧ source.filename = path ∧ source.collectionId = collectionId

theorem Query.filenameByHash_eq_some {db : Database} {collectionId : Uuid} {contentHash : Str}
    {excluding : Option Uuid} {filename : Str}
    (h : Query.answer db (.filenameByHash collectionId contentHash excluding) = some filename) :
    ∃ source ∈ db.sources, source.collectionId = collectionId ∧ source.contentHash = contentHash ∧
      some source.id ≠ excluding := by
  obtain ⟨source, hfound, _⟩ := Option.map_eq_some_iff.mp h
  have hsome := List.find?_some hfound
  exact ⟨source, List.mem_of_find?_eq_some hfound, by simpa using hsome⟩

theorem Database.AgreesOff.play_pair {db : Database} {first second : Event} {sourceId : Uuid}
    (hadmissible : Event.Admissible [first, second] db) (hfirst : first.sourceId = some sourceId)
    (hsecond : second.sourceId = some sourceId) :
    db.AgreesOff (Event.play [first, second] db) sourceId :=
  (AgreesOff.apply hadmissible.1 hfirst).trans (.apply hadmissible.2.1 hsecond)

theorem SeedStep.mem_sources {rt : Runtime} {db : Database} {collection : Collection}
    {file : SeedFile} {existing : Option Source} {r : Except Exn SeedOutcome} {events : List Event}
    (h : SeedStep rt db collection file existing r events)
    (hfinds : Finds existing db collection.id file.relativePath) {other : Source}
    (hne : ¬ (other.filename = file.relativePath ∧ other.collectionId = collection.id)) :
    other ∈ (Event.play events db).sources ↔ other ∈ db.sources := by
  have hone : ∀ s ∈ (Event.play events db).sources, db.AgreesOff (Event.play events db) s.id →
      s.filename = file.relativePath ∧ s.collectionId = collection.id →
      (∀ row ∈ db.sources, row.id = s.id →
        row.filename = file.relativePath ∧ row.collectionId = collection.id) →
      (other ∈ (Event.play events db).sources ↔ other ∈ db.sources) := by
    intro s hmem hagrees hname hold
    by_cases hid : other.id = s.id
    · constructor
      · intro hother
        rw [Table.eq_of_key_eq hother hmem hid] at hne
        exact absurd hname hne
      · exact fun hother => absurd (hold other hother hid) hne
    · exact hagrees.mem_sources hid
  cases h with
  | @created id createdAt documentId out hanswer houtcome hadmissible =>
    refine hone ((seedSource rt collection file id createdAt).withStatus .completed)
      (Database.mem_putSource hadmissible.2.1.1 rfl) (.play_pair hadmissible rfl rfl)
      ⟨rfl, rfl⟩ ?_
    exact fun row hrow hid => absurd hid (hadmissible.1.1 row hrow)
  | @updated source documentId createdAt out hstale hanswer houtcome hadmissible =>
    obtain ⟨hsource, hname⟩ := (hfinds source).mp rfl
    refine hone ((source.reseed file.contentHash).withStatus .completed)
      (Database.mem_putSource hadmissible.2.1.1 rfl) (.play_pair hadmissible rfl rfl) hname ?_
    intro row hrow hid
    rw [Table.eq_of_key_eq hrow hsource hid]
    exact hname
  | _ => exact Iff.rfl

theorem SeedStep.finds {rt : Runtime} {db : Database} {collection : Collection}
    {file : SeedFile} {existing other : Option Source} {r : Except Exn SeedOutcome}
    {events : List Event} (h : SeedStep rt db collection file existing r events)
    (hfinds : Finds existing db collection.id file.relativePath) {path : Str}
    (hne : path ≠ file.relativePath) (hother : Finds other db collection.id path) :
    Finds other (Event.play events db) collection.id path := by
  intro source
  rw [hother source]
  constructor
  · rintro ⟨hmem, rfl, hin⟩
    exact ⟨(h.mem_sources hfinds fun hsame => hne hsame.1).mpr hmem, rfl, hin⟩
  · rintro ⟨hmem, rfl, hin⟩
    exact ⟨(h.mem_sources hfinds fun hsame => hne hsame.1).mp hmem, rfl, hin⟩

section Step

variable {rt : Runtime} {known : Bytes → Prop}
  (hsha : CollisionFree rt known)
  {db : Database} {collection : Collection} {shelf : SeedShelf}
  (hstocks : db.Stocks rt collection.id shelf) (hshelf : ∀ entry ∈ shelf, known entry.2)

include hsha hstocks hshelf

theorem taken_iff {path : Str} {content : Bytes} (hcontent : known content) :
    shelf.Taken (path, content) ↔
      ∃ row ∈ db.sources, row.collectionId = collection.id ∧
        row.contentHash = rt.sha256 content ∧ row.filename ≠ path := by
  constructor
  · rintro ⟨⟨other, held⟩, hentry, hne, rfl⟩
    obtain ⟨row, hrow, hin, rfl⟩ := hstocks.entries _ hentry
    exact ⟨row, hrow, hin, (hstocks.displays hrow hin hentry).contentHash, hne⟩
  · rintro ⟨row, hrow, hin, hhash, hne⟩
    obtain ⟨held, hentry, hdisplays⟩ := hstocks.rows row hrow hin
    have hsame := hsha held content (hshelf _ hentry) hcontent
      (hdisplays.contentHash.symm.trans hhash)
    exact ⟨(row.filename, held), hentry, hne, hsame⟩

omit hsha hstocks hshelf in
theorem displays_complete {source : Source} {out : Ingested} {filename : Str} {fileBytes : Bytes}
    {metadata : Option (List (Str × Str))} {documentId : Uuid} {createdAt : Timestamp}
    (henabled : Event.Enabled (.complete source collection out) db)
    (hempty : db.documentsOf source.id = [])
    (houtcome : Pipeline.outcome rt source collection filename fileBytes metadata none documentId
      createdAt = .ok out)
    (hname : source.filename = filename) (hhash : source.contentHash = rt.sha256 fileBytes)
    (hlive : source.deletedAt = none) :
    (db.complete source out).Displays rt (source.withStatus .completed) fileBytes where
  contentHash := hhash
  completed := rfl
  live := hlive
  document := by
    refine ⟨out.document, Database.documentsOf_complete henabled hempty, ?_, ?_⟩
    · obtain ⟨_, _, _, _, _, hwell, _⟩ := henabled
      exact hwell.live
    · have htext := Pipeline.outcome_rawText houtcome
      exact hname.symm ▸ htext

theorem seedStep_heeds (hintact : db.Intact) (hnever : rt.NeverFails) {file : SeedFile}
    (hcontent : known file.content) (hhash : file.contentHash = rt.sha256 file.content)
    {existing : Option Source} (hfinds : Finds existing db collection.id file.relativePath)
    {r : Except Exn SeedOutcome} {events : List Event}
    (h : SeedStep rt db collection file existing r events) :
    Heeds (fun shelf' => (Event.play events db).Stocks rt collection.id shelf') r
      (shelf.publish (file.relativePath, file.content)) := by
  have htaken := @taken_iff rt known hsha db collection shelf hstocks hshelf file.relativePath
    file.content hcontent
  cases h with
  | @unchanged source hcurrent =>
    obtain ⟨hsource, hname, hin⟩ := (hfinds source).mp rfl
    have hsame : source.contentHash = file.contentHash := (of_decide_eq_true hcurrent).1
    have hfree : ¬ shelf.Taken (file.relativePath, file.content) := by
      rw [htaken]
      rintro ⟨row, hrow, hin', hhash', hne⟩
      have heq := hintact.contents row hrow source hsource (hin'.trans hin.symm)
        (hhash'.trans (hhash.symm.trans hsame.symm))
      exact hne (heq ▸ hname)
    obtain ⟨held, hentry, hdisplays⟩ := hstocks.rows source hsource hin
    have hheld : held = file.content := hsha held file.content (hshelf _ hentry) hcontent
      (hdisplays.contentHash.symm.trans (hsame.trans hhash))
    rw [hname, hheld] at hentry
    rw [Bookshelf.publish_eq_some hfree]
    exact ⟨⟨_, rfl⟩, hstocks.unchanged hentry⟩
  | @taken _ filename hstale hanswer =>
    obtain ⟨row, hrow, hin, hhash', hne⟩ := Query.filenameByHash_eq_some hanswer
    have hname : row.filename ≠ file.relativePath := by
      intro hname
      have hsome := (hfinds row).mpr ⟨hrow, hname, hin⟩
      exact hne (by rw [hsome]; rfl)
    rw [Bookshelf.publish_eq_none (htaken.mpr ⟨row, hrow, hin, hhash'.trans hhash, hname⟩)]
    exact ⟨_, rfl, rfl⟩
  | @created id createdAt documentId out hanswer houtcome hadmissible =>
    have hfree : ¬ shelf.Taken (file.relativePath, file.content) := by
      rw [htaken]
      rintro ⟨row, hrow, hin, hhash', _⟩
      cases Query.filenameByHash_eq_none hanswer hrow hin (hhash'.trans hhash.symm)
    rw [Bookshelf.publish_eq_some hfree]
    refine ⟨⟨_, rfl⟩, ?_⟩
    have hagrees : db.AgreesOff _
        ((seedSource rt collection file id createdAt).withStatus .completed).id :=
      .play_pair hadmissible rfl rfl
    have hempty := Database.documentsOf_fresh hintact hadmissible.1.1
    refine hstocks.restock hagrees (Database.mem_putSource hadmissible.2.1.1 rfl) rfl
      (displays_complete hadmissible.2.1 hempty houtcome rfl rfl rfl) ?_
    intro row hrow hin
    constructor
    · exact fun hid => absurd hid (hadmissible.1.1 row hrow)
    · exact fun hname => nomatch (hfinds row).mpr ⟨hrow, hname, hin⟩
  | @updated source documentId createdAt out hstale hanswer houtcome hadmissible =>
    obtain ⟨hsource, hname, hin⟩ := (hfinds source).mp rfl
    have hfree : ¬ shelf.Taken (file.relativePath, file.content) := by
      rw [htaken]
      rintro ⟨row, hrow, hin', hhash', hne⟩
      have hid := Query.filenameByHash_eq_none hanswer hrow hin' (hhash'.trans hhash.symm)
      rw [Table.eq_of_key_eq hrow hsource (Option.some.inj hid)] at hne
      exact hne hname
    rw [Bookshelf.publish_eq_some hfree]
    refine ⟨⟨_, rfl⟩, ?_⟩
    have hagrees : db.AgreesOff _ ((source.reseed file.contentHash).withStatus .completed).id :=
      .play_pair hadmissible rfl rfl
    have hempty := Database.documentsOf_dropDocuments db source.id
    have hpath : ∀ row ∈ db.sources, row.collectionId = collection.id →
        (row.id = source.id ↔ row.filename = source.filename) := by
      intro row hrow hin'
      constructor
      · intro hid
        rw [Table.eq_of_key_eq hrow hsource hid]
      · intro hname'
        have hsome := (hfinds row).mpr ⟨hrow, hname'.trans hname, hin'⟩
        rw [Option.some.inj hsome]
    have hrestocked := hstocks.restock hagrees (Database.mem_putSource hadmissible.2.1.1 rfl) hin
      (displays_complete hadmissible.2.1 hempty houtcome rfl hhash rfl) hpath
    exact hname ▸ hrestocked
  | failed hfails => exact absurd hnever hfails

end Step

def SeedFile.entry (file : SeedFile) : Str × Bytes := (file.relativePath, file.content)

structure Seedable (rt : Runtime) (known : Bytes → Prop) (collectionId : Uuid)
    (dict : List (Str × Source)) (files : List SeedFile) (db : Database) (shelf : SeedShelf) :
    Prop where
  intact : db.Intact
  stocks : db.Stocks rt collectionId shelf
  shelf : ∀ entry ∈ shelf, known entry.2
  paths : (files.map SeedFile.relativePath).Nodup
  contents : ∀ file ∈ files, known file.content ∧ file.contentHash = rt.sha256 file.content
  finds : ∀ path ∈ files.map SeedFile.relativePath,
    Finds (dict.lookup path) db collectionId path

theorem known_store {known : Bytes → Prop} {shelf : SeedShelf} (h : ∀ entry ∈ shelf, known entry.2)
    {entry : Str × Bytes} (hentry : known entry.2) : ∀ x ∈ shelf.store entry, known x.2 := by
  intro x hx
  rcases Table.mem_store.mp hx with rfl | ⟨hx, _⟩
  · exact hentry
  · exact h x hx

theorem seedable_step {rt : Runtime} {known : Bytes → Prop}
    (hsha : CollisionFree rt known)
    (hnever : rt.NeverFails) {collection : Collection} {dict : List (Str × Source)}
    (file : SeedFile) (files : List SeedFile) (db : Database) (shelf : SeedShelf)
    (r : Except Exn SeedOutcome) (events : List Event)
    (h : Seedable rt known collection.id dict (file :: files) db shelf)
    (hstep : SeedStep rt db collection file (dict.lookup file.relativePath) r events) :
    Heeds (Seedable rt known collection.id dict files (Event.play events db)) r
      (shelf.publish file.entry) := by
  obtain ⟨hnew, hpaths⟩ := List.nodup_cons.mp h.paths
  obtain ⟨⟨hcontent, hhash⟩, hfiles⟩ := List.forall_mem_cons.mp h.contents
  obtain ⟨hhead, hlater⟩ := List.forall_mem_cons.mp h.finds
  have hheeds : Heeds (fun shelf' => (Event.play events db).Stocks rt collection.id shelf') r
      (shelf.publish file.entry) :=
    seedStep_heeds hsha h.stocks h.shelf h.intact hnever hcontent hhash hhead hstep
  by_cases htaken : shelf.Taken file.entry
  · rw [Bookshelf.publish_eq_none htaken] at hheeds ⊢
    exact hheeds
  · rw [Bookshelf.publish_eq_some htaken] at hheeds ⊢
    obtain ⟨hok, hstocks⟩ := hheeds
    refine ⟨hok, h.intact.play hstep.admissible, hstocks, known_store h.shelf hcontent, hpaths,
      hfiles, ?_⟩
    intro path hpath
    exact hstep.finds hhead (fun h => hnew (h ▸ hpath)) (hlater path hpath)

theorem seedSteps_heeds {rt : Runtime} {known : Bytes → Prop}
    (hsha : CollisionFree rt known)
    (hnever : rt.NeverFails) {collection : Collection} {dict : List (Str × Source)}
    {files : List SeedFile} {db : Database} {shelf : SeedShelf}
    (hseedable : Seedable rt known collection.id dict files db shelf)
    {r : Except Exn (List SeedOutcome)} {events : List Event}
    (h : SeedSteps rt collection dict db files r events) :
    Heeds (Seedable rt known collection.id dict [] (Event.play events db)) r
      (shelf.publishAll (files.map SeedFile.entry)) := by
  have hheeds := h.heeds (seedable_step hsha hnever) hseedable
  rw [Bookshelf.publishAll, List.foldlM_map]
  exact hheeds

end YCStudio
