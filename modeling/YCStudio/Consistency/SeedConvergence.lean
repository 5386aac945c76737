import YCStudio.Consistency.SeedSteps
import YCStudio.Consistency.Tenancy

namespace YCStudio

def SeedTree.entries (tree : SeedTree) (library : SeedLibrary) : List (Str × Bytes) :=
  match tree library.directory with
  | none => []
  | some table =>
      ((table.rows.insertionSort pathOrder).filter SeedEntry.isFile).map fun entry =>
        (entry.relativePath, entry.content)

structure SeedTree.WellFormedFor (tree : SeedTree) (library : SeedLibrary) : Prop where
  readable : ∃ table, tree library.directory = some table ∧
    ∀ entry ∈ table.rows, entry.isFile → entry.text ≠ none
  distinct : ((tree.entries library).map Prod.snd).Nodup

def SeedTree.WellFormed (tree : SeedTree) : Prop :=
  ∀ library ∈ publicLibraries, tree.WellFormedFor library

theorem readSeedFiles_ok {rt : Runtime} {library : SeedLibrary} {entries : List SeedEntry}
    {seen : List SeedFile} (htext : ∀ entry ∈ entries, entry.isFile → entry.text ≠ none)
    (hdistinct : (((entries.filter SeedEntry.isFile).map (SeedEntry.file rt)).map
      SeedFile.contentHash).Nodup)
    (hnew : ∀ entry ∈ entries.filter SeedEntry.isFile, ∀ file ∈ seen,
      file.contentHash ≠ (entry.file rt).contentHash) :
    ∃ files, readSeedFiles rt library seen entries = .ok files := by
  induction entries generalizing seen with
  | nil => exact ⟨_, rfl⟩
  | cons entry entries ih =>
    obtain ⟨hhead, htext⟩ := List.forall_mem_cons.mp htext
    cases hfile : entry.isFile with
    | false =>
      have hskip : ¬ entry.isFile = true := by rw [hfile]; exact Bool.false_ne_true
      rw [List.filter_cons_of_neg hskip] at hdistinct hnew
      simp only [readSeedFiles, hfile]
      exact ih htext hdistinct hnew
    | true =>
      rw [List.filter_cons_of_pos hfile] at hdistinct hnew
      obtain ⟨hdifferent, hdistinct⟩ := List.nodup_cons.mp hdistinct
      obtain ⟨hfresh, hnew⟩ := List.forall_mem_cons.mp hnew
      obtain ⟨text, htext'⟩ := Option.ne_none_iff_exists'.mp (hhead hfile)
      have hread : readSeedFile rt entry = .ok (entry.file rt) := by
        simp only [readSeedFile, htext', SeedEntry.file, SeedEntry.content, Option.getD_some]
      have hunseen : seen.find? (·.contentHash = (entry.file rt).contentHash) = none :=
        List.find?_eq_none.mpr fun file hseen h => hfresh file hseen (of_decide_eq_true h)
      obtain ⟨files, hfiles⟩ := @ih (entry.file rt :: seen) htext hdistinct (by
        intro later hlater file hseen
        rcases List.mem_cons.mp hseen with rfl | hseen
        · intro hsame
          apply hdifferent
          rw [hsame]
          exact List.mem_map_of_mem (List.mem_map_of_mem hlater)
        · exact hnew later hlater file hseen)
      refine ⟨files, ?_⟩
      rw [readSeedFiles, hfile, hread]
      refine Eq.trans ?_ hfiles
      simp only [Bool.not_true, Bool.false_eq_true, if_false, bind, Except.bind, hunseen]

def SeedTree.KnownTo (tree : SeedTree) (known : Bytes → Prop) : Prop :=
  ∀ library ∈ publicLibraries, ∀ entry ∈ tree.entries library, known entry.2

theorem readLibraryFiles_ok {rt : Runtime} {known : Bytes → Prop} (hsha : CollisionFree rt known)
    {tree : SeedTree} {library : SeedLibrary} (hwell : tree.WellFormedFor library)
    (hknown : ∀ entry ∈ tree.entries library, known entry.2) :
    ∃ files, readLibraryFiles rt tree library = .ok files ∧
      files.map SeedFile.entry = tree.entries library := by
  obtain ⟨⟨table, htable, htext⟩, hdistinct⟩ := hwell
  let kept := (table.rows.insertionSort pathOrder).filter SeedEntry.isFile
  have hentries : tree.entries library =
      kept.map fun entry => (entry.relativePath, entry.content) := by
    rw [SeedTree.entries, htable]
  have hhashes : ((kept.map (SeedEntry.file rt)).map SeedFile.contentHash).Nodup := by
    rw [hentries, List.map_map] at hdistinct
    rw [List.map_map]
    have hmap : kept.map (SeedFile.contentHash ∘ SeedEntry.file rt) =
        (kept.map SeedEntry.content).map rt.sha256 := by
      rw [List.map_map]
      rfl
    rw [hmap]
    apply List.Nodup.map_on ?_ hdistinct
    intro a ha b hb hsame
    obtain ⟨entry, hentry, rfl⟩ := List.mem_map.mp ha
    obtain ⟨entry', hentry', rfl⟩ := List.mem_map.mp hb
    rw [hentries] at hknown
    exact hsha _ _ (hknown _ (List.mem_map_of_mem hentry)) (hknown _ (List.mem_map_of_mem hentry'))
      hsame
  have hread : ∃ files, readSeedFiles rt library [] (table.rows.insertionSort pathOrder) =
      .ok files := by
    apply readSeedFiles_ok
    · exact fun entry hentry => htext entry ((List.mem_insertionSort pathOrder).mp hentry)
    · exact hhashes
    · exact fun _ _ file hseen => absurd hseen List.not_mem_nil
  obtain ⟨files, hfiles⟩ := hread
  refine ⟨files, ?_, ?_⟩
  · rw [readLibraryFiles, htable]
    exact hfiles
  · rw [readSeedFiles_eq_ok hfiles, List.reverse_nil, List.nil_append, hentries, List.map_map]
    rfl

theorem lookup_filename_of_mem {sources : List Source} (hnames : (sources.map Source.filename).Nodup)
    {source : Source} (hsource : source ∈ sources) :
    (sources.map fun source => (source.filename, source)).lookup source.filename = some source := by
  induction sources with
  | nil => exact absurd hsource List.not_mem_nil
  | cons head sources ih =>
    obtain ⟨hnew, hnames⟩ := List.nodup_cons.mp hnames
    rw [List.map_cons, List.lookup_cons]
    rcases List.mem_cons.mp hsource with rfl | hsource
    · rw [beq_self_eq_true]
    · have hne : source.filename ≠ head.filename :=
        fun h => hnew (h ▸ List.mem_map_of_mem hsource)
      rw [beq_eq_false_iff_ne.mpr hne]
      exact ih hnames hsource

theorem sourcesByFilename_ok (library : SeedLibrary) {sources : List Source}
    {dict : List (Str × Source)} (hnames : (sources.map Source.filename).Nodup)
    (hnew : ∀ source ∈ sources, ∀ entry ∈ dict, entry.1 ≠ source.filename) :
    sourcesByFilename library dict sources =
      .ok (dict ++ sources.map fun source => (source.filename, source)) := by
  induction sources generalizing dict with
  | nil =>
    rw [sourcesByFilename, List.map_nil, List.append_nil]
  | cons source sources ih =>
    obtain ⟨hdifferent, hnames⟩ := List.nodup_cons.mp hnames
    obtain ⟨hhead, hnew⟩ := List.forall_mem_cons.mp hnew
    have hunseen : ¬ dict.any (·.1 = source.filename) = true := by
      rw [List.any_eq_true]
      rintro ⟨entry, hentry, hsame⟩
      exact hhead entry hentry (of_decide_eq_true hsame)
    rw [sourcesByFilename, if_neg hunseen, ih hnames]
    · rw [List.map_cons, List.append_assoc, List.singleton_append]
    · intro later hlater entry hentry
      rcases List.mem_append.mp hentry with hentry | hentry
      · exact hnew later hlater entry hentry
      · rw [List.mem_singleton.mp hentry]
        exact fun h => hdifferent (List.mem_map.mpr ⟨later, hlater, h.symm⟩)

namespace Database

variable {db db' : Database} {rt : Runtime} {collectionId : Uuid} {shelf : SeedShelf}

def sortedSources (db : Database) (collectionId : Uuid) : List Source :=
  (db.sourcesOf collectionId).insertionSort Query.filenameOrder

theorem mem_sortedSources {source : Source} :
    source ∈ db.sortedSources collectionId ↔
      source ∈ db.sources ∧ source.collectionId = collectionId := by
  rw [sortedSources, List.mem_insertionSort, sourcesOf, List.mem_filter, decide_eq_true_iff]
  rfl

theorem finds_of_nodup (hnames : ((db.sortedSources collectionId).map Source.filename).Nodup)
    (path : Str) :
    Finds (((db.sortedSources collectionId).map fun source => (source.filename, source)).lookup path)
      db collectionId path := by
  intro source
  constructor
  · intro hlookup
    obtain ⟨hsource, hname⟩ := lookup_filename hlookup
    obtain ⟨hsource, hin⟩ := mem_sortedSources.mp hsource
    exact ⟨hsource, hname, hin⟩
  · rintro ⟨hsource, rfl, hin⟩
    exact lookup_filename_of_mem hnames (mem_sortedSources.mpr ⟨hsource, hin⟩)

theorem dict_of_names
    (hnames : ∀ a ∈ db.sources, ∀ b ∈ db.sources, a.collectionId = collectionId →
      b.collectionId = collectionId → a.filename = b.filename → a = b) (library : SeedLibrary) :
    ∃ dict, sourcesByFilename library [] (Query.answer db (.sources collectionId)) = .ok dict ∧
      ∀ path, Finds (dict.lookup path) db collectionId path := by
  have hrows : (db.sortedSources collectionId).Nodup :=
    (List.perm_insertionSort Query.filenameOrder _).nodup_iff.mpr
      ((List.Nodup.of_map _ db.sources.nodup).filter _)
  have hdistinct : ((db.sortedSources collectionId).map Source.filename).Nodup := by
    apply List.Nodup.map_on ?_ hrows
    intro a ha b hb hsame
    obtain ⟨ha, hina⟩ := mem_sortedSources.mp ha
    obtain ⟨hb, hinb⟩ := mem_sortedSources.mp hb
    exact hnames a ha b hb hina hinb hsame
  exact ⟨_, sourcesByFilename_ok library hdistinct
    (fun _ _ _ hentry => absurd hentry List.not_mem_nil), finds_of_nodup hdistinct⟩

theorem Stocks.dict (h : db.Stocks rt collectionId shelf) (library : SeedLibrary) :
    ∃ dict, sourcesByFilename library [] (Query.answer db (.sources collectionId)) = .ok dict ∧
      ∀ path, Finds (dict.lookup path) db collectionId path :=
  dict_of_names h.names library

theorem Stocks.of_sameUnder (h : db.Stocks rt collectionId shelf)
    (hsame : db.SameUnder db' collectionId) : db'.Stocks rt collectionId shelf := by
  have hmem : ∀ source : Source, source.collectionId = collectionId →
      (source ∈ db'.sources ↔ source ∈ db.sources) := by
    intro source hin
    have hof : ∀ d : Database, source ∈ d.sources ↔ source ∈ d.sourcesOf collectionId := by
      intro d
      rw [sourcesOf, List.mem_filter, decide_eq_true_iff]
      exact (and_iff_left hin).symm
    rw [hof, hof, hsame.sources]
  refine ⟨?_, ?_, ?_⟩
  · intro source hsource hin
    have hold := (hmem source hin).mp hsource
    obtain ⟨content, hentry, hdisplays⟩ := h.rows source hold hin
    refine ⟨content, hentry, { hdisplays with document := ?_ }⟩
    rw [hsame.documents source (List.mem_filter.mpr ⟨hold, decide_eq_true hin⟩)]
    exact hdisplays.document
  · intro entry hentry
    obtain ⟨source, hsource, hin, hname⟩ := h.entries entry hentry
    exact ⟨source, (hmem source hin).mpr hsource, hin, hname⟩
  · intro a ha b hb hina hinb hname
    exact h.names a ((hmem a hina).mp ha) b ((hmem b hinb).mp hb) hina hinb hname

theorem stocks_addCollection (hintact : db.Intact) {collection : Collection}
    (hfresh : db.kbCollections.Fresh collection.id) :
    (db.addCollection collection).Stocks rt collection.id .empty := by
  have hnone : ∀ source ∈ db.sources, source.collectionId ≠ collection.id := by
    intro source hsource hin
    obtain ⟨stored, hstored, hid⟩ := hintact.sourceCollections source hsource
    exact hfresh stored hstored (hid.trans hin)
  refine ⟨?_, ?_, ?_⟩
  · exact fun source hsource hin => absurd hin (hnone source hsource)
  · exact fun entry hentry => absurd hentry (Table.not_mem_empty entry)
  · exact fun a ha _ _ hina => absurd hina (hnone a ha)

end Database

end YCStudio
