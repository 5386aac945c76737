import YCStudio.Consistency.SeedConverges

namespace YCStudio

def SeedTree.filesIn (tree : SeedTree) (library : SeedLibrary) : Nat :=
  (tree library.directory).elim 0 fun entries => (entries.rows.filter SeedEntry.isFile).length

def SeedTree.fileCount (tree : SeedTree) : Nat := (publicLibraries.map tree.filesIn).sum

def Database.Current (db : Database) (collectionId : Uuid) (file : SeedFile) : Prop :=
  ∃ source, Finds (some source) db collectionId file.relativePath ∧ isUpToDate source file

def Database.Indexed (db : Database) (collectionId : Uuid) : Prop :=
  ∀ path, ∃ existing, Finds existing db collectionId path

section Names

variable {db : Database} {collectionId : Uuid}

theorem Database.Indexed.names (h : db.Indexed collectionId) {a b : Source} (ha : a ∈ db.sources)
    (hb : b ∈ db.sources) (hina : a.collectionId = collectionId)
    (hinb : b.collectionId = collectionId) (hname : a.filename = b.filename) : a = b := by
  obtain ⟨existing, hfinds⟩ := h b.filename
  have hfirst := (hfinds a).mpr ⟨ha, hname, hina⟩
  have hsecond := (hfinds b).mpr ⟨hb, rfl, hinb⟩
  exact Option.some.inj (hfirst.symm.trans hsecond)

theorem sourcesByFilename_nodup {library : SeedLibrary} {dict result : List (Str × Source)}
    {sources : List Source} (h : sourcesByFilename library dict sources = .ok result)
    (hdict : (dict.map Prod.fst).Nodup) : (result.map Prod.fst).Nodup := by
  induction sources generalizing dict with
  | nil =>
    cases h
    exact hdict
  | cons source sources ih =>
    rw [sourcesByFilename] at h
    split at h
    · cases h
    · rename_i hnew
      apply ih h
      rw [List.map_append, List.nodup_append]
      refine ⟨hdict, List.nodup_singleton _, ?_⟩
      intro name hname other hother hsame
      obtain ⟨entry, hentry, rfl⟩ := List.mem_map.mp hname
      rw [List.map_singleton, List.mem_singleton] at hother
      exact hnew (List.any_eq_true.mpr ⟨entry, hentry, decide_eq_true (hsame.trans hother)⟩)

theorem finds_of_sourcesByFilename {library : SeedLibrary} {dict : List (Str × Source)}
    (h : sourcesByFilename library [] (Query.answer db (.sources collectionId)) = .ok dict)
    (path : Str) : Finds (dict.lookup path) db collectionId path := by
  have hdict : dict = (db.sortedSources collectionId).map fun source => (source.filename, source) :=
    (sourcesByFilename_eq_ok h).trans (List.nil_append _)
  have hnames := sourcesByFilename_nodup h List.nodup_nil
  rw [hdict, List.map_map] at hnames
  rw [hdict]
  exact Database.finds_of_nodup hnames path

end Names

section File

variable {rt : Runtime} {db : Database} {collection : Collection} {file : SeedFile}
  {existing : Option Source} {outcome : SeedOutcome} {events : List Event}

theorem Database.Current.of_finds {db' : Database} {collectionId : Uuid} (h : db.Current collectionId file)
    (hkept : ∀ existing, Finds existing db collectionId file.relativePath →
      Finds existing db' collectionId file.relativePath) : db'.Current collectionId file := by
  obtain ⟨source, hfinds, hcurrent⟩ := h
  exact ⟨source, hkept _ hfinds, hcurrent⟩

theorem SeedStep.finds_self (hfinds : Finds existing db collection.id file.relativePath)
    {source : Source} (hadmissible : Event.Admissible events db)
    (hevents : ∀ e ∈ events, e.sourceId = some source.id)
    (hmem : source ∈ (Event.play events db).sources)
    (hname : source.filename = file.relativePath) (hin : source.collectionId = collection.id)
    (hold : ∀ row ∈ existing, row.id = source.id) :
    Finds (some source) (Event.play events db) collection.id file.relativePath := by
  intro other
  constructor
  · intro hsame
    rw [← Option.some.inj hsame]
    exact ⟨hmem, hname, hin⟩
  · rintro ⟨hother, hname', hin'⟩
    by_cases hid : other.id = source.id
    · rw [Table.eq_of_key_eq hother hmem hid]
    · have hagrees : db.AgreesOff (Event.play events db) source.id := .play hadmissible hevents
      have hfound := (hfinds other).mpr ⟨(hagrees.mem_sources hid).mp hother, hname', hin'⟩
      exact absurd (hold other hfound) hid

theorem SeedStep.current (hhash : file.contentHash = computeContentHash rt file.content)
    (hfinds : Finds existing db collection.id file.relativePath)
    (h : SeedStep rt db collection file existing (.ok outcome) events) :
    (Event.play events db).Current collection.id file := by
  cases h with
  | @unchanged source hcurrent => exact ⟨source, hfinds, hcurrent⟩
  | @created id createdAt documentId out hanswer houtcome hadmissible =>
    refine ⟨(seedSource rt collection file id createdAt).withStatus .completed,
      finds_self hfinds hadmissible ?_ (Database.mem_putSource hadmissible.2.1.1 rfl) rfl rfl
        (fun _ hrow => nomatch hrow), ?_⟩
    · rintro e (_ | ⟨_, _ | ⟨_, he⟩⟩)
      · rfl
      · rfl
      · exact absurd he List.not_mem_nil
    · exact decide_eq_true ⟨hhash.symm, rfl, rfl⟩
  | @updated source documentId createdAt out hstale hanswer houtcome hadmissible =>
    obtain ⟨_, hname, hin⟩ := (hfinds source).mp rfl
    refine ⟨(source.reseed file.contentHash).withStatus .completed,
      finds_self hfinds hadmissible ?_ (Database.mem_putSource hadmissible.2.1.1 rfl) hname hin ?_,
      decide_eq_true ⟨rfl, rfl, rfl⟩⟩
    · rintro e (_ | ⟨_, _ | ⟨_, he⟩⟩)
      · rfl
      · rfl
      · exact absurd he List.not_mem_nil
    · intro row hrow
      rw [← Option.some.inj hrow]
      rfl

end File

structure SeedSteps.Leaves (db db' : Database) (collectionId : Uuid) (files : List SeedFile) : Prop where
  indexed : db.Indexed collectionId → db'.Indexed collectionId
  current : ∀ file ∈ files, db'.Current collectionId file
  others : ∀ path ∉ files.map SeedFile.relativePath, ∀ existing,
    Finds existing db collectionId path → Finds existing db' collectionId path
  foreign : ∀ source : Source, source.collectionId ≠ collectionId →
    (source ∈ db'.sources ↔ source ∈ db.sources)

theorem SeedSteps.leaves {rt : Runtime} {collection : Collection} {dict : List (Str × Source)}
    {db : Database} {files : List SeedFile} {outcomes : List SeedOutcome} {events : List Event}
    (h : SeedSteps rt collection dict db files (.ok outcomes) events)
    (hpaths : (files.map SeedFile.relativePath).Nodup)
    (hhashes : ∀ file ∈ files, file.contentHash = computeContentHash rt file.content)
    (hfinds : ∀ file ∈ files,
      Finds (dict.lookup file.relativePath) db collection.id file.relativePath) :
    Leaves db (Event.play events db) collection.id files := by
  induction files generalizing db outcomes events with
  | nil =>
    cases h
    exact ⟨id, fun _ hfile => absurd hfile List.not_mem_nil, fun _ _ _ h => h, fun _ _ => Iff.rfl⟩
  | cons file files ih =>
    obtain ⟨hnew, hpaths⟩ := List.nodup_cons.mp hpaths
    obtain ⟨hhash, hhashes⟩ := List.forall_mem_cons.mp hhashes
    obtain ⟨hhead, hfinds⟩ := List.forall_mem_cons.mp hfinds
    cases h with
    | @cons _ _ _ outcome outcomes events events' head tail =>
      have hlater : ∀ later ∈ files, later.relativePath ≠ file.relativePath := by
        intro later hfile hsame
        exact hnew (hsame ▸ List.mem_map_of_mem hfile)
      have hrest := ih tail hpaths hhashes fun later hfile =>
        head.finds hhead (hlater later hfile) (hfinds later hfile)
      rw [Event.play, History.play_append]
      refine ⟨?_, ?_, ?_, ?_⟩
      · intro hindexed
        apply hrest.indexed
        intro path
        by_cases hsame : path = file.relativePath
        · obtain ⟨source, hfound, _⟩ := head.current hhash hhead
          exact ⟨some source, hsame ▸ hfound⟩
        · obtain ⟨existing, hfound⟩ := hindexed path
          exact ⟨existing, head.finds hhead hsame hfound⟩
      · refine List.forall_mem_cons.mpr ⟨?_, hrest.current⟩
        exact (head.current hhash hhead).of_finds (hrest.others _ hnew)
      · intro path hpath existing hfound
        obtain ⟨hne, hpath⟩ := not_or.mp fun h => hpath (List.mem_cons.mpr h)
        exact hrest.others path hpath existing (head.finds hhead hne hfound)
      · intro source hne
        rw [hrest.foreign source hne]
        exact head.mem_sources hhead fun hsame => hne hsame.2

structure Database.UpToDate (db : Database) (rt : Runtime) (tree : SeedTree) (library : SeedLibrary)
    (files : List SeedFile) (collection : Collection) : Prop where
  read : readLibraryFiles rt tree library = .ok files
  opened : db.publicCollection library = some collection
  scope : collection.scope = .public
  indexed : db.Indexed collection.id
  current : ∀ file ∈ files, db.Current collection.id file

section Library

variable {rt : Runtime} {tree : SeedTree} {library other : SeedLibrary} {db : Database}
  {result : Bool × List SeedOutcome} {events : List Event}

theorem CollectionStep.opens {collection : Collection} {created : Bool}
    (h : CollectionStep rt db library (.ok (collection, created)) events) :
    collection.scope = .public ∧
      (Event.play events db).publicCollection library = some collection ∧
      (Event.play events db).sources = db.sources := by
  cases h with
  | existing hanswer hscope => exact ⟨hscope, hanswer, rfl⟩
  | created hanswer hadmissible =>
    exact ⟨rfl, Database.publicCollection_addCollection_self hadmissible.1.1 hanswer, rfl⟩

theorem LibraryStep.upToDate (h : LibraryStep rt tree library db (.ok result) events) :
    ∃ files collection, (Event.play events db).UpToDate rt tree library files collection ∧
      ∀ source : Source, source.collectionId ≠ collection.id →
        (source ∈ (Event.play events db).sources ↔ source ∈ db.sources) := by
  cases h with
  | @seeded files collection created outcomes first second dict hfiles hcollection hdict hsteps =>
    obtain ⟨hscope, hanswer, hsources⟩ := hcollection.opens
    obtain ⟨hpaths, hhashes⟩ := readLibraryFiles_eq_ok hfiles
    have hfinds := finds_of_sourcesByFilename hdict
    have hleaves := hsteps.leaves hpaths hhashes fun file _ => hfinds file.relativePath
    rw [Event.play, History.play_append]
    refine ⟨files, collection, ⟨hfiles, ?_, hscope, hleaves.indexed fun path => ⟨_, hfinds path⟩,
      hleaves.current⟩, ?_⟩
    · rw [Database.publicCollection, Query.answer, hsteps.kbCollections_eq]
      exact hanswer
    · intro source hne
      rw [hleaves.foreign source hne, hsources]

theorem Database.UpToDate.frame {files : List SeedFile} {collection : Collection}
    (h : db.UpToDate rt tree other files collection)
    (hstep : LibraryStep rt tree library db (.ok result) events) (hne : library.kind ≠ other.kind) :
    (Event.play events db).UpToDate rt tree other files collection := by
  obtain ⟨_, opened, hdone, hforeign⟩ := hstep.upToDate
  obtain ⟨_, _, _, _, hsame⟩ := hstep.collection
  have hanswer := (hsame other hne).trans h.opened
  have hdiffers : collection.id ≠ opened.id := by
    intro hid
    obtain ⟨hopened, _, hkind, _⟩ := Query.publicCollection_eq_some hdone.opened
    obtain ⟨hheld, _, hkind', _⟩ := Query.publicCollection_eq_some hanswer
    rw [Table.eq_of_key_eq hheld hopened hid] at hkind'
    exact hne (hkind.symm.trans hkind')
  have hkept : ∀ existing path, Finds existing db collection.id path →
      Finds existing (Event.play events db) collection.id path := by
    intro existing path hfinds source
    rw [hfinds source]
    constructor
    · rintro ⟨hmem, hname, hin⟩
      exact ⟨(hforeign source (hin ▸ hdiffers)).mpr hmem, hname, hin⟩
    · rintro ⟨hmem, hname, hin⟩
      exact ⟨(hforeign source (hin ▸ hdiffers)).mp hmem, hname, hin⟩
  refine ⟨h.read, hanswer, h.scope, ?_, ?_⟩
  · intro path
    obtain ⟨existing, hfinds⟩ := h.indexed path
    exact ⟨existing, hkept existing path hfinds⟩
  · exact fun file hfile => (h.current file hfile).of_finds fun existing => hkept existing _

theorem Database.UpToDate.play {libraries : List SeedLibrary} {results : List (Bool × List SeedOutcome)}
    {files : List SeedFile} {collection : Collection}
    (h : db.UpToDate rt tree other files collection)
    (hne : ∀ library ∈ libraries, library.kind ≠ other.kind)
    (hrun : History.Sweep Event.apply (fun db library => LibraryStep rt tree library db) db libraries
      (.ok results) events) :
    (Event.play events db).UpToDate rt tree other files collection := by
  induction libraries generalizing db results events with
  | nil =>
    cases hrun
    exact h
  | cons library libraries ih =>
    obtain ⟨hhead, hne⟩ := List.forall_mem_cons.mp hne
    cases hrun with
    | cons head tail =>
      rw [Event.play, History.play_append]
      exact ih (h.frame head hhead) hne tail

theorem upToDate_of_sweep {libraries : List SeedLibrary} {results : List (Bool × List SeedOutcome)}
    (hkinds : (libraries.map SeedLibrary.kind).Nodup)
    (hrun : History.Sweep Event.apply (fun db library => LibraryStep rt tree library db) db libraries
      (.ok results) events) :
    ∀ library ∈ libraries, ∃ files collection,
      (Event.play events db).UpToDate rt tree library files collection := by
  induction libraries generalizing db results events with
  | nil => exact fun _ hlibrary => absurd hlibrary List.not_mem_nil
  | cons library libraries ih =>
    obtain ⟨hnew, hkinds⟩ := List.nodup_cons.mp hkinds
    cases hrun with
    | cons head tail =>
      obtain ⟨files, collection, hdone, _⟩ := head.upToDate
      rw [Event.play, History.play_append]
      refine List.forall_mem_cons.mpr ⟨⟨files, collection, hdone.play ?_ tail⟩, ih hkinds tail⟩
      exact fun later hlater hsame => hnew (hsame ▸ List.mem_map_of_mem hlater)

end Library

section Reading

variable {rt rt' : Runtime} (hsha : rt'.sha256 = rt.sha256) (tree : SeedTree) (library : SeedLibrary)

theorem length_readLibraryFiles {files : List SeedFile}
    (h : readLibraryFiles rt tree library = .ok files) : files.length = tree.filesIn library := by
  rw [readLibraryFiles] at h
  split at h
  · cases h
  · rename_i entries htable
    rw [readSeedFiles_eq_ok h, List.reverse_nil, List.nil_append, List.length_map,
      SeedTree.filesIn, htable]
    exact ((List.perm_insertionSort pathOrder entries.rows).filter _).length_eq

include hsha

theorem readSeedFiles_congr (seen : List SeedFile) (entries : List SeedEntry) :
    readSeedFiles rt' library seen entries = readSeedFiles rt library seen entries := by
  have hfile : ∀ entry, readSeedFile rt' entry = readSeedFile rt entry := by
    intro entry
    simp only [readSeedFile, computeContentHash, hsha]
  induction entries generalizing seen with
  | nil => rfl
  | cons entry entries ih => simp only [readSeedFiles, hfile, ih]

theorem readLibraryFiles_congr :
    readLibraryFiles rt' tree library = readLibraryFiles rt tree library := by
  simp only [readLibraryFiles, readSeedFiles_congr hsha]

end Reading

section Again

variable {rt : Runtime} {tree : SeedTree} {w : World}

theorem seedFiles_skip {collection : Collection} {dict : List (Str × Source)} {files : List SeedFile}
    (h : ∀ file ∈ files, ∃ source, dict.lookup file.relativePath = some source ∧
      isUpToDate source file) :
    Runs (seedFiles rt collection dict files) w (.ok (files.map fun _ => .unchanged)) w := by
  induction files with
  | nil => exact Runs.pure []
  | cons file files ih =>
    obtain ⟨⟨source, hlookup, hcurrent⟩, hrest⟩ := List.forall_mem_cons.mp h
    have hskip : Runs (seedFile rt collection (dict.lookup file.relativePath) file) w
        (.ok .unchanged) w := by
      simp only [hlookup, seedFile, hcurrent, if_true]
      exact Runs.pure _
    exact hskip.bind ((ih hrest).bind (Runs.pure _))

variable (hactive : w.session.health = .active)

include hactive

theorem seedLibrary_skips {library : SeedLibrary} {files : List SeedFile} {collection : Collection}
    (h : w.view.UpToDate rt tree library files collection) :
    Runs (seedLibrary rt tree library) w (.ok (false, files.map fun _ => .unchanged)) w := by
  have hread : Runs (attempt (readLibraryFiles rt tree library)) w (.ok files) w := by
    rw [h.read]
    exact Runs.attempt _
  have hopen : Runs (getOrCreatePublicCollection rt library) w (.ok (collection, false)) w := by
    have hanswer : Query.answer w.view (.publicCollection library.kind library.collectionName) =
        some collection := h.opened
    refine (Runs.select hactive (.publicCollection library.kind library.collectionName)).bind ?_
    rw [hanswer]
    simp only [h.scope, ne_eq, not_true_eq_false, if_false]
    exact Runs.pure _
  obtain ⟨dict, hdict, hfinds⟩ := Database.dict_of_names (fun _ ha _ hb => h.indexed.names ha hb)
    library
  have hindex : Runs (attempt (sourcesByFilename library []
      (Query.answer w.view (.sources collection.id)))) w (.ok dict) w := by
    rw [hdict]
    exact Runs.attempt _
  have hskip : Runs (seedFiles rt collection dict files) w (.ok (files.map fun _ => .unchanged)) w := by
    apply seedFiles_skip
    intro file hfile
    obtain ⟨source, hfound, hcurrent⟩ := h.current file hfile
    exact ⟨source, (hfinds _ source).mpr ((hfound source).mp rfl), hcurrent⟩
  exact hread.bind (hopen.bind ((Runs.select hactive (.sources collection.id)).bind
    (hindex.bind (hskip.bind (Runs.pure _)))))

theorem seedLibraries_skip {libraries : List SeedLibrary}
    (h : ∀ library ∈ libraries, ∃ files collection,
      w.view.UpToDate rt tree library files collection) :
    Runs (seedLibraries rt tree libraries) w
      (.ok (libraries.map fun library =>
        (false, List.replicate (tree.filesIn library) .unchanged))) w := by
  induction libraries with
  | nil => exact Runs.pure []
  | cons library libraries ih =>
    obtain ⟨⟨files, collection, hlibrary⟩, hrest⟩ := List.forall_mem_cons.mp h
    have hskip := seedLibrary_skips hactive hlibrary
    rw [List.map_const', length_readLibraryFiles tree library hlibrary.read] at hskip
    exact hskip.bind ((ih hrest).bind (Runs.pure _))

end Again

theorem summarize_unchanged (counts : List Nat) :
    summarize (counts.map fun count => (false, List.replicate count .unchanged)) =
      ⟨0, 0, 0, counts.sum⟩ := by
  have hflat : ∀ outcome : SeedOutcome,
      ((counts.map fun count => (false, List.replicate count SeedOutcome.unchanged)).map
        Prod.snd).flatten.count outcome = if outcome = .unchanged then counts.sum else 0 := by
    intro outcome
    induction counts with
    | nil => simp
    | cons count counts ih =>
      rw [List.map_cons, List.map_cons, List.flatten_cons, List.count_append, ih, List.sum_cons]
      cases outcome <;> simp [List.count_replicate]
  have hnone : (counts.map fun count =>
      (false, List.replicate count SeedOutcome.unchanged)).filter Prod.fst = [] := by
    simp
  simp only [summarize, hflat, hnone]
  rfl

def seededBefore (tree : SeedTree) : SeedSummary where
  createdCollections := 0
  createdSources := 0
  updatedSources := 0
  unchangedSources := tree.fileCount

theorem seedPublicLibraries_idempotent {rt rt' : Runtime} (hsha : rt'.sha256 = rt.sha256)
    {tree : SeedTree} {server : Server} (hsound : server.Sound) {summary : SeedSummary}
    (hfirst : (transact (runSeedCommand rt tree) server).1 = .ok summary) :
    let server' := (transact (runSeedCommand rt tree) server).2
    (transact (runSeedCommand rt' tree) server').1 = .ok (seededBefore tree) ∧
      (transact (runSeedCommand rt' tree) server').2.database = server'.database := by
  intro server'
  obtain ⟨r, events, hrun, hresult, hends⟩ := runSeedCommand_ends hsound.ready rt tree
  have hresult' : (transact (runSeedCommand rt tree) server).1 = r.map summarize := hresult
  cases r with
  | error e => cases hfirst.symm.trans hresult'
  | ok results =>
    have hkinds : (publicLibraries.map SeedLibrary.kind).Nodup := by decide
    have hfollows : server.Follows server' events := hsound.transact hends
    have hview : server'.connect.view = Event.play events server.database := hfollows.database
    have hdone : ∀ library ∈ publicLibraries, ∃ files collection,
        server'.connect.view.UpToDate rt' tree library files collection := by
      intro library hlibrary
      obtain ⟨files, collection, hlibrary⟩ := upToDate_of_sweep hkinds hrun library hlibrary
      rw [hview]
      exact ⟨files, collection, (readLibraryFiles_congr hsha tree library).trans hlibrary.read,
        hlibrary.opened, hlibrary.scope, hlibrary.indexed, hlibrary.current⟩
    have hactive : server'.connect.session.health = .active := rfl
    have hskip := seedLibraries_skip hactive hdone
    have hsummary := summarize_unchanged (publicLibraries.map tree.filesIn)
    rw [List.map_map] at hsummary
    have hseed : Runs (seedPublicLibraries rt' tree) server'.connect (.ok (seededBefore tree))
        server'.connect := by
      refine hskip.bind ?_
      exact congrArg (fun summary => (Except.ok summary, server'.connect)) hsummary
    have hruns : Runs (runSeedCommand rt' tree) server'.connect (.ok (seededBefore tree))
        server'.connect.commit := hseed.bind ((Runs.commit hactive).bind (Runs.pure _))
    constructor
    · exact congrArg Prod.fst hruns
    · exact congrArg (fun run => run.2.database) hruns

theorem seedPublicLibraries_idempotent_solo :
    (transact (runSeedCommand Runtime.reliable (soloTree "tone.md".toList "a".toList))
      (transact (runSeedCommand Runtime.reliable (soloTree "tone.md".toList "a".toList))
        (.empty [])).2).1 = .ok (seededBefore (soloTree "tone.md".toList "a".toList)) := by
  have hfirst : (transact (runSeedCommand Runtime.reliable (soloTree "tone.md".toList "a".toList))
      (.empty [])).1 = .ok ⟨2, 1, 0, 0⟩ := by decide +kernel
  exact (seedPublicLibraries_idempotent rfl (Server.Sound.empty []) hfirst).1

end YCStudio
