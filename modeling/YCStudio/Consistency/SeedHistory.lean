import YCStudio.Consistency.SeedConvergence

namespace YCStudio

namespace Database

def publicCollection (db : Database) (library : SeedLibrary) : Option Collection :=
  Query.answer db (.publicCollection library.kind library.collectionName)

inductive Carries (db : Database) (rt : Runtime) (library : SeedLibrary) (shelf : SeedShelf) : Prop
  | opened {collection : Collection} (hanswer : db.publicCollection library = some collection)
      (hscope : collection.scope = .public) (hstocks : db.Stocks rt collection.id shelf)
  | unopened (hanswer : db.publicCollection library = none) (hempty : shelf = .empty)

variable {db : Database} {rt : Runtime} {library other : SeedLibrary} {shelf : SeedShelf}

theorem publicCollection_addCollection {collection : Collection}
    (hfresh : db.kbCollections.Fresh collection.id)
    (hne : collection.kind ≠ library.kind) :
    (db.addCollection collection).publicCollection library = db.publicCollection library := by
  have hrows : (db.addCollection collection).kbCollections.rows =
      db.kbCollections.rows ++ [collection] := Table.rows_insert hfresh
  rw [publicCollection, Query.answer, hrows, List.find?_append]
  have hnone : [collection].find? (fun row => row.userId = none ∧ row.kind = library.kind ∧
      row.name = library.collectionName) = none := by
    apply List.find?_eq_none.mpr
    intro row hrow hmatch
    rw [List.mem_singleton.mp hrow] at hmatch
    exact hne (of_decide_eq_true hmatch).2.1
  rw [hnone, Option.or_none]
  rfl

theorem publicCollection_addCollection_self {id : Uuid} (hfresh : db.kbCollections.Fresh id)
    (hnone : db.publicCollection library = none) :
    (db.addCollection (seedCollection library id)).publicCollection library =
      some (seedCollection library id) := by
  have hrows : (db.addCollection (seedCollection library id)).kbCollections.rows =
      db.kbCollections.rows ++ [seedCollection library id] := Table.rows_insert hfresh
  have hold : db.kbCollections.rows.find? (fun row => row.userId = none ∧
      row.kind = library.kind ∧ row.name = library.collectionName) = none := hnone
  have hself : decide ((seedCollection library id).userId = none ∧
      (seedCollection library id).kind = library.kind ∧
        (seedCollection library id).name = library.collectionName) = true :=
    decide_eq_true ⟨rfl, rfl, rfl⟩
  rw [publicCollection, Query.answer, hrows, List.find?_append, hold, Option.none_or,
    List.find?_cons, hself]

end Database

theorem SeedStep.collectionId {rt : Runtime} {db : Database} {collection : Collection}
    {file : SeedFile} {existing : Option Source} {r : Except Exn SeedOutcome} {events : List Event}
    (h : SeedStep rt db collection file existing r events)
    (hin : ∀ source ∈ existing, source.collectionId = collection.id) :
    ∀ e ∈ events, e.collectionId = collection.id := by
  cases h with
  | created hanswer houtcome hadmissible =>
    rintro e (_ | ⟨_, _ | ⟨_, he⟩⟩)
    · rfl
    · rfl
    · exact absurd he List.not_mem_nil
  | @updated source documentId createdAt out hstale hanswer houtcome hadmissible =>
    rintro e (_ | ⟨_, _ | ⟨_, he⟩⟩)
    · exact hin source rfl
    · exact hin source rfl
    · exact absurd he List.not_mem_nil
  | _ => exact fun _ he => absurd he List.not_mem_nil

theorem SeedSteps.kbCollections_eq {rt : Runtime} {collection : Collection}
    {dict : List (Str × Source)} {db : Database} {files : List SeedFile}
    {r : Except Exn (List SeedOutcome)} {events : List Event}
    (h : SeedSteps rt collection dict db files r events) :
    (Event.play events db).kbCollections = db.kbCollections := by
  induction h with
  | cons head tail ih =>
    rw [Event.play, History.play_append]
    exact ih.trans head.kbCollections_eq
  | _ => rfl

section Library

variable {rt : Runtime} {known : Bytes → Prop} (hsha : CollisionFree rt known)
  (hnever : rt.NeverFails) {tree : SeedTree} {library : SeedLibrary} {db : Database}
  {shelf : SeedShelf} (hcarries : db.Carries rt library shelf)

include hcarries

theorem CollectionStep.stocks (hintact : db.Intact) (hnever : rt.NeverFails)
    {r : Except Exn (Collection × Bool)} {events : List Event}
    (h : CollectionStep rt db library r events) :
    ∃ collection created, r = .ok (collection, created) ∧ collection.scope = .public ∧
      (Event.play events db).publicCollection library = some collection ∧
      (Event.play events db).Stocks rt collection.id shelf := by
  cases h with
  | @existing collection hanswer hscope =>
    cases hcarries with
    | opened hanswer' hscope' hstocks =>
      obtain rfl := Option.some.inj (hanswer'.symm.trans hanswer)
      exact ⟨_, _, rfl, hscope, hanswer, hstocks⟩
    | unopened hanswer' hempty => cases hanswer'.symm.trans hanswer
  | @misplaced collection hanswer hscope =>
    cases hcarries with
    | opened hanswer' hscope' hstocks =>
      obtain rfl := Option.some.inj (hanswer'.symm.trans hanswer)
      exact absurd hscope' hscope
    | unopened hanswer' hempty => cases hanswer'.symm.trans hanswer
  | @created id hanswer hadmissible =>
    cases hcarries with
    | opened hanswer' hscope' hstocks => cases hanswer.symm.trans hanswer'
    | unopened hanswer' hempty =>
      obtain ⟨hfresh, _⟩ := hadmissible.1
      exact ⟨_, _, rfl, rfl, Database.publicCollection_addCollection_self hfresh hanswer,
        hempty ▸ Database.stocks_addCollection hintact hfresh⟩
  | failed hfails => exact absurd hnever hfails

include hsha hnever

theorem libraryStep_heeds (hwell : tree.WellFormedFor library) (hintact : db.Intact)
    (hshelf : ∀ entry ∈ shelf, known entry.2)
    (hknown : ∀ entry ∈ tree.entries library, known entry.2)
    {r : Except Exn (Bool × List SeedOutcome)} {events : List Event}
    (h : LibraryStep rt tree library db r events) :
    Heeds (fun shelf' => (Event.play events db).Carries rt library shelf') r
      (shelf.publishAll (tree.entries library)) := by
  obtain ⟨files, hfiles, hentries⟩ := readLibraryFiles_ok hsha hwell hknown
  obtain ⟨hpaths, hhashes⟩ := readLibraryFiles_eq_ok hfiles
  have hread : ∀ file ∈ files, known file.content ∧ file.contentHash = rt.sha256 file.content := by
    intro file hfile
    refine ⟨hknown file.entry ?_, hhashes file hfile⟩
    rw [← hentries]
    exact List.mem_map_of_mem hfile
  have hseedable : ∀ {collection : Collection} {created : Bool} {events : List Event}
      {dict : List (Str × Source)}, CollectionStep rt db library (.ok (collection, created)) events →
        sourcesByFilename library [] (Query.answer (Event.play events db) (.sources collection.id)) =
          .ok dict →
        collection.scope = .public ∧
          (Event.play events db).publicCollection library = some collection ∧
          Seedable rt known collection.id dict files (Event.play events db) shelf := by
    intro collection created events dict hcollection hdict
    obtain ⟨_, _, hok, hscope, hanswer, hstocks⟩ := hcollection.stocks hcarries hintact hnever
    cases hok
    obtain ⟨dict', hdict', hfinds⟩ := hstocks.dict library
    obtain rfl := Except.ok.inj (hdict'.symm.trans hdict)
    exact ⟨hscope, hanswer, hintact.play hcollection.admissible, hstocks, hshelf, hpaths, hread,
      fun path _ => hfinds path⟩
  rw [← hentries]
  cases h with
  | unreadable hunread => cases hfiles.symm.trans hunread
  | uncollected hfiles' hcollection =>
    obtain ⟨_, _, hok, _⟩ := hcollection.stocks hcarries hintact hnever
    cases hok
  | ambiguous hfiles' hcollection hdict =>
    obtain ⟨_, _, hok, _, _, hstocks⟩ := hcollection.stocks hcarries hintact hnever
    cases hok
    obtain ⟨dict, hdict', _⟩ := hstocks.dict library
    cases hdict'.symm.trans hdict
  | stopped hfiles' hcollection hdict hsteps =>
    obtain rfl := Except.ok.inj (hfiles.symm.trans hfiles')
    obtain ⟨_, _, hready⟩ := hseedable hcollection hdict
    obtain ⟨hverdict, hclass⟩ := (seedSteps_heeds hsha hnever hready hsteps).of_error
    rw [hverdict]
    exact ⟨_, rfl, hclass⟩
  | seeded hfiles' hcollection hdict hsteps =>
    obtain rfl := Except.ok.inj (hfiles.symm.trans hfiles')
    obtain ⟨hscope, hanswer, hready⟩ := hseedable hcollection hdict
    obtain ⟨shelf', hverdict, hdone⟩ := (seedSteps_heeds hsha hnever hready hsteps).of_ok
    rw [hverdict]
    refine ⟨⟨_, rfl⟩, .opened ?_ hscope ?_⟩
    · rw [Event.play, History.play_append, Database.publicCollection, Query.answer,
        hsteps.kbCollections_eq]
      exact hanswer
    · rw [Event.play, History.play_append]
      exact hdone.stocks

end Library

theorem CollectionStep.collectionId {rt : Runtime} {db : Database} {library : SeedLibrary}
    {collection : Collection} {created : Bool} {events : List Event}
    (h : CollectionStep rt db library (.ok (collection, created)) events) :
    ∀ e ∈ events, e.collectionId = collection.id := by
  cases h with
  | created hanswer hadmissible =>
    rintro e (_ | ⟨_, he⟩)
    · rfl
    · exact absurd he List.not_mem_nil
  | _ => exact fun _ he => absurd he List.not_mem_nil

theorem CollectionStep.publicCollection_eq {rt : Runtime} {db : Database} {library other : SeedLibrary}
    {r : Except Exn (Collection × Bool)} {events : List Event}
    (h : CollectionStep rt db library r events) (hne : library.kind ≠ other.kind) :
    (Event.play events db).publicCollection other = db.publicCollection other := by
  cases h with
  | created hanswer hadmissible =>
    exact Database.publicCollection_addCollection hadmissible.1.1 hne
  | _ => rfl

theorem LibraryStep.collection {rt : Runtime} {tree : SeedTree} {library : SeedLibrary}
    {db : Database} {result : Bool × List SeedOutcome} {events : List Event}
    (h : LibraryStep rt tree library db (.ok result) events) :
    ∃ collection : Collection, collection ∈ (Event.play events db).kbCollections ∧
      collection.kind = library.kind ∧ (∀ e ∈ events, e.collectionId = collection.id) ∧
      ∀ other : SeedLibrary, library.kind ≠ other.kind →
        (Event.play events db).publicCollection other = db.publicCollection other := by
  cases h with
  | @seeded files collection created outcomes first second dict hfiles hcollection hdict hsteps =>
    obtain ⟨hget, hkind⟩ := hcollection.collection_eq
    have hplay : (Event.play (first ++ second) db).kbCollections =
        (Event.play first db).kbCollections := by
      rw [Event.play, History.play_append]
      exact hsteps.kbCollections_eq
    refine ⟨collection, ?_, hkind, ?_, ?_⟩
    · rw [hplay]
      exact (Table.get?_eq_some_iff.mp hget).1
    · intro e he
      rcases List.mem_append.mp he with he | he
      · exact hcollection.collectionId e he
      · refine hsteps.forall (fun _ file _ _ hstep => hstep.collectionId ?_) e he
        intro source hsource
        rw [sourcesByFilename_eq_ok hdict, List.nil_append] at hsource
        have hmem := (lookup_filename hsource).1
        have hof := (List.mem_insertionSort Query.filenameOrder).mp hmem
        exact of_decide_eq_true (List.mem_filter.mp hof).2
    · intro other hne
      rw [← hcollection.publicCollection_eq hne, Database.publicCollection, Query.answer, hplay]
      rfl

theorem Database.Carries.frame {rt : Runtime} {tree : SeedTree} {library other : SeedLibrary}
    {db : Database} {shelf : SeedShelf} (h : db.Carries rt other shelf) (hintact : db.Intact)
    (hcoherent : db.Coherent) {result : Bool × List SeedOutcome} {events : List Event}
    (hstep : LibraryStep rt tree library db (.ok result) events) (hne : library.kind ≠ other.kind) :
    (Event.play events db).Carries rt other shelf := by
  obtain ⟨collection, hmem, hkind, hevents, hsame⟩ := hstep.collection
  cases h with
  | unopened hanswer hempty => exact .unopened ((hsame other hne).trans hanswer) hempty
  | @opened stored hanswer hscope hstocks =>
    have hanswer' := (hsame other hne).trans hanswer
    obtain ⟨hstored, _, hkind', _⟩ := Query.publicCollection_eq_some hanswer'
    have hdiffers : collection.id ≠ stored.id := by
      intro hid
      rw [Table.eq_of_key_eq hmem hstored hid] at hkind
      exact hne (hkind.symm.trans hkind')
    refine .opened hanswer' hscope (hstocks.of_sameUnder ?_)
    apply Database.SameUnder.play hintact hcoherent hstep.admissible
    exact fun e he hid => hdiffers ((hevents e he).symm.trans hid)

abbrev Shelves := SeedLibrary → SeedShelf

def Shelves.empty : Shelves := fun _ => Table.empty

def SeedTree.publishLibrary (tree : SeedTree) (shelves : Shelves) (library : SeedLibrary) :
    Option Shelves :=
  ((shelves library).publishAll (tree.entries library)).map (Function.update shelves library)

def SeedTree.publish (tree : SeedTree) (shelves : Shelves) : Option Shelves :=
  publicLibraries.foldlM tree.publishLibrary shelves

def SeedTree.publishOver (shelves : Shelves) (tree : SeedTree) : Shelves :=
  (tree.publish shelves).getD shelves

def Shelves.after (trees : List SeedTree) : Shelves := trees.foldl SeedTree.publishOver .empty

structure Stocked (rt : Runtime) (known : Bytes → Prop) (db : Database) (shelves : Shelves) :
    Prop where
  intact : db.Intact
  coherent : db.Coherent
  carries : ∀ library ∈ publicLibraries, db.Carries rt library (shelves library)
  known : ∀ library ∈ publicLibraries, ∀ entry ∈ shelves library, known entry.2

structure Pending (rt : Runtime) (known : Bytes → Prop) (libraries : List SeedLibrary)
    (db : Database) (shelves : Shelves) : Prop where
  libraries : ∀ library ∈ libraries, library ∈ publicLibraries
  stocked : Stocked rt known db shelves

section Run

variable {rt : Runtime} {known : Bytes → Prop} (hsha : CollisionFree rt known)
  (hnever : rt.NeverFails) {tree : SeedTree} (hwell : tree.WellFormed)
  (hknown : tree.KnownTo known)

theorem kinds_distinct : ∀ a ∈ publicLibraries, ∀ b ∈ publicLibraries, a ≠ b → a.kind ≠ b.kind := by
  decide

include hsha hnever hwell hknown

theorem stocked_step (library : SeedLibrary) (rest : List SeedLibrary) (db : Database)
    (shelves : Shelves) (r : Except Exn (Bool × List SeedOutcome)) (events : List Event)
    (h : Pending rt known (library :: rest) db shelves)
    (hstep : LibraryStep rt tree library db r events) :
    Heeds (Pending rt known rest (Event.play events db)) r (tree.publishLibrary shelves library) := by
  obtain ⟨hlibraries, hstocked⟩ := h
  obtain ⟨hlibrary, hrest⟩ := List.forall_mem_cons.mp hlibraries
  have hheeds := libraryStep_heeds hsha hnever (hstocked.carries library hlibrary)
    (hwell library hlibrary) hstocked.intact (hstocked.known library hlibrary)
    (hknown library hlibrary) hstep
  cases r with
  | error e =>
    obtain ⟨hverdict, hclass⟩ := hheeds.of_error
    rw [SeedTree.publishLibrary, hverdict]
    exact ⟨e, rfl, hclass⟩
  | ok result =>
    obtain ⟨shelf, hverdict, hcarries⟩ := hheeds.of_ok
    rw [SeedTree.publishLibrary, hverdict]
    obtain ⟨hintact, hcoherent⟩ := hstocked.coherent.play hstocked.intact hstep.admissible
    refine ⟨⟨result, rfl⟩, hrest, ⟨hintact, hcoherent, ?_, ?_⟩⟩
    · intro other hother
      by_cases hsame : other = library
      · subst hsame
        rw [Function.update_self]
        exact hcarries
      · rw [Function.update_of_ne hsame]
        exact (hstocked.carries other hother).frame hstocked.intact hstocked.coherent hstep
          (kinds_distinct library hlibrary other hother (Ne.symm hsame))
    · intro other hother entry hentry
      by_cases hsame : other = library
      · subst hsame
        rw [Function.update_self] at hentry
        rcases Bookshelf.mem_publishAll hverdict hentry with hentry | hentry
        · exact hstocked.known other hother entry hentry
        · exact hknown other hother entry hentry
      · rw [Function.update_of_ne hsame] at hentry
        exact hstocked.known other hother entry hentry

theorem seedRun_heeds {db : Database} {shelves : Shelves} (hstocked : Stocked rt known db shelves)
    {r : Except Exn (List (Bool × List SeedOutcome))} {events : List Event}
    (h : SeedRun rt tree db r events) :
    Heeds (Stocked rt known (Event.play events db)) r (tree.publish shelves) := by
  have hheeds := h.heeds (stocked_step hsha hnever hwell hknown) ⟨fun _ hl => hl, hstocked⟩
  cases r with
  | error e =>
    obtain ⟨hverdict, hclass⟩ := hheeds.of_error
    rw [SeedTree.publish, hverdict]
    exact ⟨e, rfl, hclass⟩
  | ok results =>
    obtain ⟨shelves', hverdict, hdone⟩ := hheeds.of_ok
    rw [SeedTree.publish, hverdict]
    exact ⟨⟨results, rfl⟩, hdone.stocked⟩

end Run

end YCStudio
