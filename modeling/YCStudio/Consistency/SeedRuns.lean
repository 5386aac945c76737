import YCStudio.Consistency.Seeding

namespace YCStudio

def SeedEntry.content (entry : SeedEntry) : Bytes := encodeUtf8 (stripFrontmatter (entry.text.getD []))

def SeedEntry.file (rt : Runtime) (entry : SeedEntry) : SeedFile where
  relativePath := entry.relativePath
  content := entry.content
  contentHash := computeContentHash rt entry.content

theorem readSeedFile_eq_ok {rt : Runtime} {entry : SeedEntry} {file : SeedFile}
    (h : readSeedFile rt entry = .ok file) : file = entry.file rt := by
  rw [readSeedFile] at h
  cases htext : entry.text with
  | none =>
    rw [htext] at h
    cases h
  | some text =>
    rw [htext] at h
    cases h
    simp only [SeedEntry.file, SeedEntry.content, htext, Option.getD_some]

theorem readSeedFiles_eq_ok {rt : Runtime} {library : SeedLibrary} {seen : List SeedFile}
    {entries : List SeedEntry} {files : List SeedFile}
    (h : readSeedFiles rt library seen entries = .ok files) :
    files = seen.reverse ++ (entries.filter SeedEntry.isFile).map (SeedEntry.file rt) := by
  induction entries generalizing seen with
  | nil =>
    cases h
    exact (List.append_nil _).symm
  | cons entry entries ih =>
    rw [readSeedFiles] at h
    split at h
    case isTrue hdirectory =>
      have hskip : ¬ entry.isFile = true := by simpa using hdirectory
      rw [ih h, List.filter_cons_of_neg hskip]
    case isFalse hfile =>
      have hkeep : entry.isFile = true := by simpa using hfile
      obtain ⟨file, hread, h⟩ := Except.bind_eq_ok h
      split at h
      · cases h
      · rw [ih h, List.filter_cons_of_pos hkeep, List.map_cons, ← readSeedFile_eq_ok hread,
          List.reverse_cons, List.append_assoc, List.singleton_append]

theorem readLibraryFiles_eq_ok {rt : Runtime} {tree : SeedTree} {library : SeedLibrary}
    {files : List SeedFile} (h : readLibraryFiles rt tree library = .ok files) :
    (files.map SeedFile.relativePath).Nodup ∧
      ∀ file ∈ files, file.contentHash = computeContentHash rt file.content := by
  rw [readLibraryFiles] at h
  split at h
  · cases h
  · rename_i entries _
    rw [readSeedFiles_eq_ok h, List.reverse_nil, List.nil_append]
    constructor
    · rw [List.map_map]
      have hnodup : ((entries.rows.insertionSort pathOrder).map SeedEntry.relativePath).Nodup :=
        ((List.perm_insertionSort pathOrder entries.rows).map _).nodup_iff.mpr entries.nodup
      exact hnodup.sublist (List.filter_sublist.map SeedEntry.relativePath)
    · intro file hfile
      obtain ⟨entry, _, rfl⟩ := List.mem_map.mp hfile
      rfl

theorem sourcesByFilename_eq_ok {library : SeedLibrary} {dict result : List (Str × Source)}
    {sources : List Source} (h : sourcesByFilename library dict sources = .ok result) :
    result = dict ++ sources.map fun source => (source.filename, source) := by
  induction sources generalizing dict with
  | nil =>
    cases h
    exact (List.append_nil _).symm
  | cons source sources ih =>
    rw [sourcesByFilename] at h
    split at h
    · cases h
    · rw [ih h, List.map_cons, List.append_assoc, List.singleton_append]

theorem lookup_filename {sources : List Source} {path : Str} {source : Source}
    (h : (sources.map fun source => (source.filename, source)).lookup path = some source) :
    source ∈ sources ∧ source.filename = path := by
  obtain ⟨before, after, hsplit, _⟩ := List.lookup_eq_some_iff.mp h
  have hmem : (path, source) ∈ sources.map fun source => (source.filename, source) := by
    rw [hsplit]
    exact List.mem_append_right _ List.mem_cons_self
  obtain ⟨other, hother, heq⟩ := List.mem_map.mp hmem
  obtain ⟨rfl, rfl⟩ := Prod.mk.inj heq
  exact ⟨hother, rfl⟩

theorem indexes_of_sourcesByFilename {library : SeedLibrary} {db : Database} {collectionId : Uuid}
    {dict : List (Str × Source)}
    (h : sourcesByFilename library [] (Query.answer db (.sources collectionId)) = .ok dict)
    (paths : List Str) : Indexes dict db collectionId paths := by
  intro path _ source hlookup
  rw [sourcesByFilename_eq_ok h, List.nil_append] at hlookup
  obtain ⟨hmem, hname⟩ := lookup_filename hlookup
  obtain ⟨hmem, hcid⟩ := List.mem_filter.mp
    ((List.perm_insertionSort Query.filenameOrder _).mem_iff.mp hmem)
  exact ⟨hmem, hname, of_decide_eq_true hcid⟩

def seedCollection (library : SeedLibrary) (id : Uuid) : Collection where
  id
  userId := none
  kind := library.kind
  scope := .public
  name := library.collectionName

theorem Query.publicCollection_eq_some {db : Database} {library : SeedLibrary}
    {collection : Collection}
    (h : Query.answer db (.publicCollection library.kind library.collectionName) =
      some collection) :
    collection ∈ db.kbCollections ∧ collection.userId = none ∧ collection.kind = library.kind ∧
      collection.name = library.collectionName := by
  have hsome := List.find?_some h
  exact ⟨List.mem_of_find?_eq_some h, by simpa using hsome⟩

theorem Query.publicCollection_eq_none {db : Database} {library : SeedLibrary}
    (h : Query.answer db (.publicCollection library.kind library.collectionName) = none)
    (id : Uuid) : ¬ db.sameOwnerKindName (seedCollection library id) := by
  rintro ⟨other, hother, huser, hkind, hname⟩
  have hnone := List.find?_eq_none.mp h other hother
  simp [seedCollection] at huser hkind hname
  simp [huser, hkind, hname] at hnone

def misplacedCollection (library : SeedLibrary) : Exn :=
  seedConfiguration ("Collection ".toList ++ pyRepr library.collectionName ++
    " must use public scope.".toList)

inductive CollectionStep (rt : Runtime) (db : Database) (library : SeedLibrary) :
    Except Exn (Collection × Bool) → List Event → Prop
  | existing {collection : Collection}
      (hanswer : Query.answer db (.publicCollection library.kind library.collectionName) =
        some collection) (hscope : collection.scope = .public) :
      CollectionStep rt db library (.ok (collection, false)) []
  | misplaced {collection : Collection}
      (hanswer : Query.answer db (.publicCollection library.kind library.collectionName) =
        some collection) (hscope : collection.scope ≠ .public) :
      CollectionStep rt db library (.error (misplacedCollection library)) []
  | created {id : Uuid}
      (hanswer : Query.answer db (.publicCollection library.kind library.collectionName) = none)
      (hadmissible : Event.Admissible [.addCollection (seedCollection library id)] db) :
      CollectionStep rt db library (.ok (seedCollection library id, true))
        [.addCollection (seedCollection library id)]
  | failed {e : Exn} (hfails : ¬ rt.NeverFails) : CollectionStep rt db library (.error e) []

theorem getOrCreatePublicCollection_runs {w : World} (hready : w.Ready) (rt : Runtime)
    (library : SeedLibrary) :
    ∃ r w' events, Runs (getOrCreatePublicCollection rt library) w r w' ∧
      CollectionStep rt w.view library r events ∧ w.Concludes w' events r := by
  have hselect := Runs.select hready.active
    (.publicCollection library.kind library.collectionName)
  cases hanswer : Query.answer w.view (.publicCollection library.kind library.collectionName) with
  | some collection =>
    by_cases hscope : collection.scope ≠ .public
    · refine ⟨.error (misplacedCollection library), w, [], hselect.bind ?_, .misplaced hanswer hscope,
        (World.Follows.refl hready).keeps⟩
      rw [hanswer]
      simp only [if_pos hscope]
      exact Runs.raise _
    · refine ⟨.ok (collection, false), w, [], hselect.bind ?_,
        .existing hanswer (not_not.mp hscope), .refl hready⟩
      rw [hanswer]
      simp only [if_neg hscope]
      exact Runs.pure _
  | none =>
    let collection := seedCollection library ⟨w.session.stream, w.session.drawn⟩
    have hactive : (w.advance [] 1).session.health = .active := hready.active
    cases hfault : rt.flushFault library.directory .collection with
    | some e =>
      have hflush := Runs.flushFault hactive e [.insertCollection collection]
      have hlost : w.Lost ((w.advance [] 1).refuse []) := World.lost_refuse 1
      refine ⟨.error e, _, [], hselect.bind ?_, .failed ?_, hlost.keeps⟩
      · rw [hanswer]
        rw [← hfault] at hflush
        exact Runs.newId.bind hflush.stop
      · intro hnever
        cases (hnever.1 _ _).symm.trans hfault
    | none =>
      have hfresh : w.view.kbCollections.Fresh collection.id :=
        fun row hrow => (hready.sound.before.collections row hrow).ne (Nat.le_refl _)
      have hname := Query.publicCollection_eq_none hanswer collection.id
      have haccepted : (w.advance [] 1).view.firstRefusal [.insertCollection collection] = none := by
        rw [World.view_advance, Database.firstRefusal_singleton]
        exact Database.refusal_insertCollection hfresh hname fun _ h => nomatch h
      have hflush := Runs.flush hactive haccepted
      rw [World.advance_advance, ← hfault] at hflush
      have hfollows : w.Follows (w.advance [.insertCollection collection] 1)
          [.addCollection collection] := by
        apply hready.follows rfl
        · exact ⟨hfresh, fun _ h => (nomatch h), hname, iff_of_true rfl rfl⟩
        · intro id hid
          rw [List.mem_singleton.mp hid]
          exact Uuid.drawn_draw (Nat.lt_add_one 0)
      refine ⟨.ok (collection, true), w.advance [.insertCollection collection] 1, _,
        hselect.bind ?_, .created hanswer hfollows.admissible, hfollows⟩
      rw [hanswer]
      exact Runs.newId.bind (hflush.bind (Runs.pure _))

inductive LibraryStep (rt : Runtime) (tree : SeedTree) (library : SeedLibrary) (db : Database) :
    Except Exn (Bool × List SeedOutcome) → List Event → Prop
  | unreadable {e : Exn} (hfiles : readLibraryFiles rt tree library = .error e) :
      LibraryStep rt tree library db (.error e) []
  | uncollected {files : List SeedFile} {e : Exn} {events : List Event}
      (hfiles : readLibraryFiles rt tree library = .ok files)
      (hcollection : CollectionStep rt db library (.error e) events) :
      LibraryStep rt tree library db (.error e) []
  | ambiguous {files : List SeedFile} {collection : Collection} {created : Bool} {e : Exn}
      {events : List Event} (hfiles : readLibraryFiles rt tree library = .ok files)
      (hcollection : CollectionStep rt db library (.ok (collection, created)) events)
      (hdict : sourcesByFilename library []
        (Query.answer (Event.play events db) (.sources collection.id)) = .error e) :
      LibraryStep rt tree library db (.error e) []
  | stopped {files : List SeedFile} {collection : Collection} {created : Bool} {e : Exn}
      {events events' : List Event} {dict : List (Str × Source)}
      (hfiles : readLibraryFiles rt tree library = .ok files)
      (hcollection : CollectionStep rt db library (.ok (collection, created)) events)
      (hdict : sourcesByFilename library []
        (Query.answer (Event.play events db) (.sources collection.id)) = .ok dict)
      (hsteps : SeedSteps rt collection dict (Event.play events db) files (.error e) events') :
      LibraryStep rt tree library db (.error e) []
  | seeded {files : List SeedFile} {collection : Collection} {created : Bool}
      {outcomes : List SeedOutcome} {events events' : List Event} {dict : List (Str × Source)}
      (hfiles : readLibraryFiles rt tree library = .ok files)
      (hcollection : CollectionStep rt db library (.ok (collection, created)) events)
      (hdict : sourcesByFilename library []
        (Query.answer (Event.play events db) (.sources collection.id)) = .ok dict)
      (hsteps : SeedSteps rt collection dict (Event.play events db) files (.ok outcomes) events') :
      LibraryStep rt tree library db (.ok (created, outcomes)) (events ++ events')

theorem CollectionStep.admissible {rt : Runtime} {db : Database} {library : SeedLibrary}
    {r : Except Exn (Collection × Bool)} {events : List Event}
    (h : CollectionStep rt db library r events) : Event.Admissible events db := by
  cases h with
  | created hanswer hadmissible => exact hadmissible
  | _ => trivial

theorem LibraryStep.admissible {rt : Runtime} {tree : SeedTree} {library : SeedLibrary}
    {db : Database} {r : Except Exn (Bool × List SeedOutcome)} {events : List Event}
    (h : LibraryStep rt tree library db r events) : Event.Admissible events db := by
  cases h with
  | seeded hfiles hcollection hdict hsteps =>
    exact hcollection.admissible.append (hsteps.admissible fun _ _ _ _ hstep => hstep.admissible)
  | _ => trivial

theorem CollectionStep.collection_eq {rt : Runtime} {db : Database} {library : SeedLibrary}
    {collection : Collection} {created : Bool} {events : List Event}
    (h : CollectionStep rt db library (.ok (collection, created)) events) :
    (Event.play events db).kbCollections.get? collection.id = some collection ∧
      collection.kind = library.kind := by
  cases h with
  | existing hanswer hscope =>
    obtain ⟨hmem, _, hkind, _⟩ := Query.publicCollection_eq_some hanswer
    exact ⟨Table.get?_key hmem, hkind⟩
  | created hanswer hadmissible =>
    exact ⟨Table.get?_key ((Table.mem_insert hadmissible.1.1).mpr (Or.inr rfl)), rfl⟩

theorem seedLibrary_runs {w : World} (hready : w.Ready) (rt : Runtime) (tree : SeedTree)
    {library : SeedLibrary} (hkind : isWholeDocumentKind library.kind) :
    ∃ r w' events, Runs (seedLibrary rt tree library) w r w' ∧
      LibraryStep rt tree library w.view r events ∧ w.Concludes w' events r := by
  cases hfiles : readLibraryFiles rt tree library with
  | error e =>
    have hread : Runs (attempt (readLibraryFiles rt tree library)) w (.error e) w := by
      rw [hfiles]
      exact Runs.attempt _
    exact ⟨.error e, w, [], hread.stop, .unreadable hfiles, (World.Follows.refl hready).keeps⟩
  | ok files =>
    have hread : Runs (attempt (readLibraryFiles rt tree library)) w (.ok files) w := by
      rw [hfiles]
      exact Runs.attempt _
    obtain ⟨hpaths, hhashes⟩ := readLibraryFiles_eq_ok hfiles
    obtain ⟨r, w₁, events, hcollect, hcollection, hconcludes⟩ :=
      getOrCreatePublicCollection_runs hready rt library
    cases r with
    | error e =>
      exact ⟨.error e, w₁, [], hread.bind hcollect.stop, .uncollected hfiles hcollection,
        hconcludes⟩
    | ok result =>
      obtain ⟨collection, created⟩ := result
      have hfollows : w.Follows w₁ events := hconcludes
      obtain ⟨hget, hsame⟩ := hcollection.collection_eq
      have hselect := Runs.select hfollows.ready.active (.sources collection.id)
      rw [← hfollows.view] at hget
      cases hdict : sourcesByFilename library []
          (Query.answer (Event.play events w.view) (.sources collection.id)) with
      | error e =>
        refine ⟨.error e, w₁, [], hread.bind (hcollect.bind (hselect.bind ?_)),
          .ambiguous hfiles hcollection hdict, hfollows.keeps⟩
        rw [hfollows.view, hdict]
        exact (Runs.attempt (.error e)).stop
      | ok dict =>
        have hindex : Indexes dict w₁.view collection.id (files.map SeedFile.relativePath) := by
          rw [hfollows.view]
          exact indexes_of_sourcesByFilename hdict _
        obtain ⟨r, w₂, events', hseed, hsteps, hconcludes'⟩ :=
          seedFiles_runs (hsame ▸ hkind) hpaths hhashes hfollows.ready hget hindex
        rw [hfollows.view] at hsteps
        have hindexed : Runs (attempt (sourcesByFilename library []
            (Query.answer w₁.view (.sources collection.id)))) w₁ (.ok dict) w₁ := by
          rw [hfollows.view, hdict]
          exact Runs.attempt _
        cases r with
        | error e =>
          exact ⟨.error e, w₂, [],
            hread.bind (hcollect.bind (hselect.bind (hindexed.bind hseed.stop))),
            .stopped hfiles hcollection hdict hsteps, hfollows.keeps_trans hconcludes'⟩
        | ok outcomes =>
          exact ⟨.ok (created, outcomes), w₂, events ++ events',
            hread.bind (hcollect.bind (hselect.bind (hindexed.bind (hseed.bind (Runs.pure _))))),
            .seeded hfiles hcollection hdict hsteps, hfollows.trans hconcludes'⟩

theorem seedLibraries_runs {rt : Runtime} {tree : SeedTree} {libraries : List SeedLibrary}
    (hkinds : ∀ library ∈ libraries, isWholeDocumentKind library.kind) {w : World}
    (hready : w.Ready) :
    ∃ r w' events, Runs (seedLibraries rt tree libraries) w r w' ∧
      History.Sweep Event.apply (fun db library => LibraryStep rt tree library db) w.view libraries
        r events ∧ w.Concludes w' events r := by
  induction libraries generalizing w with
  | nil => exact ⟨_, w, [], Runs.pure [], .nil, .refl hready⟩
  | cons library libraries ih =>
    obtain ⟨hkind, hkinds⟩ := List.forall_mem_cons.mp hkinds
    obtain ⟨r, w₁, events, hruns, hhead, hconcludes⟩ := seedLibrary_runs hready rt tree hkind
    cases r with
    | error e => exact ⟨.error e, w₁, [], hruns.stop, .stop hhead, hconcludes⟩
    | ok result =>
      have hfollows : w.Follows w₁ events := hconcludes
      obtain ⟨r, w₂, events', hruns', htail, hconcludes'⟩ := ih hkinds hfollows.ready
      rw [hfollows.view] at htail
      cases r with
      | error e =>
        exact ⟨.error e, w₂, [], hruns.bind hruns'.stop, .later hhead htail,
          hfollows.keeps_trans hconcludes'⟩
      | ok results =>
        exact ⟨.ok (result :: results), w₂, events ++ events',
          hruns.bind (hruns'.bind (Runs.pure _)), .cons hhead htail, hfollows.trans hconcludes'⟩

abbrev SeedRun (rt : Runtime) (tree : SeedTree) (db : Database) :
    Except Exn (List (Bool × List SeedOutcome)) → List Event → Prop :=
  History.Sweep Event.apply (fun db library => LibraryStep rt tree library db) db publicLibraries

theorem runSeedCommand_ends {w : World} (hready : w.Ready) (rt : Runtime) (tree : SeedTree) :
    ∃ r events, SeedRun rt tree w.view r events ∧
      (exec (runSeedCommand rt tree) w).1 = r.map summarize ∧
      w.Ends (exec (runSeedCommand rt tree) w).2 (match r with | .ok _ => events | .error _ => []) := by
  have hkinds : ∀ library ∈ publicLibraries, isWholeDocumentKind library.kind := by decide
  obtain ⟨r, w', events, hruns, hsweep, hconcludes⟩ := seedLibraries_runs hkinds hready
  cases r with
  | error e =>
    have hstop : Runs (runSeedCommand rt tree) w (.error e) w' :=
      (Runs.stop hruns).stop
    rw [hstop]
    exact ⟨.error e, events, hsweep, rfl, hconcludes.ends⟩
  | ok results =>
    have hfollows : w.Follows w' events := hconcludes
    obtain ⟨hcommit, hends⟩ := hfollows.commit
    have hseed : Runs (seedPublicLibraries rt tree) w (.ok (summarize results)) w' :=
      hruns.bind (Runs.pure _)
    have hdone : Runs (runSeedCommand rt tree) w (.ok (summarize results)) w'.commit :=
      hseed.bind (hcommit.bind (Runs.pure _))
    rw [hdone]
    exact ⟨.ok results, events, hsweep, rfl, hends⟩

end YCStudio
