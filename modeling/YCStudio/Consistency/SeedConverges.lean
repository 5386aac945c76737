import YCStudio.Consistency.SeedHistory

namespace YCStudio

def Database.Publishes (db : Database) (library : SeedLibrary) (path text : Str) : Prop :=
  ∃ collection ∈ db.kbCollections.rows,
    (collection.userId = none ∧ collection.kind = library.kind ∧
      collection.name = library.collectionName) ∧
    ∃ source ∈ db.sources.rows,
      (source.collectionId = collection.id ∧ source.filename = path ∧
        source.ingestStatus = .completed ∧ source.deletedAt = none) ∧
      ∃ document ∈ db.documents.rows,
        document.sourceId = source.id ∧ document.deletedAt = none ∧ document.rawText = text

instance (db : Database) (library : SeedLibrary) (path text : Str) :
    Decidable (db.Publishes library path text) := by
  unfold Database.Publishes
  infer_instance

theorem Database.Carries.publishes_iff {db : Database} {rt : Runtime} {library : SeedLibrary}
    {shelf : SeedShelf} (h : db.Carries rt library shelf) (hintact : db.Intact) (path text : Str) :
    db.Publishes library path text ↔
      ∃ entry, shelf.get? path = some entry ∧ rt.documentText path entry.2 = some text := by
  cases h with
  | unopened hanswer hempty =>
    subst hempty
    constructor
    · rintro ⟨collection, hmem, hmatch, _⟩
      exact absurd (decide_eq_true hmatch) (List.find?_eq_none.mp hanswer collection hmem)
    · rintro ⟨entry, hentry, _⟩
      exact absurd (Table.get?_eq_some_iff.mp hentry).1 (Table.not_mem_empty entry)
  | @opened stored hanswer hscope hstocks =>
    obtain ⟨hstored, huser, hkind, hname⟩ := Query.publicCollection_eq_some hanswer
    constructor
    · rintro ⟨collection, hmem, ⟨huser', hkind', hname'⟩, source, hsource,
        ⟨hin, rfl, _, _⟩, document, hdocument, hof, _, rfl⟩
      have hsame : collection = stored := hintact.names collection hmem stored hstored
        (huser'.trans huser.symm) (hkind'.trans hkind.symm) (hname'.trans hname.symm)
      obtain ⟨content, hentry, hdisplays⟩ := hstocks.rows source hsource (hsame ▸ hin)
      obtain ⟨shown, hdocuments, _, htext⟩ := hdisplays.document
      have hmem' : document ∈ db.documentsOf source.id :=
        List.mem_filter.mpr ⟨hdocument, decide_eq_true hof⟩
      rw [hdocuments, List.mem_singleton] at hmem'
      exact ⟨_, Table.get?_eq_some_iff.mpr ⟨hentry, rfl⟩, hmem' ▸ htext⟩
    · rintro ⟨entry, hentry, htext⟩
      obtain ⟨hmem, rfl⟩ := Table.get?_eq_some_iff.mp hentry
      obtain ⟨source, hsource, hin, hfilename⟩ := hstocks.entries entry hmem
      have hheld : (source.filename, entry.2) ∈ shelf := hfilename.symm ▸ hmem
      have hdisplays := hstocks.displays hsource hin hheld
      obtain ⟨document, hdocuments, hlive, hshown⟩ := hdisplays.document
      have hmem' : document ∈ db.documentsOf source.id := by
        rw [hdocuments]
        exact List.mem_singleton_self document
      obtain ⟨hdocument, hof⟩ := List.mem_filter.mp hmem'
      rw [hfilename, htext] at hshown
      exact ⟨stored, hstored, ⟨huser, hkind, hname⟩, source, hsource,
        ⟨hin, hfilename, hdisplays.completed, hdisplays.live⟩, document, hdocument,
        of_decide_eq_true hof, hlive, (Option.some.inj hshown).symm⟩

theorem Stocked.empty (rt : Runtime) (known : Bytes → Prop) (users : List Uuid) :
    Stocked rt known (Database.empty users) .empty where
  intact := .empty users
  coherent := .empty users
  carries _ _ := .unopened rfl rfl
  known _ _ entry hentry := absurd hentry (Table.not_mem_empty entry)

section Serve

variable {rt : Runtime} {known : Bytes → Prop} (hsha : CollisionFree rt known)
  (hnever : rt.NeverFails)

include hsha hnever

theorem runSeedCommand_heeds {server : Server} (hsound : server.Sound) {shelves : Shelves}
    (hstocked : Stocked rt known server.database shelves) {tree : SeedTree}
    (hwell : tree.WellFormed) (hknown : tree.KnownTo known) :
    Heeds (Stocked rt known (transact (runSeedCommand rt tree) server).2.database)
        (transact (runSeedCommand rt tree) server).1 (tree.publish shelves) ∧
      (tree.publish shelves = none →
        (transact (runSeedCommand rt tree) server).2.database = server.database) := by
  obtain ⟨r, events, hrun, hresult, hends⟩ := runSeedCommand_ends hsound.ready rt tree
  have hfollows := hsound.transact hends
  have hheeds := seedRun_heeds hsha hnever hwell hknown hstocked hrun
  have hresult' : (transact (runSeedCommand rt tree) server).1 = r.map summarize := hresult
  cases r with
  | error e =>
    obtain ⟨hverdict, hclass⟩ := hheeds.of_error
    rw [hresult', hverdict]
    exact ⟨⟨e, rfl, hclass⟩, fun _ => hfollows.database⟩
  | ok results =>
    obtain ⟨shelves', hverdict, hdone⟩ := hheeds.of_ok
    rw [hresult', hverdict, hfollows.database]
    exact ⟨⟨⟨_, rfl⟩, hdone⟩, fun h => nomatch h⟩

theorem stocked_publishOver {server : Server} (hsound : server.Sound) {shelves : Shelves}
    (hstocked : Stocked rt known server.database shelves) {tree : SeedTree}
    (hwell : tree.WellFormed) (hknown : tree.KnownTo known) :
    Stocked rt known (transact (runSeedCommand rt tree) server).2.database
      (tree.publishOver shelves) := by
  obtain ⟨hheeds, hkept⟩ := runSeedCommand_heeds hsha hnever hsound hstocked hwell hknown
  rw [SeedTree.publishOver]
  cases hverdict : tree.publish shelves with
  | none =>
    rw [hkept hverdict]
    exact hstocked
  | some shelves' =>
    rw [hverdict] at hheeds
    exact hheeds.2

theorem stocked_after {trees : List SeedTree} {server : Server} (hsound : server.Sound)
    {shelves : Shelves} (hstocked : Stocked rt known server.database shelves)
    (hwell : ∀ tree ∈ trees, tree.WellFormed) (hknown : ∀ tree ∈ trees, tree.KnownTo known) :
    (Operation.performAll (trees.map (.seedPublicLibraries rt)) server).Sound ∧
      Stocked rt known (Operation.performAll (trees.map (.seedPublicLibraries rt)) server).database
        (trees.foldl SeedTree.publishOver shelves) := by
  induction trees generalizing server shelves with
  | nil => exact ⟨hsound, hstocked⟩
  | cons tree trees ih =>
    obtain ⟨hwellHead, hwell⟩ := List.forall_mem_cons.mp hwell
    obtain ⟨hknownHead, hknown⟩ := List.forall_mem_cons.mp hknown
    obtain ⟨events, hfollows⟩ := Operation.follows hsound (.seedPublicLibraries rt tree)
    exact ih hfollows.sound
      (stocked_publishOver hsha hnever hsound hstocked hwellHead hknownHead) hwell hknown

end Serve

section Tree

variable {tree : SeedTree} {libraries : List SeedLibrary} {shelves shelves' : Shelves}

theorem entries_paths_nodup (tree : SeedTree) (library : SeedLibrary) :
    ((tree.entries library).map Prod.fst).Nodup := by
  rw [SeedTree.entries]
  split
  · exact List.nodup_nil
  · rename_i table _
    rw [List.map_map]
    have hnodup : ((table.rows.insertionSort pathOrder).map SeedEntry.relativePath).Nodup :=
      ((List.perm_insertionSort pathOrder table.rows).map _).nodup_iff.mpr table.nodup
    exact hnodup.sublist (List.filter_sublist.map SeedEntry.relativePath)

theorem publishLibraries_eq_some (hnodup : libraries.Nodup)
    (h : libraries.foldlM tree.publishLibrary shelves = some shelves') (library : SeedLibrary) :
    (library ∈ libraries →
        (shelves library).publishAll (tree.entries library) = some (shelves' library)) ∧
      (library ∉ libraries → shelves' library = shelves library) := by
  induction libraries generalizing shelves with
  | nil =>
    cases h
    exact ⟨fun h => absurd h List.not_mem_nil, fun _ => rfl⟩
  | cons head libraries ih =>
    obtain ⟨hnew, hnodup⟩ := List.nodup_cons.mp hnodup
    rw [List.foldlM_cons] at h
    obtain ⟨mid, hhead, hrest⟩ := Option.bind_eq_some_iff.mp h
    obtain ⟨shelf, hshelf, rfl⟩ := Option.map_eq_some_iff.mp hhead
    obtain ⟨hin, hout⟩ := ih hnodup hrest
    constructor
    · intro hmem
      rcases List.mem_cons.mp hmem with rfl | hmem
      · rw [hout hnew, Function.update_self]
        exact hshelf
      · have hne : library ≠ head := fun h => hnew (h ▸ hmem)
        have hlater := hin hmem
        rw [Function.update_of_ne hne] at hlater
        exact hlater
    · intro hmem
      obtain ⟨hne, hmem⟩ := List.ne_and_not_mem_of_not_mem_cons hmem
      rw [hout hmem, Function.update_of_ne hne]

theorem publishLibraries_isSome (hnodup : libraries.Nodup)
    (h : ∀ library ∈ libraries,
      ((shelves library).publishAll (tree.entries library)).isSome) :
    (libraries.foldlM tree.publishLibrary shelves).isSome := by
  induction libraries generalizing shelves with
  | nil => rfl
  | cons head libraries ih =>
    obtain ⟨hnew, hnodup⟩ := List.nodup_cons.mp hnodup
    obtain ⟨hhead, hrest⟩ := List.forall_mem_cons.mp h
    obtain ⟨shelf, hshelf⟩ := Option.isSome_iff_exists.mp hhead
    rw [List.foldlM_cons, SeedTree.publishLibrary, hshelf]
    apply ih hnodup
    intro library hmem
    have hne : library ≠ head := fun h => hnew (h ▸ hmem)
    rw [Function.update_of_ne hne]
    exact hrest library hmem

theorem publicLibraries_nodup : publicLibraries.Nodup := by decide

theorem publish_eq_some (h : tree.publish shelves = some shelves') {library : SeedLibrary}
    (hlibrary : library ∈ publicLibraries) :
    (shelves library).publishAll (tree.entries library) = some (shelves' library) :=
  (publishLibraries_eq_some publicLibraries_nodup h library).1 hlibrary

theorem publish_empty_isSome (hwell : tree.WellFormed) : (tree.publish .empty).isSome := by
  apply publishLibraries_isSome publicLibraries_nodup
  intro library hlibrary
  apply Bookshelf.publishAll_isSome (hwell library hlibrary).distinct
  exact fun _ _ held hheld => absurd hheld List.not_mem_nil

end Tree

def Synchronizes (rt : Runtime) (users : List Uuid) (trees : List SeedTree) (tree : SeedTree) :
    Prop :=
  let before := Operation.performAll (trees.map (.seedPublicLibraries rt)) (.empty users)
  let run := transact (runSeedCommand rt tree) before
  let alone := transact (runSeedCommand rt tree) (.empty users)
  (∃ summary, alone.1 = .ok summary) ∧
    match tree.publish (.after trees) with
    | none =>
        (∃ e, run.1 = .error e ∧ e.errorClass = .seedConfigurationError) ∧
          run.2.database = before.database
    | some _ =>
        (∃ summary, run.1 = .ok summary) ∧
          ∀ library ∈ publicLibraries, ∀ path text,
            run.2.database.Publishes library path text ↔
              if path ∈ (tree.entries library).map Prod.fst then
                alone.2.database.Publishes library path text
              else before.database.Publishes library path text

theorem seedPublicLibraries_converges {rt : Runtime} (hnever : rt.NeverFails)
    {known : Bytes → Prop} (hsha : CollisionFree rt known) {trees : List SeedTree} {tree : SeedTree}
    (hwell : ∀ t ∈ tree :: trees, t.WellFormed) (hknown : ∀ t ∈ tree :: trees, t.KnownTo known)
    (users : List Uuid) : Synchronizes rt users trees tree := by
  obtain ⟨hwellHead, hwell⟩ := List.forall_mem_cons.mp hwell
  obtain ⟨hknownHead, hknown⟩ := List.forall_mem_cons.mp hknown
  have hempty := Stocked.empty rt known users
  obtain ⟨hsound, hbefore⟩ := stocked_after hsha hnever (.empty users) hempty hwell hknown
  obtain ⟨halone, _⟩ := runSeedCommand_heeds hsha hnever (.empty users) hempty hwellHead hknownHead
  obtain ⟨hrun, hkept⟩ := runSeedCommand_heeds hsha hnever hsound hbefore hwellHead hknownHead
  obtain ⟨fresh, hfresh⟩ := Option.isSome_iff_exists.mp (publish_empty_isSome hwellHead)
  rw [hfresh] at halone
  refine ⟨halone.1, ?_⟩
  cases hverdict : tree.publish (.after trees) with
  | none =>
    have hrefused : tree.publish (trees.foldl SeedTree.publishOver .empty) = none := hverdict
    rw [hrefused] at hrun
    exact ⟨hrun, hkept hverdict⟩
  | some shelves =>
    have haccepted : tree.publish (trees.foldl SeedTree.publishOver .empty) = some shelves :=
      hverdict
    rw [haccepted] at hrun
    refine ⟨hrun.1, ?_⟩
    intro library hlibrary path text
    have hafter := (hrun.2.carries library hlibrary).publishes_iff hrun.2.intact path text
    split
    case isTrue hpath =>
      have hsame := (halone.2.carries library hlibrary).publishes_iff halone.2.intact path text
      obtain ⟨entry, hentry, rfl⟩ := List.mem_map.mp hpath
      have hpaths := entries_paths_nodup tree library
      rw [Bookshelf.get?_publishAll_of_mem (publish_eq_some haccepted hlibrary) hpaths hentry] at hafter
      rw [Bookshelf.get?_publishAll_of_mem (publish_eq_some hfresh hlibrary) hpaths hentry] at hsame
      exact hafter.trans hsame.symm
    case isFalse hpath =>
      have hold := (hbefore.carries library hlibrary).publishes_iff hbefore.intact path text
      rw [Bookshelf.get?_publishAll_of_not_mem (publish_eq_some haccepted hlibrary) hpath] at hafter
      exact hafter.trans hold.symm

theorem firstFault_none (size offset : Nat) (pieces : List (List Chunk)) :
    Pipeline.firstFault (fun _ => none) size offset pieces = none := by
  induction pieces generalizing offset with
  | nil => rfl
  | cons piece pieces ih => exact ih (offset + size)

theorem zipStrict_withoutVectors (chunkData : List ChunkData) :
    zipStrict chunkData (withoutVectors chunkData).vectors =
      .ok (chunkData.zip (withoutVectors chunkData).vectors) := by
  have hlength : (withoutVectors chunkData).vectors.length = chunkData.length :=
    List.length_replicate
  rw [zipStrict, hlength, if_neg (Nat.lt_irrefl _), if_neg (Nat.lt_irrefl _)]

theorem Runtime.reliable_neverFails : Runtime.reliable.NeverFails := by
  refine ⟨fun _ _ => rfl, ?_⟩
  intro source collection filename fileBytes metadata countTokens documentId createdAt hkind
  obtain ⟨chunker, hchunker⟩ : ∃ chunker,
      TextChunker.init (countTokens.getD List.length) 512 51 = .ok chunker := by
    refine ⟨_, dif_neg (by decide) |>.trans ((dif_neg (by decide)).trans (dif_neg (by decide)))⟩
  let text := (decodeAscii fileBytes).strip
  let chunkData := chunker.preserveAsSingleChunk text
  have hchunkerFor : chunkerFor Runtime.reliable collection.kind countTokens =
      .ok (none, chunker) := by
    rw [chunkerFor, if_pos hkind]
    have hsettings : TextChunker.init (countTokens.getD List.length)
        Runtime.reliable.settings.chunkSize Runtime.reliable.settings.chunkOverlap = .ok chunker :=
      hchunker
    rw [hsettings]
    rfl
  have hencode : Pipeline.encode Runtime.reliable none collection.kind none chunkData =
      .ok (withoutVectors chunkData) := if_pos hkind
  have hchunks : chunkForCollection text collection.kind chunker = .ok chunkData := if_pos hkind
  have hfaults : ∀ pieces, Pipeline.firstFault (Runtime.reliable.flushFault filename)
      Runtime.reliable.settings.ingestBatchSize 0 pieces = none := fun pieces =>
    firstFault_none _ 0 pieces
  have hflush : ∀ point, Runtime.reliable.flushFault filename point = none := fun _ => rfl
  have hparse : Runtime.reliable.parseFile filename fileBytes = .ok ⟨decodeAscii fileBytes,
      filename.takeWhile (· ≠ '.'), [("encoding".toList, .text "ascii".toList)], "txt-v1".toList⟩ :=
    rfl
  have hclean : Runtime.reliable.clean (decodeAscii fileBytes) = .ok text := rfl
  simp only [Pipeline.outcome, hflush, hparse, hclean, hchunkerFor, hchunks, Pipeline.reach,
    Pipeline.python, Except.mapError, bind, Except.bind, pure, Except.pure]
  split
  · exact ⟨_, rfl⟩
  · simp only [hencode, zipStrict_withoutVectors, hfaults]
    exact ⟨_, rfl⟩

def sampleTree (rules : Table SeedEntry.relativePath) : SeedTree := fun directory =>
  if directory = rulesLibrary.directory then some rules else some .empty

def soloTree (path text : Str) : SeedTree :=
  sampleTree ⟨[⟨path, true, some text⟩], List.nodup_singleton _⟩

theorem soloTree_wellFormed (path text : Str) : (soloTree path text).WellFormed := by
  intro library hlibrary
  rcases List.mem_cons.mp hlibrary with rfl | hlibrary
  · refine ⟨⟨_, rfl, ?_⟩, List.nodup_singleton _⟩
    intro entry hentry _
    rw [List.mem_singleton.mp hentry]
    exact Option.some_ne_none text
  · rw [List.mem_singleton.mp hlibrary]
    refine ⟨⟨.empty, rfl, fun entry hentry => absurd hentry (Table.not_mem_empty entry)⟩, ?_⟩
    exact List.nodup_nil

theorem sampleTree_empty_wellFormed : (sampleTree .empty).WellFormed := by
  intro library hlibrary
  have hempty : sampleTree .empty library.directory = some .empty := by
    rw [sampleTree, ite_self]
  refine ⟨⟨.empty, hempty, fun entry hentry => absurd hentry (Table.not_mem_empty entry)⟩, ?_⟩
  rw [SeedTree.entries, hempty]
  exact List.nodup_nil

theorem seedPublicLibraries_converges_edited :
    Synchronizes Runtime.reliable [] [soloTree "tone.md".toList "a".toList]
      (soloTree "tone.md".toList "b".toList) := by
  have hsha : CollisionFree Runtime.reliable (· ∈ [[97], [98]]) := by
    have hdistinct : ∀ a ∈ [[97], [98]], ∀ b ∈ [[97], [98]],
        Runtime.reliable.sha256 a = Runtime.reliable.sha256 b → a = b := by decide +kernel
    exact fun a b ha hb => hdistinct a ha b hb
  apply seedPublicLibraries_converges Runtime.reliable_neverFails hsha
  · intro t ht
    rcases List.mem_cons.mp ht with rfl | ht
    · exact soloTree_wellFormed _ _
    · rw [List.mem_singleton.mp ht]
      exact soloTree_wellFormed _ _
  · intro t ht
    rcases List.mem_cons.mp ht with rfl | ht
    · unfold SeedTree.KnownTo
      decide +kernel
    · rw [List.mem_singleton.mp ht]
      unfold SeedTree.KnownTo
      decide +kernel

theorem not_converges_renamed_removed :
    (∀ tree ∈ [soloTree "tone.md".toList "a".toList, soloTree "voice.md".toList "a".toList,
      sampleTree .empty], tree.WellFormed) ∧ Runtime.reliable.NeverFails ∧
    (∃ e, (transact (runSeedCommand Runtime.reliable (soloTree "voice.md".toList "a".toList))
      (Operation.performAll
        [.seedPublicLibraries Runtime.reliable (soloTree "tone.md".toList "a".toList)]
        (.empty []))).1 = .error e) ∧
    (Operation.performAll
      [.seedPublicLibraries Runtime.reliable (soloTree "tone.md".toList "a".toList),
        .seedPublicLibraries Runtime.reliable (sampleTree .empty)]
      (.empty [])).database.Publishes rulesLibrary "tone.md".toList "a".toList ∧
    ¬ (Operation.performAll
      [.seedPublicLibraries Runtime.reliable (sampleTree .empty)]
      (.empty [])).database.Publishes rulesLibrary "tone.md".toList "a".toList := by
  refine ⟨?_, Runtime.reliable_neverFails, ⟨contentTaken "tone.md".toList, by decide +kernel⟩,
    by decide +kernel, by decide +kernel⟩
  intro tree htree
  rcases List.mem_cons.mp htree with rfl | htree
  · exact soloTree_wellFormed _ _
  · rcases List.mem_cons.mp htree with rfl | htree
    · exact soloTree_wellFormed _ _
    · rw [List.mem_singleton.mp htree]
      exact sampleTree_empty_wellFormed

end YCStudio
