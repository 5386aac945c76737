import YCStudio.Consistency.Adoptions
import YCStudio.Consistency.Uploads
import YCStudio.Store.Storage

namespace YCStudio

structure World.Owes (w : World) (pending : List Write) (events : List Event) : Prop where
  accepted : w.view.firstRefusal pending = none
  follows : w.Follows (w.advance pending 0) events

namespace World

variable {w w' w'' : World} {events : List Event} {pending : List Write}

theorem Ready.owes_nil (h : w.Ready) : w.Owes [] [] := by
  refine ⟨Database.firstRefusal_nil _, ?_⟩
  rw [advance_nil]
  exact .refl h

theorem Follows.withFiles (h : w.Follows w' events) (files : Files) :
    w.Follows { w' with files } events :=
  ⟨⟨⟨h.ready.sound.intact, h.ready.sound.before⟩, h.ready.active, h.ready.savepoint⟩, h.view,
    h.admissible, h.database, h.stream, h.now, h.refused, h.drawn⟩

end World

section Pending

variable {w : World} (hready : w.Ready) {pending : List Write} {events : List Event}

include hready

theorem flushPending_runs (howes : w.Owes pending events) (fault : Option Exn) :
    (∃ e w', Runs (flushPending fault pending) w (.error e) w' ∧ w.Keeps w') ∨
      Runs (flushPending fault pending) w (.ok ()) (w.advance pending 0) := by
  rw [flushPending]
  split
  case isTrue hempty =>
    subst hempty
    right
    rw [World.advance_nil]
    exact Runs.pure ()
  case isFalse hpending =>
    cases fault with
    | some e =>
      have hlost : w.Lost ((w.advance [] 0).refuse []) := World.lost_refuse 0
      rw [World.advance_nil] at hlost
      exact Or.inl ⟨e, _, Runs.flushFault hready.active e pending, hlost.keeps⟩
    | none => exact Or.inr (Runs.flush hready.active howes.accepted)

end Pending

section Admit

variable {w : World} (hready : w.Ready) {batch : IngestBatch}
  (hbatch : batch ∈ w.view.ingestBatches)

include hready hbatch

theorem owes_addSource {source : Source}
    (hcollection : ∃ collection ∈ w.view.kbCollections, collection.id = batch.collectionId)
    (hsource : source.collectionId = batch.collectionId) (hid : source.batchId = some batch.id)
    (hadmits : Event.Admits source) (hcontent : ¬ w.view.sameContent source)
    (hfresh : w.view.sources.Fresh source.id)
    (hdrawn : source.id.Drawn w.session.stream w.session.drawn) :
    w.Owes [.insertSource source] [.addSource source] := by
  have hpresent : ∀ id ∈ source.batchId, Event.BatchIn w.view id source.collectionId := by
    intro id hid'
    obtain rfl : batch.id = id := Option.some.inj (hid.symm.trans hid')
    exact ⟨batch, hbatch, rfl, hsource.symm⟩
  have hmissing : ¬ w.view.batchMissing source.batchId := by
    rintro ⟨id, hid', hnone⟩
    obtain ⟨other, hother, rfl, _⟩ := hpresent id (Option.mem_toList.mp hid')
    rw [Table.get?_key hother] at hnone
    cases hnone
  obtain ⟨collection, hmem, hcid⟩ := hcollection
  have hget : w.view.kbCollections.get? source.collectionId = some collection :=
    Table.get?_eq_some_iff.mpr ⟨hmem, hcid.trans hsource.symm⟩
  constructor
  · rw [Database.firstRefusal_singleton]
    exact Database.refusal_insertSource hfresh hcontent hget hmissing
  · apply hready.follows rfl
    · exact ⟨hfresh, hadmits, hcontent, ⟨collection, hmem, hcid.trans hsource.symm⟩, hpresent⟩
    · intro id hid'
      rw [List.mem_singleton.mp hid']
      exact hdrawn

theorem owes_assignBatch {source : Source} (hsource : source ∈ w.view.sources)
    (hcollection : source.collectionId = batch.collectionId) (hadmits : Event.Admits source) :
    w.Owes [.updateSource source (source.withBatch batch.id)] [.assignBatch source batch.id] := by
  have hmissing : ¬ w.view.batchMissing (source.withBatch batch.id).batchId := by
    rintro ⟨id, hid, hnone⟩
    obtain rfl : batch.id = id := Option.some.inj (Option.mem_toList.mp hid)
    rw [Table.get?_key hbatch] at hnone
    cases hnone
  constructor
  · rw [Database.firstRefusal_singleton]
    exact Database.refusal_updateSource hsource (Or.inl rfl) (Or.inr hmissing)
  · have happly : w.view.applyAll [.updateSource source (source.withBatch batch.id)] =
        Event.apply (.assignBatch source batch.id) w.view :=
      Database.apply_updateSource hsource rfl rfl rfl
    apply hready.follows happly
    · exact ⟨hsource, hadmits, batch, hbatch, rfl, hcollection.symm⟩
    · exact fun _ h => absurd h List.not_mem_nil

theorem admitUpload_runs (rt : Runtime) (upload : PendingUpload) {dirPath : Option Str}
    (hdirPath : normaliseDirPath upload.dirPath = .ok dirPath)
    (hcollection : ∃ collection ∈ w.view.kbCollections, collection.id = batch.collectionId) :
    let contentHash := computeContentHash rt upload.fileBytes
    (∃ e w', Runs (admitUpload rt batch upload contentHash dirPath) w (.error e) w' ∧
        w.Keeps w') ∨
      ∃ source write w' admitted owed,
        Runs (admitUpload rt batch upload contentHash dirPath) w (.ok (source, write)) w' ∧
          w.Follows w' admitted ∧ w'.Owes [write] owed ∧
          Adoption rt batch w.view upload source (admitted ++ owed) := by
  intro contentHash
  obtain ⟨existing, hexisting⟩ : ∃ existing : Option Source, Query.answer w.view
      (.sourceByHash batch.collectionId contentHash) = existing := ⟨_, rfl⟩
  have hfind := Runs.select hready.active (.sourceByHash batch.collectionId contentHash)
  cases existing with
  | none =>
    let source : Source := newSource batch.collectionId (some batch.id) upload.filename contentHash
      dirPath ⟨w.session.stream, w.session.drawn⟩ w.session.now
    have hdrawn := hready.draw 1
    have howes : (w.advance [] 1).Owes [.insertSource source] [.addSource source] := by
      refine owes_addSource hdrawn.ready ?_ ?_ rfl rfl ⟨rfl, rfl, rfl⟩ ?_ ?_ ?_
      · rw [World.view_advance]
        exact hbatch
      · rw [World.view_advance]
        exact hcollection
      · rw [World.view_advance]
        exact Query.sourceByHash_eq_none hexisting rfl rfl
      · rw [World.view_advance]
        exact fun row hrow => (hready.sound.before.sources row hrow).ne (Nat.le_refl _)
      · exact Uuid.drawn_draw (Nat.lt_add_one 0)
    refine Or.inr ⟨source, .insertSource source, w.advance [] 1, [], [.addSource source], ?_,
      hdrawn, howes, .added hdirPath hexisting⟩
    refine hfind.bind ?_
    rw [hexisting]
    exact Runs.newId.bind (Runs.now.bind (Runs.pure _))
  | some existing =>
    obtain ⟨hmem, hcid, _⟩ := Query.sourceByHash_eq_some hexisting
    by_cases hreingestable : isReingestable existing = true
    · cases hfault : rt.flushFault upload.filename .reset with
      | some e =>
        obtain ⟨w', hruns, hlost⟩ : ∃ w', Runs (resetSourceForReingest (some e) existing
            upload.filename dirPath) w (.error e) w' ∧ w.Lost w' :=
          resetSourceForReingest_lost hready e upload.filename dirPath
        refine Or.inl ⟨e, w', ?_, hlost.keeps⟩
        refine hfind.bind ?_
        rw [hexisting]
        simp only [hreingestable, if_true, hfault]
        exact hruns.stop
      | none =>
        let source := existing.reopen upload.filename dirPath
        obtain ⟨w', hruns, hfollows, _⟩ :=
          resetSourceForReingest_runs hready hmem upload.filename dirPath
        have hview : w'.view = (w.view.dropDocuments [existing.id]).putSource source := hfollows.view
        have hbatch' : batch ∈ w'.view.ingestBatches := by
          rw [hview]
          exact hbatch
        have hadmission : w.Follows w' [admission (some existing) source] := hfollows
        obtain ⟨hsource, hadmits⟩ := hadmission.source_mem
        refine Or.inr ⟨source.withBatch batch.id, .updateSource source (source.withBatch batch.id),
          w', _, [.assignBatch source batch.id], ?_, hfollows,
          owes_assignBatch hfollows.ready hbatch' hsource hcid hadmits,
          .reopened hdirPath hexisting hreingestable hfault⟩
        refine hfind.bind ?_
        rw [hexisting]
        simp only [hreingestable, if_true, hfault]
        exact hruns.bind (Runs.pure _)
    · refine Or.inl ⟨Exn.valueError
        "This collection already contains one of the uploaded files.".toList, w, ?_,
        (World.Follows.refl hready).keeps⟩
      refine hfind.bind ?_
      rw [hexisting]
      simp only [hreingestable]
      exact Runs.raise _

end Admit

section Uploads

variable (rt : Runtime) {batch : IngestBatch}

theorem admitUploads_runs {uploads : List PendingUpload} {w : World} (hready : w.Ready)
    (hbatch : batch ∈ w.view.ingestBatches)
    (hcollection : ∃ collection ∈ w.view.kbCollections, collection.id = batch.collectionId)
    {index : Nat} {seenHashes : List Str} {pending : List Write} {owed : List Event}
    (howes : w.Owes pending owed)
    (howed : ∀ e ∈ owed, ∃ sourceId, e.Enters batch.collectionId sourceId) :
    (∃ e w', Runs (admitUploads rt batch index seenHashes pending uploads) w (.error e) w' ∧
        w.Keeps w') ∨
      ∃ sources w' groups,
        Runs (admitUploads rt batch index seenHashes pending uploads) w (.ok sources) w' ∧
          w.Follows w' (owed ++ groups.flatten) ∧
          Adoptions rt batch (Event.play owed w.view) uploads sources groups := by
  induction uploads generalizing w index seenHashes pending owed with
  | nil =>
    rw [admitUploads]
    rcases flushPending_runs hready howes (rt.flushFault [] (.upload index)) with
      ⟨e, w', hflush, hkeeps⟩ | hflush
    · exact Or.inl ⟨e, w', hflush.stop, hkeeps⟩
    · refine Or.inr ⟨[], _, [], hflush.bind (Runs.pure []), ?_, .nil⟩
      rw [List.flatten_nil, List.append_nil]
      exact howes.follows
  | cons upload uploads ih =>
    rw [admitUploads]
    by_cases hseen : computeContentHash rt upload.fileBytes ∈ seenHashes
    · simp only [if_pos hseen]
      exact Or.inl ⟨_, w, (Runs.raise _).stop, (World.Follows.refl hready).keeps⟩
    · simp only [if_neg hseen]
      cases hpath : normaliseDirPath upload.dirPath with
      | error e =>
        exact Or.inl ⟨e, w, (Runs.attempt (.error e)).stop, (World.Follows.refl hready).keeps⟩
      | ok dirPath =>
        rcases flushPending_runs hready howes (rt.flushFault upload.filename (.upload index)) with
          ⟨e, w', hflush, hkeeps⟩ | hflush
        · exact Or.inl ⟨e, w', (Runs.attempt (.ok dirPath)).bind hflush.stop, hkeeps⟩
        · obtain ⟨hbatches, hcollections⟩ := Event.Enters.play howed w.view
          rw [← howes.follows.view] at hbatches hcollections
          rcases admitUpload_runs howes.follows.ready (hbatches.symm ▸ hbatch) rt upload hpath
              (hcollections.symm ▸ hcollection) with
            ⟨e, w', hruns, hkeeps⟩ | ⟨source, write, w', admitted, owed', hruns, hadmitted, howes',
              hadopts⟩
          · exact Or.inl ⟨e, w', (Runs.attempt (.ok dirPath)).bind (hflush.bind hruns.stop),
              howes.follows.keeps_trans hkeeps⟩
          · have hentered : ∀ e ∈ admitted, ∃ sourceId, e.Enters batch.collectionId sourceId :=
              fun e he => ⟨source.id, hadopts.adopts.enters e (List.mem_append_left _ he)⟩
            have howed' : ∀ e ∈ owed', ∃ sourceId, e.Enters batch.collectionId sourceId :=
              fun e he => ⟨source.id, hadopts.adopts.enters e (List.mem_append_right _ he)⟩
            obtain ⟨hbatches', hcollections'⟩ :=
              Event.Enters.play hentered (w.advance pending 0).view
            rw [← hadmitted.view] at hbatches' hcollections'
            have hbatch' : batch ∈ w'.view.ingestBatches := by
              rw [hbatches', hbatches]
              exact hbatch
            have hcollection' : ∃ collection ∈ w'.view.kbCollections,
                collection.id = batch.collectionId := by
              rw [hcollections', hcollections]
              exact hcollection
            have hsofar := howes.follows.trans hadmitted
            rcases ih hadmitted.ready hbatch' hcollection' howes' howed' with
              ⟨e, w'', hrest, hkeeps⟩ | ⟨sources, w'', groups, hrest, hfollows, hall⟩
            · exact Or.inl ⟨e, w'', (Runs.attempt (.ok dirPath)).bind
                (hflush.bind (hruns.bind hrest.stop)), hsofar.keeps_trans hkeeps⟩
            · refine Or.inr ⟨source :: sources, w'', (admitted ++ owed') :: groups,
                (Runs.attempt (.ok dirPath)).bind
                  (hflush.bind (hruns.bind (hrest.bind (Runs.pure _)))), ?_, ?_⟩
              · have hevents := hsofar.trans hfollows
                simpa only [List.flatten_cons, List.append_assoc] using hevents
              · rw [howes.follows.view] at hadopts
                rw [hadmitted.view, howes.follows.view, Event.play, Event.play,
                  ← History.play_append] at hall
                exact .cons hadopts hall

end Uploads

def originalsOf (sources : List Source) (uploads : List PendingUpload) : List Original :=
  (sources.zip uploads).map fun pair =>
    ((pair.1.id, purePathName pair.1.filename), pair.2.fileBytes)

theorem saveOriginals_runs (rt : Runtime) {index : Nat} {pairs : List (Source × PendingUpload)}
    {w : World} :
    ∃ r, Runs (saveOriginals rt index pairs) w r
        { w with
          files := w.files.receiveAll rt.saveFault index (pairs.map fun pair =>
            ((pair.1.id, purePathName pair.1.filename), pair.2.fileBytes)) } ∧
      (r = .ok () ↔ ∀ i < pairs.length, rt.saveFault (index + i) = none) := by
  induction pairs generalizing index w with
  | nil =>
    refine ⟨.ok (), Runs.pure (), ?_⟩
    simp
  | cons pair pairs ih =>
    obtain ⟨source, upload⟩ := pair
    cases hfault : rt.saveFault index with
    | some fault =>
      refine ⟨.error fault.exn, ?_, ?_⟩
      · rw [saveOriginals, List.map_cons, Files.receiveAll, hfault, if_neg (Option.some_ne_none fault)]
        exact Runs.stop rfl
      · constructor
        · intro h
          cases h
        · intro h
          have hnone := h 0 (Nat.zero_lt_succ _)
          rw [Nat.add_zero, hfault] at hnone
          cases hnone
    | none =>
      have hsaved : Runs (saveFile none source.id (purePathName source.filename) upload.fileBytes) w
          (.ok ()) { w with
            files := w.files.store (source.id, purePathName source.filename) upload.fileBytes } :=
        rfl
      obtain ⟨r, hruns, hiff⟩ := @ih (index + 1) _
      refine ⟨r, ?_, hiff.trans ?_⟩
      · rw [saveOriginals, List.map_cons, Files.receiveAll, hfault, if_pos rfl]
        exact hsaved.bind hruns
      · constructor
        · rintro h (_ | i) hi
          · exact hfault
          · have hrest := h i (Nat.lt_of_succ_lt_succ hi)
            rwa [Nat.add_assoc, Nat.add_comm 1 i] at hrest
        · intro h i hi
          have hrest := h (i + 1) (Nat.succ_lt_succ hi)
          rwa [Nat.add_assoc, Nat.add_comm 1 i]

structure Acceptance (rt : Runtime) (db : Database) (user collectionId : Uuid)
    (metadata : List (Str × Str)) (uploads : List PendingUpload) (batch : IngestBatch)
    (sources : List Source) (groups : List (List Event)) : Prop where
  owned : ∃ collection, db.kbCollections.get? collectionId = some collection ∧
    collection.OwnedBy user
  collectionId_eq : batch.collectionId = collectionId
  userId : batch.userId = user
  uploadMetadata : batch.uploadMetadata = metadata
  adoptions : Adoptions rt batch (db.addBatch batch) uploads sources groups

def Runtime.Lands (rt : Runtime) (count : Nat) : Prop :=
  (∀ i < count, rt.saveFault i = none) ∧ rt.flushFault [] .commit = none

instance (rt : Runtime) (count : Nat) : Decidable (rt.Lands count) :=
  inferInstanceAs (Decidable (_ ∧ _))

section Batch

variable {w : World} (hready : w.Ready) (rt : Runtime) {user collectionId : Uuid}
  {kind : CollectionKind} (metadata : List (Str × Str)) (uploads : List PendingUpload)

include hready

theorem insertBatch_follows {collection : Collection} {batch : IngestBatch}
    (hcollection : w.view.kbCollections.get? collectionId = some collection)
    (howned : collection.OwnedBy user) (hid : batch.id = ⟨w.session.stream, w.session.drawn⟩)
    (hbatch : batch.collectionId = collection.id) (huser : batch.userId = user) :
    (w.advance [] 1).view.firstRefusal [.insertBatch batch] = none ∧
      w.Follows (w.advance [.insertBatch batch] 1) [.addBatch batch] := by
  obtain ⟨hmem, hcid⟩ := Table.get?_eq_some_iff.mp hcollection
  have hfresh : w.view.ingestBatches.Fresh batch.id := by
    rw [hid]
    exact fun row hrow => (hready.sound.before.batches row hrow).ne (Nat.le_refl _)
  have huser' : user ∈ w.view.users :=
    hready.sound.intact.owners collection hmem user howned.userId
  constructor
  · rw [World.view_advance, Database.firstRefusal_singleton]
    have hpresent : w.view.kbCollections.get? batch.collectionId = some collection := by
      rw [hbatch, hcid]
      exact hcollection
    exact Database.refusal_insertBatch hfresh hpresent (huser ▸ huser')
  · apply hready.follows rfl
    · exact ⟨hfresh, collection, hmem, hbatch.symm, huser ▸ howned.userId⟩
    · intro id hid'
      rw [List.mem_singleton.mp hid', hid]
      exact Uuid.drawn_draw (Nat.lt_add_one 0)

theorem createPendingBatch_runs (user collectionId : Uuid) (kind : CollectionKind) :
    (∃ e w', Runs (createPendingBatch rt user collectionId kind metadata uploads) w (.error e) w' ∧
        w.Keeps w') ∨
      ∃ batch sources w' groups,
        Runs (createPendingBatch rt user collectionId kind metadata uploads) w
            (.ok (batch, sources)) w' ∧
          w.Follows w' (.addBatch batch :: groups.flatten) ∧
          Acceptance rt w.view user collectionId metadata uploads batch sources groups := by
  rcases ownedPrivateCollection_cases hready.active user collectionId kind with
    ⟨e, hrefused⟩ | ⟨collection, hcollection, howned, hkind⟩
  · exact Or.inl ⟨e, w, hrefused.stop, (World.Follows.refl hready).keeps⟩
  · obtain ⟨hmem, hcid⟩ := Table.get?_eq_some_iff.mp hcollection
    have hruns := ownedPrivateCollection_runs hready.active hcollection howned hkind
    let batch : IngestBatch := ⟨⟨w.session.stream, w.session.drawn⟩, collection.id, user, metadata⟩
    obtain ⟨haccepted, hfollows⟩ :=
      @insertBatch_follows w hready user collectionId collection batch hcollection howned rfl rfl rfl
    have hactive : (w.advance [] 1).session.health = .active := hready.active
    cases hfault : rt.flushFault [] .batch with
    | some e =>
      have hlost : w.Lost ((w.advance [] 1).refuse []) := World.lost_refuse 1
      have hflush := Runs.flushFault hactive e [.insertBatch batch]
      rw [← hfault] at hflush
      exact Or.inl ⟨e, _, hruns.bind (Runs.newId.bind hflush.stop), hlost.keeps⟩
    | none =>
      have hflush := Runs.flush hactive haccepted
      rw [← hfault, World.advance_advance] at hflush
      have hbatch : batch ∈ (w.advance [.insertBatch batch] 1).view.ingestBatches := by
        rw [hfollows.view]
        exact (Table.mem_insert hfollows.admissible.1.1).mpr (Or.inr rfl)
      have hpresent : ∃ collection ∈ (w.advance [.insertBatch batch] 1).view.kbCollections,
          collection.id = batch.collectionId := by
        rw [hfollows.view]
        exact ⟨collection, hmem, rfl⟩
      rcases @admitUploads_runs rt batch uploads _ hfollows.ready hbatch hpresent 0 [] [] []
          hfollows.ready.owes_nil (fun _ h => absurd h List.not_mem_nil) with
        ⟨e, w', hentry, hkeeps⟩ | ⟨sources, w', groups, hentry, hentered, hadoptions⟩
      · exact Or.inl ⟨e, w', hruns.bind (Runs.newId.bind (hflush.bind hentry.stop)),
          hfollows.keeps_trans hkeeps⟩
      · rw [Event.play, History.play_nil, hfollows.view] at hadoptions
        exact Or.inr ⟨batch, sources, w', groups,
          hruns.bind (Runs.newId.bind (hflush.bind (hentry.bind (Runs.pure _)))),
          hfollows.trans hentered, ⟨⟨collection, hcollection, howned⟩, hcid, rfl, rfl, hadoptions⟩⟩

omit hready in
theorem uploadBatch_lands {batch : IngestBatch} {sources : List Source} {w' : World}
    {events : List Event}
    (hruns : Runs (createPendingBatch rt user collectionId kind metadata uploads) w
      (.ok (batch, sources)) w')
    (hfollows : w.Follows w' events) (hlength : sources.length = uploads.length) :
    ∃ result w'',
      Runs (uploadBatch rt user collectionId kind metadata uploads) w result w'' ∧
        w''.files = w'.files.receiveAll rt.saveFault 0 (originalsOf sources uploads) ∧
        if rt.Lands uploads.length then result = .ok (batch, sources) ∧ w.Ends w'' events
        else (∃ e, result = .error e) ∧ w.Ends w'' [] := by
  obtain ⟨r, hsave, hiff⟩ := @saveOriginals_runs rt 0 (sources.zip uploads) w'
  have hzip : (sources.zip uploads).length = uploads.length := by
    rw [List.length_zip, hlength, Nat.min_self]
  have hsaved := hfollows.withFiles
    (w'.files.receiveAll rt.saveFault 0 (originalsOf sources uploads))
  rw [hzip] at hiff
  simp only [Nat.zero_add] at hiff
  cases r with
  | error e =>
    refine ⟨.error e, _, hruns.bind hsave.stop, rfl, ?_⟩
    rw [if_neg fun hlands => nomatch hiff.mpr hlands.1]
    exact ⟨⟨e, rfl⟩, hsaved.keeps.ends⟩
  | ok _ =>
    cases hfault : rt.flushFault [] .commit with
    | some e =>
      have hflush := Runs.flushFault hsaved.ready.active e []
      rw [← hfault] at hflush
      refine ⟨.error e, _, hruns.bind (hsave.bind hflush.stop), rfl, ?_⟩
      have hnot : ¬ rt.Lands uploads.length :=
        fun hlands => Option.some_ne_none e (hfault.symm.trans hlands.2)
      rw [if_neg hnot]
      exact ⟨⟨e, rfl⟩, (hsaved.keeps_trans (World.keeps_refuse _)).ends⟩
    | none =>
      have hflush := Runs.flush hsaved.ready.active (Database.firstRefusal_nil _)
      rw [← hfault, World.advance_nil] at hflush
      obtain ⟨hcommit, hends⟩ := hsaved.commit
      refine ⟨.ok (batch, sources), _,
        hruns.bind (hsave.bind (hflush.bind (hcommit.bind (Runs.pure _)))), rfl, ?_⟩
      rw [if_pos ⟨hiff.mp rfl, hfault⟩]
      exact ⟨rfl, hends⟩

def Batched (db : Database) (user collectionId : Uuid)
    (result : Except Exn (IngestBatch × List Source)) (events : List Event) : Prop :=
  (∃ e, result = .error e ∧ events = []) ∨
    ∃ collection batch sources groups,
      db.kbCollections.get? collectionId = some collection ∧ collection.OwnedBy user ∧
        result = .ok (batch, sources) ∧ events = .addBatch batch :: groups.flatten ∧
        batch.collectionId = collectionId ∧ Event.AdoptsAll batch sources groups

theorem uploadBatch_ends (user collectionId : Uuid) (kind : CollectionKind) :
    ∃ events,
      w.Ends (exec (uploadBatch rt user collectionId kind metadata uploads) w).2 events ∧
        Batched w.view user collectionId
          (exec (uploadBatch rt user collectionId kind metadata uploads) w).1 events := by
  rcases createPendingBatch_runs hready rt metadata uploads user collectionId kind with
    ⟨e, w', hruns, hkeeps⟩ | ⟨batch, sources, w', groups, hruns, hfollows, haccepted⟩
  · have hstop : Runs (uploadBatch rt user collectionId kind metadata uploads) w (.error e) w' :=
      hruns.stop
    rw [hstop]
    exact ⟨[], hkeeps.ends, Or.inl ⟨e, rfl, rfl⟩⟩
  · obtain ⟨result, w'', hdone, _, hlands⟩ :=
      uploadBatch_lands rt metadata uploads hruns hfollows haccepted.adoptions.length_eq
    obtain ⟨collection, hcollection, howned⟩ := haccepted.owned
    rw [hdone]
    split at hlands
    · exact ⟨_, hlands.2, Or.inr ⟨collection, batch, sources, groups, hcollection, howned,
        hlands.1, rfl, haccepted.collectionId_eq, haccepted.adoptions.adoptsAll⟩⟩
    · exact ⟨[], hlands.2, Or.inl (hlands.1.imp fun _ he => ⟨he, rfl⟩)⟩

end Batch

end YCStudio
