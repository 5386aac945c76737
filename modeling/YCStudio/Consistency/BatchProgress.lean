import YCStudio.Consistency.Coherence
import YCStudio.Services.Reads

namespace YCStudio

def Event.enrols : Event → Option (Uuid × Uuid)
  | addSource source => source.batchId.map (source.id, ·)
  | assignBatch source batchId => some (source.id, batchId)
  | _ => none

def Event.Drops (e : Event) (collectionId : Uuid) : Prop := e = .dropCollection collectionId

namespace Database

variable {db : Database} {id batchId : Uuid}

def batchOf (db : Database) (id : Uuid) : Option Uuid := (db.sources.get? id).bind Source.batchId

def membersOf (db : Database) (batchId : Uuid) : List Uuid :=
  (db.sources.rows.filter (·.batchId = some batchId)).map Source.id

theorem batchOf_eq_some : db.batchOf id = some batchId ↔
    ∃ source ∈ db.sources, source.id = id ∧ source.batchId = some batchId := by
  rw [batchOf, Option.bind_eq_some_iff]
  simp only [Table.get?_eq_some_iff, and_assoc]

theorem batchOf_mem {source : Source} (hsource : source ∈ db.sources) :
    db.batchOf source.id = source.batchId := by
  rw [batchOf, Table.get?_key hsource, Option.bind_some]

theorem mem_membersOf : id ∈ db.membersOf batchId ↔ db.batchOf id = some batchId := by
  rw [batchOf_eq_some, membersOf, List.mem_map]
  simp only [List.mem_filter, decide_eq_true_iff, and_assoc]
  constructor
  · rintro ⟨source, hsource, hbatch, hid⟩
    exact ⟨source, hsource, hid, hbatch⟩
  · rintro ⟨source, hsource, hid, hbatch⟩
    exact ⟨source, hsource, hbatch, hid⟩

theorem nodup_membersOf (db : Database) (batchId : Uuid) : (db.membersOf batchId).Nodup :=
  List.Nodup.sublist (List.Sublist.map Source.id List.filter_sublist) db.sources.nodup

theorem batchOf_putSource {source assigned : Source} (hsource : source ∈ db.sources)
    (hid : assigned.id = source.id) (id : Uuid) :
    (db.putSource assigned).batchOf id =
      if source.id = id then assigned.batchId else db.batchOf id := by
  split
  case isTrue h =>
    subst h
    rw [← hid]
    exact batchOf_mem (mem_putSource hsource hid.symm)
  case isFalse h =>
    rw [batchOf, (AgreesOff.putSource db hid).sources id (Ne.symm h), batchOf]

theorem batchOf_kept {source assigned : Source} (hsource : source ∈ db.sources)
    (hid : assigned.id = source.id) (hbatch : assigned.batchId = source.batchId) (id : Uuid) :
    (db.putSource assigned).batchOf id = db.batchOf id := by
  rw [batchOf_putSource hsource hid]
  split
  case isTrue h => rw [hbatch, ← h, batchOf_mem hsource]
  case isFalse h => rfl

theorem batchOf_addSource {source : Source} (hfresh : db.sources.Fresh source.id) (id : Uuid) :
    (db.addSource source).batchOf id = if source.id = id then source.batchId else db.batchOf id := by
  split
  case isTrue h =>
    subst h
    exact batchOf_mem ((Table.mem_insert hfresh).mpr (Or.inr rfl))
  case isFalse h =>
    rw [batchOf, (AgreesOff.addSource db source).sources id (Ne.symm h), batchOf]

theorem batchOf_apply {e : Event} (henabled : e.Enabled db) (hkept : ∀ id, ¬ e.Drops id) (id : Uuid) :
    (e.apply db).batchOf id = e.enrols.elim (db.batchOf id) fun moved =>
      if moved.1 = id then some moved.2 else db.batchOf id := by
  cases e with
  | addCollection collection => rfl
  | addBatch batch => rfl
  | addSource source =>
    rw [Event.apply, batchOf_addSource henabled.1, Event.enrols]
    have hnone : db.batchOf source.id = none := by rw [batchOf, henabled.1.get?, Option.bind_none]
    cases hbatch : source.batchId with
    | none =>
      split
      case isTrue h => rw [← h, hnone]; rfl
      case isFalse h => rfl
    | some batchId => rfl
  | reopen source assigned =>
    obtain ⟨hsource, _, _, hid, _, hbatch⟩ := henabled
    have hdropped : source ∈ (db.dropDocuments [source.id]).sources := hsource
    exact batchOf_kept hdropped hid hbatch id
  | assignBatch source batchId =>
    have hid : (source.withBatch batchId).id = source.id := rfl
    exact batchOf_putSource henabled.1 hid id
  | complete source collection out =>
    have hid : (source.withStatus .completed).id = source.id := rfl
    exact batchOf_kept henabled.1 hid rfl id
  | fail source errorMessage =>
    have hid : (source.fail errorMessage).id = source.id := rfl
    exact batchOf_kept henabled.1 hid rfl id
  | remove source deletedAt =>
    have hsource : source ∈ db.sources := henabled
    have hid : (source.softDelete deletedAt).id = source.id := rfl
    exact batchOf_kept hsource hid rfl id
  | dropCollection collectionId => exact absurd rfl (hkept collectionId)

theorem batchOf_dropCollection (hcoherent : db.Coherent) {batch : IngestBatch}
    (hbatch : batch ∈ db.ingestBatches) {collectionId : Uuid} (hne : batch.collectionId ≠ collectionId)
    (id : Uuid) :
    (db.dropCollection collectionId).batchOf id = some batch.id ↔
      db.batchOf id = some batch.id := by
  have hother : batch.id ∉ (db.batchesOf collectionId).map IngestBatch.id := by
    intro hmem
    obtain ⟨other, hother, hid⟩ := List.mem_map.mp hmem
    obtain ⟨hother, hcollection⟩ := List.mem_filter.mp hother
    rw [Table.eq_of_key_eq hother hbatch hid] at hcollection
    exact hne (of_decide_eq_true hcollection)
  rw [batchOf_eq_some, batchOf_eq_some]
  constructor
  · rintro ⟨source, hsource, hid, hin⟩
    obtain ⟨old, hold, _, rfl⟩ := mem_sources_dropCollection.mp hsource
    exact ⟨old, hold, hid, (Option.filter_eq_some_iff.mp hin).1⟩
  · rintro ⟨source, hsource, hid, hin⟩
    refine ⟨source.leaveBatch ((db.batchesOf collectionId).map IngestBatch.id),
      mem_sources_dropCollection.mpr ⟨source, hsource, ?_, rfl⟩, hid, ?_⟩
    · intro hcollection
      exact hne ((hcoherent.batches source hsource batch hbatch hin).trans hcollection)
    · exact Option.filter_eq_some_iff.mpr ⟨hin, decide_eq_true hother⟩

theorem batchOf_play {events : List Event} (hadmissible : Event.Admissible events db)
    (hkept : ∀ e ∈ events, ∀ id, ¬ e.Drops id) {batchId : Uuid}
    (henrols : ∀ moved ∈ events.filterMap Event.enrols, moved.2 = batchId) (id : Uuid) :
    (Event.play events db).batchOf id =
      if id ∈ (events.filterMap Event.enrols).map Prod.fst then some batchId
      else db.batchOf id := by
  induction events generalizing db with
  | nil => rfl
  | cons e events ih =>
    obtain ⟨hhead, hrest⟩ := List.forall_mem_cons.mp hkept
    have hstep := batchOf_apply hadmissible.1 hhead id
    cases hmoved : e.enrols with
    | none =>
      rw [hmoved] at hstep
      rw [List.filterMap_cons_none hmoved] at henrols ⊢
      rw [Event.play, History.play_cons, ← Event.play, ih hadmissible.2 hrest henrols, hstep]
      rfl
    | some moved =>
      rw [hmoved] at hstep
      rw [List.filterMap_cons_some hmoved] at henrols ⊢
      obtain ⟨hbatch, htail⟩ := List.forall_mem_cons.mp henrols
      rw [Event.play, History.play_cons, ← Event.play, ih hadmissible.2 hrest htail, hstep]
      simp only [Option.elim_some, List.map_cons, List.mem_cons, hbatch]
      grind

end Database

theorem Event.AdoptsAll.enrols {batch : IngestBatch} {sources : List Source}
    {groups : List (List Event)} (h : Event.AdoptsAll batch sources groups) :
    groups.flatten.filterMap Event.enrols = sources.map fun source => (source.id, batch.id) := by
  induction h with
  | nil => rfl
  | cons hhead htail ih =>
    rw [List.flatten_cons, List.filterMap_append, ih, List.map_cons]
    cases hhead with
    | @added source hcollection hid hbatch =>
      have hmoved : (Event.addSource source).enrols = some (source.id, batch.id) := by
        rw [Event.enrols, hbatch, Option.map_some]
      rw [List.filterMap_cons_some hmoved, hid]
      rfl
    | @reopened source assigned hcollection hid hassigned hid' =>
      have hmoved : (Event.assignBatch assigned batch.id).enrols = some (assigned.id, batch.id) :=
        rfl
      rw [List.filterMap_cons_none rfl, List.filterMap_cons_some hmoved, hid']
      rfl

theorem Event.AdoptsAll.keeps {batch : IngestBatch} {sources : List Source}
    {groups : List (List Event)} (h : Event.AdoptsAll batch sources groups) :
    ∀ e ∈ groups.flatten, ∀ id, ¬ e.Drops id := by
  intro e he id hdrops
  obtain ⟨source, _, henters⟩ := h.enters e he
  rw [hdrops] at henters
  cases henters

def Event.Steady (e : Event) : Prop := e.enrols = none ∧ ∀ id, ¬ e.Drops id

theorem SeedStep.steady {rt : Runtime} {db : Database} {collection : Collection} {file : SeedFile}
    {source : Option Source} {r : Except Exn SeedOutcome} {events : List Event}
    (h : SeedStep rt db collection file source r events) : ∀ e ∈ events, e.Steady := by
  cases h with
  | created hanswer houtcome hadmissible =>
    rintro e (_ | ⟨_, _ | ⟨_, he⟩⟩)
    · exact ⟨rfl, nofun⟩
    · exact ⟨rfl, nofun⟩
    · exact absurd he List.not_mem_nil
  | updated hstale hanswer houtcome hadmissible =>
    rintro e (_ | ⟨_, _ | ⟨_, he⟩⟩)
    · exact ⟨rfl, nofun⟩
    · exact ⟨rfl, nofun⟩
    · exact absurd he List.not_mem_nil
  | _ => exact fun _ he => absurd he List.not_mem_nil

theorem LibraryStep.steady {rt : Runtime} {tree : SeedTree} {library : SeedLibrary} {db : Database}
    {r : Except Exn (Bool × List SeedOutcome)} {events : List Event}
    (h : LibraryStep rt tree library db r events) : ∀ e ∈ events, e.Steady := by
  cases h with
  | seeded hfiles hcollection hdict hsteps =>
    intro e he
    rcases List.mem_append.mp he with he | he
    · cases hcollection with
      | existing hanswer hscope => exact absurd he List.not_mem_nil
      | created hanswer hadmissible =>
        rw [List.mem_singleton.mp he]
        exact ⟨rfl, nofun⟩
    · exact hsteps.forall (fun _ _ _ _ hstep => hstep.steady) e he
  | _ => exact fun _ he => absurd he List.not_mem_nil

theorem UploadStep.steady {rt : Runtime} {db : Database} {user collectionId : Uuid} {filename : Str}
    {fileBytes : Bytes} {metadata : List (Str × Str)} {result : Except Exn IngestResult}
    {events : List Event}
    (h : UploadStep rt db user collectionId filename fileBytes metadata result events) :
    ∀ e ∈ events, e.Steady := by
  cases h with
  | refused => exact fun _ he => absurd he List.not_mem_nil
  | skipped hduplicate => exact fun _ he => absurd he List.not_mem_nil
  | @attempted _ collection existing _ _ _ _ _ hcollection howned hexisting hadmissible hsource =>
    apply forall_settled
    · rw [hsource, List.forall_mem_singleton]
      cases existing <;> exact ⟨rfl, nofun⟩
    · exact fun _ _ => ⟨rfl, nofun⟩
    · exact fun _ => ⟨rfl, nofun⟩

theorem WorkStep.steady {rt : Runtime} {db : Database} {files : Files} {sourceId : Uuid}
    {events : List Event} (h : WorkStep rt db files sourceId events) : ∀ e ∈ events, e.Steady := by
  cases h with
  | idle => exact fun _ he => absurd he List.not_mem_nil
  | failed hsource hpending => exact List.forall_mem_singleton.mpr ⟨rfl, nofun⟩
  | ingested hsource hpending hbatch hcollection hcontent houtcome =>
    exact List.forall_mem_singleton.mpr ⟨rfl, nofun⟩

namespace Operation

inductive Moves (op : Operation) (server : Server) : List Event → Prop
  | drops {collectionId : Uuid} (haccepts : op.accepts server = []) :
      Moves op server [.dropCollection collectionId]
  | enrols {events : List Event} {batchId : Uuid}
      (hkept : ∀ e ∈ events, ∀ id, ¬ e.Drops id)
      (hfresh : server.database.ingestBatches.Fresh batchId)
      (hmoved : events.filterMap Event.enrols = (op.accepts server).map (·, batchId)) :
      Moves op server events

theorem Moves.steady {op : Operation} {server : Server} (h : server.Sound) {events : List Event}
    (hsteady : ∀ e ∈ events, e.Steady) (haccepts : op.accepts server = []) :
    Moves op server events := by
  refine @Moves.enrols op server events ⟨server.clock, 0⟩ (fun e he => (hsteady e he).2) ?_ ?_
  · intro batch hbatch hid
    have hpast := h.past.batches batch hbatch
    rw [hid] at hpast
    exact Nat.lt_irrefl _ hpast
  · rw [haccepts]
    exact List.filterMap_eq_nil_iff.mpr fun e he => (hsteady e he).1

theorem Step.moves {op : Operation} {server : Server} (h : server.Sound) {events : List Event}
    (hadmissible : Event.Admissible events server.database) (hstep : Step server op events) :
    Moves op server events := by
  cases hstep with
  | idle hrefused =>
    refine .steady h (fun _ he => absurd he List.not_mem_nil) ?_
    rw [accepts, hrefused]
    rfl
  | created => exact .steady h (List.forall_mem_singleton.mpr ⟨rfl, fun _ h => by cases h⟩) rfl
  | uploaded hresult hstep => exact .steady h hstep.steady rfl
  | @batched rt user collectionId kind metadata uploads batch sources groups hresult haccepted =>
    have hall := haccepted.adoptions.adoptsAll
    refine @Moves.enrols _ server _ batch.id ?_ hadmissible.1.1 ?_
    · exact List.forall_mem_cons.mpr ⟨(fun _ h => by cases h), hall.keeps⟩
    · have haccepts : accepts (createPendingBatch rt user collectionId kind metadata uploads)
          server = sources.map Source.id := by
        rw [accepts, accepted, hresult]
        rfl
      rw [List.filterMap_cons_none rfl, hall.enrols, haccepts, List.map_map]
      rfl
  | worked hstep => exact .steady h hstep.steady rfl
  | removed hsource =>
    exact .steady h (List.forall_mem_singleton.mpr ⟨rfl, fun _ h => by cases h⟩) rfl
  | dropped hcollection howned => exact .drops rfl
  | seeded hrun => exact .steady h (hrun.forall fun _ _ _ _ hstep => hstep.steady) rfl

end Operation

structure Database.Enrols (db : Database) (batch : IngestBatch) (ids : List Uuid) : Prop where
  stored : batch ∈ db.ingestBatches
  members : ∀ id, db.batchOf id = some batch.id ↔ id ∈ ids

structure Server.Fills (server : Server) (user collectionId : Uuid) (uploads : List PendingUpload)
    (batch : IngestBatch) (sources : List Source) : Prop where
  enrols : server.database.Enrols batch (sources.map Source.id)
  nodup : (sources.map Source.id).Nodup
  length_eq : sources.length = uploads.length
  userId : batch.userId = user
  collectionId_eq : batch.collectionId = collectionId

theorem Database.mem_ingestBatches_play {db : Database} {events : List Event}
    (hkept : ∀ e ∈ events, ∀ id, ¬ e.Drops id) {batch : IngestBatch}
    (hbatch : batch ∈ db.ingestBatches) : batch ∈ (Event.play events db).ingestBatches := by
  induction events generalizing db with
  | nil => exact hbatch
  | cons e events ih =>
    obtain ⟨hhead, hrest⟩ := List.forall_mem_cons.mp hkept
    apply ih hrest
    cases e with
    | addBatch other => exact Table.subset_insert _ other hbatch
    | dropCollection id => exact absurd rfl (hhead id)
    | _ => exact hbatch

namespace Operation

def Retains (collectionId : Uuid) (op : Operation) (server : Server) : Prop :=
  ((op.perform server).database.kbCollections.get? collectionId).isSome = true

instance (collectionId : Uuid) (op : Operation) (server : Server) :
    Decidable (op.Retains collectionId server) :=
  inferInstanceAs (Decidable (_ = true))

def acceptsAll : List Operation → Server → List Uuid
  | [], _ => []
  | op :: ops, server => op.accepts server ++ acceptsAll ops (op.perform server)

theorem perform_enrols {server : Server} (hsound : server.Sound)
    (hcoherent : server.database.Coherent) {op : Operation} {batch : IngestBatch} {ids : List Uuid}
    (henrols : server.database.Enrols batch ids) (hretains : op.Retains batch.collectionId server) :
    (op.perform server).database.Enrols batch (ids.filter (· ∉ op.accepts server)) := by
  obtain ⟨events, hfollows, hstep⟩ := steps hsound op
  have hmoves := hstep.moves hsound hfollows.admissible
  rw [Retains] at hretains
  rw [hfollows.database] at hretains ⊢
  cases hmoves with
  | @drops collectionId haccepts =>
    have hne : batch.collectionId ≠ collectionId := by
      intro hcollection
      obtain ⟨collection, hmem, hid⟩ := Table.isSome_get?_iff.mp hretains
      exact (Table.mem_erase.mp hmem).2 (hid.trans hcollection)
    constructor
    · exact Table.mem_erase.mpr ⟨henrols.stored, hne⟩
    · intro id
      have hmembers := (Database.batchOf_dropCollection hcoherent henrols.stored hne id).trans
        (henrols.members id)
      rw [haccepts]
      simp only [List.not_mem_nil, not_false_eq_true, decide_true, List.filter_true]
      exact hmembers
  | @enrols _ batchId hkept hfresh hmoved =>
    have hne : batchId ≠ batch.id := (hfresh batch henrols.stored).symm
    have hbatch : ∀ moved ∈ events.filterMap Event.enrols, moved.2 = batchId := by
      rw [hmoved]
      simp
    have hplay := Database.batchOf_play hfollows.admissible hkept hbatch
    refine ⟨Database.mem_ingestBatches_play hkept henrols.stored, fun id => ?_⟩
    rw [hplay id, hmoved, List.map_map]
    by_cases hid : id ∈ op.accepts server
    · simp [hid, hne]
    · simp [hid, henrols.members id]

theorem performAll_enrols {server : Server} (hsound : server.Sound)
    (hcoherent : server.database.Coherent) {ops : List Operation} {batch : IngestBatch}
    {ids : List Uuid} (henrols : server.database.Enrols batch ids)
    (hretains : History.Admissible perform (Retains batch.collectionId) ops server) :
    (performAll ops server).database.Enrols batch (ids.filter (· ∉ acceptsAll ops server)) := by
  induction ops generalizing server ids with
  | nil => simpa [acceptsAll] using henrols
  | cons op ops ih =>
    obtain ⟨events, hfollows⟩ := follows hsound op
    have hcoherent' : (op.perform server).database.Coherent := by
      rw [hfollows.database]
      exact (hcoherent.play hsound.intact hfollows.admissible).2
    have hrest := ih hfollows.sound hcoherent'
      (perform_enrols hsound hcoherent henrols hretains.1) hretains.2
    rw [List.filter_filter] at hrest
    simpa [acceptsAll, not_or, Bool.and_comm] using hrest

theorem accepted_fills {server : Server} (hsound : server.Sound) {rt : Runtime}
    {user collectionId : Uuid} {kind : CollectionKind} {metadata : List (Str × Str)}
    {uploads : List PendingUpload} {batch : IngestBatch} {sources : List Source}
    (haccepted : (createPendingBatch rt user collectionId kind metadata uploads).accepted server =
      some (batch, sources)) :
    ((createPendingBatch rt user collectionId kind metadata uploads).perform server).Fills user
      collectionId uploads batch sources := by
  obtain ⟨events, hfollows, hstep⟩ :=
    steps hsound (createPendingBatch rt user collectionId kind metadata uploads)
  cases hstep with
  | idle hrefused => cases hrefused.symm.trans haccepted
  | @batched _ _ _ _ _ _ batch' sources' groups hresult hacceptance =>
    have hpair : (batch', sources') = (batch, sources) := by
      rw [accepted, hresult] at haccepted
      exact Option.some.inj haccepted
    cases hpair
    have hadmissible := hfollows.admissible
    have hall := hacceptance.adoptions.adoptsAll
    have hstored : batch ∈ (server.database.addBatch batch).ingestBatches :=
      (Table.mem_insert hadmissible.1.1).mpr (Or.inr rfl)
    have hempty : ∀ id, (server.database.addBatch batch).batchOf id ≠ some batch.id := by
      intro id hin
      obtain ⟨source, hsource, _, hbatch⟩ := Database.batchOf_eq_some.mp hin
      obtain ⟨other, hother, hid⟩ := hsound.intact.sourceBatches source hsource _ hbatch
      exact hadmissible.1.1 other hother hid
    have henrols : ∀ moved ∈ groups.flatten.filterMap Event.enrols, moved.2 = batch.id := by
      rw [hall.enrols]
      simp
    refine ⟨⟨?_, fun id => ?_⟩, hacceptance.adoptions.nodup hadmissible.2,
      hacceptance.adoptions.length_eq, hacceptance.userId, hacceptance.collectionId_eq⟩
    · rw [hfollows.database]
      exact Database.mem_ingestBatches_play hall.keeps hstored
    · have hplay := Database.batchOf_play hadmissible.2 hall.keeps henrols id
      rw [hfollows.database, Event.play, History.play_cons]
      refine (Eq.congr_left hplay).trans ?_
      rw [hall.enrols, List.map_map]
      change (if id ∈ sources.map Source.id then some batch.id else _) = some batch.id ↔ _
      split
      case isTrue hid => exact iff_of_true rfl hid
      case isFalse hid => exact iff_of_false (hempty id) hid

end Operation

theorem length_eq_counts (statuses : List IngestStatus) :
    statuses.count .completed + statuses.count .failed +
      (statuses.count .parsing + statuses.count .chunking + statuses.count .embedding) +
        statuses.count .pending = statuses.length := by
  induction statuses with
  | nil => rfl
  | cons status statuses ih =>
    cases status <;> simp <;> omega

def BatchProgress.Balanced (progress : BatchProgress) : Prop :=
  progress.completed + progress.failed + progress.inProgress + progress.pending = progress.total

theorem Database.Enrols.progress {db : Database} {batch : IngestBatch} {ids : List Uuid}
    (h : db.Enrols batch ids) (hnodup : ids.Nodup) :
    ∃ progress, getBatchProgress db batch.userId batch.id = .ok progress ∧ progress.Balanced ∧
      progress.total = ids.length := by
  have hperm : List.Perm (db.membersOf batch.id) ids := by
    apply (List.perm_ext_iff_of_nodup (db.nodup_membersOf batch.id) hnodup).mpr
    exact fun id => mem_membersOf.trans (h.members id)
  have hlength := hperm.length_eq
  rw [membersOf, List.length_map] at hlength
  rw [getBatchProgress, Table.get?_key h.stored]
  simp only [ne_eq, not_true_eq_false, if_false]
  refine ⟨_, rfl, ?_, ?_⟩
  · simp only [BatchProgress.Balanced, lookup_groupCount, sum_groupCount, List.map_cons,
      List.map_nil, List.sum_cons, List.sum_nil, Nat.add_zero]
    have hcounts := length_eq_counts
      ((db.sources.rows.filter (·.batchId = some batch.id)).map Source.ingestStatus)
    omega
  · simp only [sum_groupCount, List.length_map]
    exact hlength

namespace Operation

theorem performAll_progress {users : List Uuid} {ops : List Operation} {rt : Runtime}
    {user collectionId : Uuid} {kind : CollectionKind} {metadata : List (Str × Str)}
    {uploads : List PendingUpload} {batch : IngestBatch} {sources : List Source}
    (haccepted : (createPendingBatch rt user collectionId kind metadata uploads).accepted
      (performAll ops (.empty users)) = some (batch, sources))
    {later : List Operation}
    (hretains : History.Admissible perform (Retains collectionId) later
      ((createPendingBatch rt user collectionId kind metadata uploads).perform
        (performAll ops (.empty users)))) :
    let server := (createPendingBatch rt user collectionId kind metadata uploads).perform
      (performAll ops (.empty users))
    sources.length = uploads.length ∧
      ∃ progress,
        getBatchProgress (performAll later server).database user batch.id = .ok progress ∧
          progress.Balanced ∧
          progress.total =
            (sources.filter fun source => source.id ∉ acceptsAll later server).length := by
  intro server
  obtain ⟨hsound, hcoherent⟩ := performAll_coherent users ops
  obtain ⟨events, hfollows⟩ :=
    follows hsound (createPendingBatch rt user collectionId kind metadata uploads)
  have hcoherent' : server.database.Coherent := by
    rw [hfollows.database]
    exact (hcoherent.play hsound.intact hfollows.admissible).2
  have hfills := accepted_fills hsound haccepted
  have hretains' : History.Admissible perform (Retains batch.collectionId) later server := by
    rw [hfills.collectionId_eq]
    exact hretains
  have henrols := performAll_enrols hfollows.sound hcoherent' hfills.enrols hretains'
  obtain ⟨progress, hprogress, hbalanced, htotal⟩ := henrols.progress (hfills.nodup.filter _)
  rw [hfills.userId] at hprogress
  refine ⟨hfills.length_eq, progress, hprogress, hbalanced, htotal.trans ?_⟩
  rw [List.filter_map, List.length_map]
  rfl

def sampleBatchId : Uuid := ⟨1, 0⟩

def housed : List Operation :=
  [createPrivateCollection Runtime.reliable sampleUser .rule "house".toList]

def movedFile : List Operation := [deleteSource Runtime.reliable sampleUser ⟨1, 1⟩, sampleBatch]

theorem performAll_progress_moved :
    ∃ batch sources progress,
      sampleBatch.accepted (performAll housed (.empty [sampleUser])) = some (batch, sources) ∧
        getBatchProgress (performAll movedFile (performAll (housed ++ [sampleBatch])
          (.empty [sampleUser]))).database sampleUser batch.id = .ok progress ∧
        progress.Balanced := by
  have haccepted : (sampleBatch.accepted (performAll housed (.empty [sampleUser]))).isSome := by
    decide +kernel
  obtain ⟨⟨batch, sources⟩, haccepted⟩ := Option.isSome_iff_exists.mp haccepted
  obtain ⟨_, progress, hprogress, hbalanced, _⟩ :=
    @performAll_progress [sampleUser] housed Runtime.reliable sampleUser sampleCollectionId .rule []
      [{ filename := "rules.txt".toList, fileBytes := [97], dirPath := none }] batch sources
      haccepted movedFile (by decide +kernel)
  exact ⟨batch, sources, progress, haccepted, hprogress, hbalanced⟩

theorem progress_of_movedFile :
    (sampleBatch.accepted (performAll housed (.empty [sampleUser]))).map
        (fun batch => (batch.1.id, batch.2.length)) = some (sampleBatchId, 1) ∧
      History.Admissible perform (Retains sampleCollectionId) movedFile
        (performAll (housed ++ [sampleBatch]) (.empty [sampleUser])) ∧
      getBatchProgress (performAll movedFile (performAll (housed ++ [sampleBatch])
        (.empty [sampleUser]))).database sampleUser sampleBatchId =
          .ok ⟨sampleBatchId, 0, 0, 0, 0, 0⟩ := by
  decide +kernel

end Operation

end YCStudio
