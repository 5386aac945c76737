import YCStudio.Consistency.Operations

namespace YCStudio

namespace Database

def Awaits (db : Database) (sourceId batchId : Uuid) : Prop :=
  ∃ source ∈ db.sources, source.id = sourceId ∧ source.ingestStatus = .pending ∧
    source.batchId = some batchId

instance (db : Database) (sourceId batchId : Uuid) : Decidable (db.Awaits sourceId batchId) :=
  inferInstanceAs (Decidable (∃ source ∈ db.sources.rows, _))

def Subsides (before after : Database) : Prop :=
  ∀ sourceId batchId, after.Awaits sourceId batchId → before.Awaits sourceId batchId

end Database

structure Source.Leads (old source : Source) : Prop where
  id_eq : old.id = source.id
  pending : old.ingestStatus = .pending
  batchId_eq : old.batchId = source.batchId
  filename_eq : old.filename = source.filename
  contentHash_eq : old.contentHash = source.contentHash
  live : source.deletedAt = none → old.deletedAt = none

theorem Source.Leads.refl {source : Source} (hpending : source.ingestStatus = .pending) :
    source.Leads source := ⟨rfl, hpending, rfl, rfl, rfl, fun h => h⟩

theorem Source.Leads.trans {first second third : Source} (h : first.Leads second)
    (h' : second.Leads third) : first.Leads third where
  id_eq := h.id_eq.trans h'.id_eq
  pending := h.pending
  batchId_eq := h.batchId_eq.trans h'.batchId_eq
  filename_eq := h.filename_eq.trans h'.filename_eq
  contentHash_eq := h.contentHash_eq.trans h'.contentHash_eq
  live hlive := h.live (h'.live hlive)

namespace Database

def Recedes (before after : Database) : Prop :=
  ∀ source ∈ after.sources, source.ingestStatus = .pending → source.batchId ≠ none →
    ∃ old ∈ before.sources, old.Leads source

variable {db db' db'' : Database} {sourceId batchId : Uuid}

theorem Recedes.refl (db : Database) : db.Recedes db :=
  fun source hsource hpending _ => ⟨source, hsource, .refl hpending⟩

theorem Recedes.trans (h : db.Recedes db') (h' : db'.Recedes db'') : db.Recedes db'' := by
  intro source hsource hpending hbatch
  obtain ⟨mid, hmid, hleads⟩ := h' source hsource hpending hbatch
  obtain ⟨old, hold, hleads'⟩ := h mid hmid hleads.pending (hleads.batchId_eq ▸ hbatch)
  exact ⟨old, hold, hleads'.trans hleads⟩

theorem Recedes.subsides (h : db.Recedes db') : db.Subsides db' := by
  rintro sourceId batchId ⟨source, hsource, rfl, hpending, hbatch⟩
  have hsome : source.batchId ≠ none := hbatch ▸ Option.some_ne_none batchId
  obtain ⟨old, hold, hleads⟩ := h source hsource hpending hsome
  exact ⟨old, hold, hleads.id_eq, hleads.pending, hleads.batchId_eq.trans hbatch⟩

theorem awaits_iff {source : Source} (hsource : source ∈ db.sources) :
    db.Awaits source.id batchId ↔ source.ingestStatus = .pending ∧ source.batchId = some batchId := by
  constructor
  · rintro ⟨other, hother, hid, hpending, hbatch⟩
    rw [← Table.eq_of_key_eq hother hsource hid]
    exact ⟨hpending, hbatch⟩
  · rintro ⟨hpending, hbatch⟩
    exact ⟨source, hsource, rfl, hpending, hbatch⟩

theorem AgreesOff.awaits {other : Uuid} (h : db.AgreesOff db' other) (hne : sourceId ≠ other) :
    db'.Awaits sourceId batchId → db.Awaits sourceId batchId := by
  rintro ⟨source, hsource, rfl, hpending, hbatch⟩
  exact ⟨source, (h.mem_sources hne).mp hsource, rfl, hpending, hbatch⟩

theorem AgreesOff.recedes {other : Uuid} (h : db.AgreesOff db' other)
    (hdone : ∀ source ∈ db'.sources, source.id = other → source.ingestStatus ≠ .pending) :
    db.Recedes db' := by
  intro source hsource hpending _
  by_cases hid : source.id = other
  · exact absurd hpending (hdone source hsource hid)
  · exact ⟨source, (h.mem_sources hid).mp hsource, .refl hpending⟩

theorem recedes_remove {source : Source} (hsource : source ∈ db.sources) (deletedAt : Timestamp) :
    db.Recedes (db.removeSource source deletedAt) := by
  intro row hrow hpending _
  have hid : source.id = (source.softDelete deletedAt).id := rfl
  rcases (Table.mem_put_of_mem hsource hid).mp hrow with rfl | ⟨hrow, _⟩
  · exact ⟨source, hsource, rfl, hpending, rfl, rfl, rfl, nofun⟩
  · exact ⟨row, hrow, .refl hpending⟩

theorem recedes_dropCollection (db : Database) (id : Uuid) : db.Recedes (db.dropCollection id) := by
  intro row hrow hpending hbatch
  obtain ⟨old, hold, _, rfl⟩ := mem_sources_dropCollection.mp hrow
  refine ⟨old, hold, rfl, hpending, ?_, rfl, rfl, fun h => h⟩
  obtain ⟨batchId, hbatch⟩ := Option.ne_none_iff_exists'.mp hbatch
  exact (Option.filter_eq_some_iff.mp hbatch).1.trans hbatch.symm

end Database

inductive Event.Concludes (source : Source) : Event → Prop
  | complete {collection : Collection} {out : Ingested} :
      Concludes source (.complete source collection out)
  | fail {errorMessage : Str} : Concludes source (.fail source errorMessage)

namespace Database

variable {db : Database} {source : Source} {e : Event}

theorem not_pending_concluded (henabled : e.Enabled db) (h : e.Concludes source) :
    ∀ row ∈ (e.apply db).sources, row.id = source.id → row.ingestStatus ≠ .pending := by
  intro row hrow hid
  cases h with
  | complete =>
    have hput : source.withStatus .completed ∈ (db.putSource (source.withStatus .completed)).sources :=
      mem_putSource henabled.1 rfl
    rw [Table.eq_of_key_eq hrow hput hid]
    exact IngestStatus.noConfusion
  | @fail errorMessage =>
    have hput : source.fail errorMessage ∈ (db.putSource (source.fail errorMessage)).sources :=
      mem_putSource henabled.1 rfl
    rw [Table.eq_of_key_eq hrow hput hid]
    exact IngestStatus.noConfusion

theorem not_awaits_concluded (henabled : e.Enabled db) (h : e.Concludes source) (batchId : Uuid) :
    ¬ (e.apply db).Awaits source.id batchId := by
  rintro ⟨row, hrow, hid, hpending, _⟩
  exact not_pending_concluded henabled h row hrow hid hpending

theorem recedes_concluded (henabled : e.Enabled db) (h : e.Concludes source) :
    db.Recedes (e.apply db) := by
  have hagrees : db.AgreesOff (e.apply db) source.id := .apply henabled (by cases h <;> rfl)
  exact hagrees.recedes (not_pending_concluded henabled h)

theorem recedes_admitted {admission : Event} (hsource : admission.sourceId = some source.id)
    (h : e.Concludes source) (hadmissible : Event.Admissible [admission, e] db) :
    db.Recedes (Event.play [admission, e] db) := by
  obtain ⟨hadmission, henabled, _⟩ := hadmissible
  have hfirst : db.AgreesOff (admission.apply db) source.id := .apply hadmission hsource
  have hsecond : (admission.apply db).AgreesOff (e.apply (admission.apply db)) source.id :=
    .apply henabled (by cases h <;> rfl)
  exact (hfirst.trans hsecond).recedes (not_pending_concluded henabled h)

theorem recedes_settled {existing : Option Source} {collection : Collection}
    {outcome : Except Failure Ingested}
    (h : Event.Admissible (settled [admission existing source] source collection outcome) db) :
    db.Recedes (Event.play (settled [admission existing source] source collection outcome) db) := by
  have hsource : ∀ {e}, Event.Admissible [admission existing source, e] db →
      (admission existing source).sourceId = some source.id := by
    intro e hadmissible
    cases existing with
    | none => rfl
    | some existing => exact congrArg some hadmissible.1.2.2.2.1.symm
  cases outcome with
  | ok out => exact recedes_admitted (hsource h) .complete h
  | error failure =>
    rw [settled] at h ⊢
    split at h
    case isTrue hrecorded =>
      rw [if_pos hrecorded]
      exact recedes_admitted (hsource h) .fail h
    case isFalse hrecorded =>
      rw [if_neg hrecorded]
      exact .refl db

theorem recedes_worked {rt : Runtime} {files : Files} {sourceId : Uuid} {events : List Event}
    (h : WorkStep rt db files sourceId events) (hadmissible : Event.Admissible events db) :
    db.Recedes (Event.play events db) := by
  cases h with
  | idle => exact .refl db
  | failed hsource hpending => exact recedes_concluded hadmissible.1 .fail
  | ingested => exact recedes_concluded hadmissible.1 .complete

end Database

section Seed

variable {rt : Runtime} {db : Database} {events : List Event}

theorem SeedStep.recedes {collection : Collection} {file : SeedFile} {source : Option Source}
    {r : Except Exn SeedOutcome} (h : SeedStep rt db collection file source r events) :
    db.Recedes (Event.play events db) := by
  cases h with
  | created hanswer houtcome hadmissible =>
    exact Database.recedes_admitted rfl .complete hadmissible
  | @updated source _ _ _ hstale hanswer houtcome hadmissible =>
    have hsource : (Event.reopen source (source.reseed file.contentHash)).sourceId =
        some (source.reseed file.contentHash).id := rfl
    exact Database.recedes_admitted hsource .complete hadmissible
  | _ => exact .refl db

theorem CollectionStep.recedes {library : SeedLibrary} {r : Except Exn (Collection × Bool)}
    (h : CollectionStep rt db library r events) : db.Recedes (Event.play events db) := by
  cases h <;> exact .refl db

theorem LibraryStep.recedes {tree : SeedTree} {library : SeedLibrary}
    {r : Except Exn (Bool × List SeedOutcome)} (h : LibraryStep rt tree library db r events) :
    db.Recedes (Event.play events db) := by
  cases h with
  | @seeded _ _ _ _ events events' _ hfiles hcollection hdict hsteps =>
    have hplay : Event.play (events ++ events') db = Event.play events' (Event.play events db) :=
      History.play_append _ _ _ _
    rw [hplay]
    exact hsteps.preserved (fun _ _ _ _ hinv hstep => hinv.trans hstep.recedes)
      hcollection.recedes
  | _ => exact .refl db

end Seed

section Upload

variable {batch : IngestBatch}

theorem Event.Adopts.awaits {sourceId : Uuid} {events : List Event}
    (h : Event.Adopts batch sourceId events) {db : Database}
    (hadmissible : Event.Admissible events db) {id batchId : Uuid}
    (hawaits : (Event.play events db).Awaits id batchId) :
    db.Awaits id batchId ∨ (id = sourceId ∧ batchId = batch.id) := by
  have hevents : ∀ e ∈ events, e.sourceId = some sourceId := by
    intro e he
    cases h.enters e he with
    | addSource hcollection hid => exact congrArg some hid
    | reopen hcollection hid => exact congrArg some hid
    | assignBatch hcollection hid => exact congrArg some hid
  by_cases hid : id = sourceId
  · subst hid
    refine Or.inr ⟨rfl, ?_⟩
    cases h with
    | added hcollection hid hbatch =>
      subst hid
      have hmem := (Table.mem_insert hadmissible.1.1).mpr (Or.inr rfl)
      have hrow := ((Database.awaits_iff hmem).mp hawaits).2
      exact Option.some.inj (hrow.symm.trans hbatch)
    | @reopened source assigned hcollection hid hassigned hid' =>
      subst hid'
      have hput : assigned.withBatch batch.id ∈
          (Event.play [.reopen source assigned, .assignBatch assigned batch.id] db).sources :=
        Database.mem_putSource hadmissible.2.1.1 rfl
      exact (Option.some.inj ((Database.awaits_iff hput).mp hawaits).2).symm
  · exact Or.inl ((Database.AgreesOff.play hadmissible hevents).awaits hid hawaits)

theorem Event.AdoptsAll.awaits {sources : List Source} {groups : List (List Event)}
    (h : Event.AdoptsAll batch sources groups) {db : Database}
    (hadmissible : Event.Admissible groups.flatten db) {id batchId : Uuid}
    (hawaits : (Event.play groups.flatten db).Awaits id batchId) :
    db.Awaits id batchId ∨ (id ∈ sources.map Source.id ∧ batchId = batch.id) := by
  induction h generalizing db with
  | nil => exact Or.inl hawaits
  | @cons source events sources groups hhead htail ih =>
    rw [List.flatten_cons] at hadmissible hawaits
    rw [Event.play, History.play_append] at hawaits
    obtain ⟨hfirst, hrest⟩ := hadmissible.split
    rcases ih hrest hawaits with hawaits | ⟨hid, hbatch⟩
    · rcases hhead.awaits hfirst hawaits with hold | ⟨rfl, hbatch⟩
      · exact Or.inl hold
      · exact Or.inr ⟨List.mem_cons_self, hbatch⟩
    · exact Or.inr ⟨List.mem_cons_of_mem _ hid, hbatch⟩

theorem Batched.awaits {db : Database} {user collectionId : Uuid} {sources : List Source}
    {events : List Event} (h : Batched db user collectionId (.ok (batch, sources)) events)
    (hadmissible : Event.Admissible events db) {id batchId : Uuid}
    (hawaits : (Event.play events db).Awaits id batchId) :
    db.Awaits id batchId ∨ (id ∈ sources.map Source.id ∧ batchId = batch.id) := by
  rcases h with ⟨e, he, _⟩ | ⟨collection, batch', sources', groups, _, _, hresult, rfl, _, hall⟩
  · cases he
  · cases hresult
    exact hall.awaits hadmissible.2 hawaits

end Upload

namespace Operation

theorem Step.recedes {server : Server} {op : Operation} {events : List Event}
    (hstep : Step server op events) (hadmissible : Event.Admissible events server.database)
    (hrefused : op.accepted server = none) :
    server.database.Recedes (Event.play events server.database) := by
  cases hstep with
  | idle => exact .refl _
  | created => exact .refl _
  | uploaded hresult hstep =>
    cases hstep with
    | refused => exact .refl _
    | skipped hduplicate => exact .refl _
    | attempted => exact Database.recedes_settled hadmissible
  | batched hresult =>
    rw [accepted, hresult] at hrefused
    cases hrefused
  | worked hstep => exact Database.recedes_worked hstep hadmissible
  | removed hsource => exact Database.recedes_remove hsource _
  | dropped => exact Database.recedes_dropCollection _ _
  | seeded hrun =>
    exact hrun.preserved (fun _ _ _ _ hinv hstep => hinv.trans hstep.recedes)
      (Database.Recedes.refl _)

theorem perform_awaits {server : Server} (hsound : server.Sound) (op : Operation)
    {sourceId batchId : Uuid} (h : (op.perform server).database.Awaits sourceId batchId) :
    server.database.Awaits sourceId batchId ∨ batchId.stream = server.clock := by
  obtain ⟨events, hfollows, hstep⟩ := steps hsound op
  rw [hfollows.database] at h
  cases haccepted : op.accepted server with
  | none =>
    have hrecedes := hstep.recedes hfollows.admissible haccepted
    exact Or.inl (hrecedes.subsides sourceId batchId h)
  | some accepted =>
    cases hstep with
    | idle hrefused => cases hrefused.symm.trans haccepted
    | batched hresult hacceptance =>
      have hall := hacceptance.adoptions.adoptsAll
      rcases hall.awaits hfollows.admissible.2 h with hold | ⟨_, rfl⟩
      · exact Or.inl hold
      · exact Or.inr (hfollows.drawn _ List.mem_cons_self _ List.mem_cons_self)
    | _ => cases haccepted

end Operation

end YCStudio
