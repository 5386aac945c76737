import YCStudio.Consistency.Operations

namespace YCStudio

def Event.Honest : Event → Database → Prop
  | reopen source assigned, db =>
      assigned.contentHash = source.contentHash ∨
        ∃ collection ∈ db.kbCollections, collection.id = source.collectionId ∧
          collection.userId = none
  | _, _ => True

namespace Database

def Owned (db : Database) (collectionId : Uuid) : Prop :=
  ∃ collection ∈ db.kbCollections, collection.id = collectionId ∧ collection.userId ≠ none

def Pins (db : Database) (id : Uuid) (contentHash : Str) : Prop :=
  ∀ source ∈ db.sources, source.id = id →
    source.contentHash = contentHash ∧ db.Owned source.collectionId

variable {db : Database} {id : Uuid} {contentHash : Str}

theorem pins_of_fresh (h : db.sources.Fresh id) : db.Pins id contentHash :=
  fun source hsource hid => absurd hid (h source hsource)

theorem pins_of_mem {source : Source} (hsource : source ∈ db.sources)
    (howned : db.Owned source.collectionId) : db.Pins source.id source.contentHash := by
  intro row hrow hid
  rw [Table.eq_of_key_eq hrow hsource hid]
  exact ⟨rfl, howned⟩

theorem Pins.putSource (h : db.Pins id contentHash) {stored assigned : Source}
    (hstored : stored ∈ db.sources) (hid : assigned.id = stored.id)
    (hcollection : assigned.collectionId = stored.collectionId)
    (hhash : stored.id = id → assigned.contentHash = stored.contentHash) :
    (db.putSource assigned).Pins id contentHash := by
  intro row hrow hrowId
  rcases (Table.mem_put_of_mem hstored hid.symm).mp hrow with rfl | ⟨hrow, _⟩
  · have hsame : stored.id = id := hid.symm.trans hrowId
    obtain ⟨hstoredHash, howned⟩ := h stored hstored hsame
    exact ⟨(hhash hsame).trans hstoredHash, hcollection ▸ howned⟩
  · exact h row hrow hrowId

theorem Pins.apply (h : db.Pins id contentHash) {e : Event} (henabled : e.Enabled db)
    (hhonest : e.Honest db) (hnew : id ∉ e.newIds) : (e.apply db).Pins id contentHash := by
  cases e with
  | addCollection added =>
    intro row hrow hid
    obtain ⟨hhash, collection, hcollection, hcid, howner⟩ := h row hrow hid
    exact ⟨hhash, collection, (Table.mem_insert henabled.1).mpr (Or.inl hcollection), hcid, howner⟩
  | addBatch batch => exact h
  | addSource added =>
    intro row hrow hid
    rcases (Table.mem_insert henabled.1).mp hrow with hrow | rfl
    · exact h row hrow hid
    · rw [← hid] at hnew
      exact absurd List.mem_cons_self hnew
  | reopen stored assigned =>
    obtain ⟨hstored, _, _, hid, hcollection, _⟩ := henabled
    have hdropped : (db.dropDocuments [stored.id]).Pins id contentHash := h
    apply hdropped.putSource hstored hid hcollection
    rintro rfl
    obtain ⟨_, owner, howner, hownerId, huser⟩ := h stored hstored rfl
    rcases hhonest with hsame | ⟨collection, hmem, hcid, hnone⟩
    · exact hsame
    · rw [Table.eq_of_key_eq howner hmem (hownerId.trans hcid.symm)] at huser
      exact absurd hnone huser
  | assignBatch stored batchId => exact h.putSource henabled.1 rfl rfl fun _ => rfl
  | complete stored collection out =>
    have hput : (db.putSource (stored.withStatus .completed)).Pins id contentHash :=
      h.putSource henabled.1 rfl rfl fun _ => rfl
    exact hput
  | fail stored errorMessage => exact h.putSource henabled.1 rfl rfl fun _ => rfl
  | remove stored deletedAt =>
    have hput : (db.putSource (stored.softDelete deletedAt)).Pins id contentHash :=
      h.putSource henabled rfl rfl fun _ => rfl
    exact hput
  | dropCollection collectionId =>
    intro row hrow hid
    obtain ⟨old, hold, hkept, rfl⟩ := mem_sources_dropCollection.mp hrow
    obtain ⟨hhash, collection, hcollection, hcid, howner⟩ := h old hold hid
    refine ⟨hhash, collection, Table.mem_erase.mpr ⟨hcollection, ?_⟩, hcid, howner⟩
    exact fun hdropped => hkept (hcid.symm.trans hdropped)

theorem Pins.play (h : db.Pins id contentHash) {events : List Event}
    (hadmissible : Event.Admissible events db)
    (hhonest : History.Admissible Event.apply Event.Honest events db)
    (hnew : ∀ e ∈ events, id ∉ e.newIds) : (Event.play events db).Pins id contentHash := by
  induction events generalizing db with
  | nil => exact h
  | cons e events ih =>
    obtain ⟨hhead, hrest⟩ := List.forall_mem_cons.mp hnew
    exact ih (h.apply hadmissible.1 hhonest.1 hhead) hadmissible.2 hhonest.2 hrest

end Database

section Seeds

variable {rt : Runtime} {db : Database} {events : List Event}

theorem SeedStep.honest {collection : Collection} {file : SeedFile} {existing : Option Source}
    {r : Except Exn SeedOutcome} (h : SeedStep rt db collection file existing r events)
    (hcollection : collection ∈ db.kbCollections) (hnobody : collection.userId = none)
    (hexisting : ∀ source ∈ existing, source.collectionId = collection.id) :
    History.Admissible Event.apply Event.Honest events db := by
  cases h with
  | created => exact ⟨trivial, trivial, trivial⟩
  | @updated source =>
    exact ⟨Or.inr ⟨collection, hcollection, (hexisting source rfl).symm, hnobody⟩, trivial, trivial⟩
  | _ => trivial

theorem CollectionStep.ownerless {library : SeedLibrary} {collection : Collection} {created : Bool}
    (h : CollectionStep rt db library (.ok (collection, created)) events) :
    collection ∈ (Event.play events db).kbCollections ∧ collection.userId = none := by
  cases h with
  | existing hanswer hscope =>
    obtain ⟨hmem, hnobody, _⟩ := Query.publicCollection_eq_some hanswer
    exact ⟨hmem, hnobody⟩
  | created hanswer hadmissible =>
    exact ⟨(Table.mem_insert hadmissible.1.1).mpr (Or.inr rfl), rfl⟩

theorem LibraryStep.honest {tree : SeedTree} {library : SeedLibrary}
    {r : Except Exn (Bool × List SeedOutcome)} (h : LibraryStep rt tree library db r events) :
    History.Admissible Event.apply Event.Honest events db := by
  cases h with
  | @seeded files collection created outcomes events events' dict hfiles hcollection hdict hsteps =>
    obtain ⟨hmem, hnobody⟩ := hcollection.ownerless
    have hindex : ∀ path, ∀ source ∈ dict.lookup path, source.collectionId = collection.id := by
      intro path source hsource
      have hpaths := indexes_of_sourcesByFilename hdict [path]
      exact (hpaths path List.mem_cons_self source hsource).2.2
    have hfirst : History.Admissible Event.apply Event.Honest events db := by
      cases hcollection with
      | existing => trivial
      | created => exact ⟨trivial, trivial⟩
    have hstep : ∀ (db' : Database) (file : SeedFile) (r : Except Exn SeedOutcome)
        (seeded : List Event), collection ∈ db'.kbCollections →
        SeedStep rt db' collection file (dict.lookup file.relativePath) r seeded →
          History.Admissible Event.apply Event.Honest seeded db' ∧
            collection ∈ (Event.play seeded db').kbCollections := by
      intro db' file r seeded hmem' hstep
      refine ⟨hstep.honest hmem' hnobody (hindex file.relativePath), ?_⟩
      rw [hstep.kbCollections_eq]
      exact hmem'
    exact hfirst.append (hsteps.admissible_of hstep hmem)
  | _ => trivial

end Seeds

theorem honest_settled {db : Database} {existing : Option Source} {source : Source}
    {collection : Collection} {outcome : Except Failure Ingested}
    (hsource : ∀ stored ∈ existing, source.contentHash = stored.contentHash) :
    History.Admissible Event.apply Event.Honest
      (settled [admission existing source] source collection outcome) db := by
  have hadmission : ∀ db, (admission existing source).Honest db := by
    intro db
    cases existing with
    | none => trivial
    | some stored => exact Or.inl (hsource stored rfl)
  apply History.Admissible.of_forall
  exact forall_settled (List.forall_mem_singleton.mpr hadmission) (fun _ _ _ => trivial)
    fun _ _ => trivial

theorem Adoptions.honest {rt : Runtime} {batch : IngestBatch} {db : Database}
    {uploads : List PendingUpload} {sources : List Source} {groups : List (List Event)}
    (h : Adoptions rt batch db uploads sources groups) :
    History.Admissible Event.apply Event.Honest groups.flatten db := by
  induction h with
  | nil => trivial
  | cons head tail ih =>
    refine History.Admissible.append ?_ ih
    cases head with
    | added => exact ⟨trivial, trivial⟩
    | reopened => exact ⟨Or.inl rfl, trivial, trivial⟩

theorem Operation.Step.honest {server : Server} {op : Operation} {events : List Event}
    (h : Operation.Step server op events) :
    History.Admissible Event.apply Event.Honest events server.database := by
  cases h with
  | uploaded hresult hstep =>
    cases hstep with
    | attempted hcollection howned hexisting hadmissible hsource =>
      apply honest_settled
      rintro stored hstored
      rw [Option.mem_def.mp hstored] at hsource
      rw [hsource]
      rfl
    | _ => trivial
  | batched hresult haccepted => exact ⟨trivial, haccepted.adoptions.honest⟩
  | worked hstep => cases hstep <;> trivial
  | seeded hrun => exact hrun.admissible fun _ _ _ _ hstep => hstep.honest
  | idle => trivial
  | created => exact ⟨trivial, trivial⟩
  | removed => exact ⟨trivial, trivial⟩
  | dropped => exact ⟨trivial, trivial⟩

end YCStudio
