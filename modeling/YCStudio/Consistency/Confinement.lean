import YCStudio.Consistency.Tenancy

namespace YCStudio

structure Event.ConfinedTo (e : Event) (user collectionId : Uuid) : Prop where
  collectionId : e.collectionId = collectionId
  added : ∀ collection, e = .addCollection collection → collection.OwnedBy user

namespace Database

def Holds (db : Database) (user collectionId : Uuid) : Prop :=
  ∀ collection ∈ db.kbCollections, collection.id = collectionId → collection.OwnedBy user

def foreign (db : Database) (user : Uuid) : List Collection :=
  db.kbCollections.rows.filter (¬ ·.OwnedBy user)

variable {db : Database} {user collectionId : Uuid}

theorem mem_foreign {collection : Collection} :
    collection ∈ db.foreign user ↔ collection ∈ db.kbCollections ∧ ¬ collection.OwnedBy user := by
  rw [foreign, List.mem_filter, decide_eq_true_iff]
  rfl

theorem Holds.ne_of_mem_foreign (h : db.Holds user collectionId) {collection : Collection}
    (hforeign : collection ∈ db.foreign user) : collection.id ≠ collectionId := by
  obtain ⟨hmem, hnot⟩ := mem_foreign.mp hforeign
  exact fun hid => hnot (h collection hmem hid)

theorem Holds.apply (h : db.Holds user collectionId) {e : Event}
    (hconfined : e.ConfinedTo user collectionId) :
    (e.apply db).Holds user collectionId ∧ (e.apply db).foreign user = db.foreign user := by
  obtain ⟨hid, hadded⟩ := hconfined
  cases e with
  | addCollection collection =>
    have howned := hadded collection rfl
    constructor
    · intro other hother hcid
      rw [Event.apply, addCollection, Table.insert] at hother
      split at hother
      · exact h other hother hcid
      · rcases List.mem_append.mp hother with hold | hnew
        · exact h other hold hcid
        · rw [List.mem_singleton.mp hnew]
          exact howned
    · exact Table.filter_insert_of_not _ (decide_eq_false (not_not.mpr howned))
  | dropCollection id =>
    obtain rfl : id = collectionId := hid
    constructor
    · intro other hother hcid
      exact h other (Table.mem_erase.mp hother).1 hcid
    · apply Table.filter_erase
      intro other hother hforeign hcid
      exact of_decide_eq_true hforeign (h other hother hcid)
  | _ => exact ⟨h, rfl⟩

theorem Holds.play (h : db.Holds user collectionId) {events : List Event}
    (hconfined : ∀ e ∈ events, e.ConfinedTo user collectionId) :
    (Event.play events db).foreign user = db.foreign user := by
  induction events generalizing db with
  | nil => rfl
  | cons e events ih =>
    obtain ⟨hhead, hrest⟩ := List.forall_mem_cons.mp hconfined
    obtain ⟨hholds, hforeign⟩ := h.apply hhead
    exact (ih hholds hrest).trans hforeign

end Database

structure Server.Spared (before after : Server) (user : Uuid) : Prop where
  collections : after.database.foreign user = before.database.foreign user
  rows : ∀ collection ∈ before.database.foreign user,
    before.database.SameUnder after.database collection.id

theorem Server.Follows.spared {server server' : Server} {events : List Event}
    (h : server.Follows server' events) (hsound : server.Sound) (hcoherent : server.database.Coherent)
    {user collectionId : Uuid} (hholds : server.database.Holds user collectionId)
    (hconfined : ∀ e ∈ events, e.ConfinedTo user collectionId) : server.Spared server' user where
  collections := by
    rw [h.database]
    exact hholds.play hconfined
  rows collection hcollection := by
    rw [h.database]
    apply Database.SameUnder.play hsound.intact hcoherent h.admissible
    intro e he hid
    exact hholds.ne_of_mem_foreign hcollection (hid.symm.trans (hconfined e he).collectionId)

theorem Server.Spared.of_nil {server server' : Server} (h : server.Follows server' []) (user : Uuid) :
    server.Spared server' user where
  collections := by
    rw [h.database]
    rfl
  rows collection _ := by
    rw [h.database]
    exact .refl _ _

section Shapes

variable {user collectionId : Uuid}

theorem Event.Enters.confinedTo {sourceId : Uuid} {e : Event} (h : e.Enters collectionId sourceId) :
    e.ConfinedTo user collectionId := by
  cases h with
  | addSource hcollection hid => exact ⟨hcollection, fun _ h => nomatch h⟩
  | reopen hcollection hid => exact ⟨hcollection, fun _ h => nomatch h⟩
  | assignBatch hcollection hid => exact ⟨hcollection, fun _ h => nomatch h⟩

theorem confinedTo_settled {db : Database} {existing : Option Source} {source : Source}
    {collection : Collection} {outcome : Except Failure Ingested}
    (hsource : source.collectionId = collectionId)
    (h : Event.Admissible (settled [admission existing source] source collection outcome) db) :
    ∀ e ∈ settled [admission existing source] source collection outcome,
      e.ConfinedTo user collectionId := by
  have hadmission : ∀ events, Event.Admissible (admission existing source :: events) db →
      (admission existing source).ConfinedTo user collectionId := by
    intro events hadmissible
    cases existing with
    | none => exact ⟨hsource, fun _ h => by cases h⟩
    | some existing =>
      obtain ⟨_, _, _, _, hcollection, _⟩ := hadmissible.1
      exact ⟨hcollection.symm.trans hsource, fun _ h => by cases h⟩
  cases outcome with
  | ok out =>
    rintro e (_ | ⟨_, _ | ⟨_, he⟩⟩)
    · exact hadmission _ h
    · exact ⟨hsource, fun _ h => by cases h⟩
    · exact absurd he List.not_mem_nil
  | error failure =>
    rw [settled] at h ⊢
    split at h
    case isTrue hrecorded =>
      rw [if_pos hrecorded]
      rintro e (_ | ⟨_, _ | ⟨_, he⟩⟩)
      · exact hadmission _ h
      · exact ⟨hsource, fun _ h => by cases h⟩
      · exact absurd he List.not_mem_nil
    case isFalse hrecorded =>
      rw [if_neg hrecorded]
      exact fun _ he => absurd he List.not_mem_nil

theorem Database.holds_of_get? {db : Database} {collection : Collection}
    (h : db.kbCollections.get? collectionId = some collection) (howned : collection.OwnedBy user) :
    db.Holds user collectionId := by
  obtain ⟨hmem, hid⟩ := Table.get?_eq_some_iff.mp h
  intro other hother hcid
  rw [Table.eq_of_key_eq hother hmem (hcid.trans hid.symm)]
  exact howned

end Shapes

namespace Database

variable {db : Database} {user : Uuid}

theorem collection_origin {e : Event} {collection : Collection}
    (h : collection ∈ (e.apply db).kbCollections) :
    collection.id ∈ e.newIds ∨ collection ∈ db.kbCollections := by
  cases e with
  | addCollection added =>
    rw [Event.apply, addCollection, Table.insert] at h
    split at h
    · exact Or.inr h
    · rcases List.mem_append.mp h with hold | hnew
      · exact Or.inr hold
      · rw [List.mem_singleton.mp hnew]
        exact Or.inl List.mem_cons_self
  | dropCollection id => exact Or.inr (Table.mem_erase.mp h).1
  | _ => exact Or.inr h

theorem source_origin {e : Event} (henabled : e.Enabled db) {source : Source}
    (h : source ∈ (e.apply db).sources) :
    source.id ∈ e.newIds ∨
      ∃ old ∈ db.sources, old.id = source.id ∧ old.collectionId = source.collectionId := by
  have hput : ∀ stored assigned : Source, stored ∈ db.sources → assigned.id = stored.id →
      assigned.collectionId = stored.collectionId → source ∈ (db.putSource assigned).sources →
        ∃ old ∈ db.sources, old.id = source.id ∧ old.collectionId = source.collectionId := by
    intro stored assigned hstored hid hcollection hmem
    rcases (Table.mem_put_of_mem hstored hid.symm).mp hmem with rfl | ⟨hmem, _⟩
    · exact ⟨stored, hstored, hid.symm, hcollection.symm⟩
    · exact ⟨source, hmem, rfl, rfl⟩
  cases e with
  | addCollection collection => exact Or.inr ⟨source, h, rfl, rfl⟩
  | addBatch batch => exact Or.inr ⟨source, h, rfl, rfl⟩
  | addSource added =>
    rcases (Table.mem_insert henabled.1).mp h with hold | rfl
    · exact Or.inr ⟨source, hold, rfl, rfl⟩
    · exact Or.inl List.mem_cons_self
  | reopen stored assigned =>
    obtain ⟨hstored, _, _, hid, hcollection, _⟩ := henabled
    exact Or.inr (hput stored assigned hstored hid hcollection h)
  | assignBatch stored batchId =>
    exact Or.inr (hput stored (stored.withBatch batchId) henabled.1 rfl rfl h)
  | complete stored collection out =>
    exact Or.inr (hput stored (stored.withStatus .completed) henabled.1 rfl rfl h)
  | fail stored errorMessage =>
    exact Or.inr (hput stored (stored.fail errorMessage) henabled.1 rfl rfl h)
  | remove stored deletedAt =>
    exact Or.inr (hput stored (stored.softDelete deletedAt) henabled rfl rfl h)
  | dropCollection id =>
    obtain ⟨old, hold, _, rfl⟩ := mem_sources_dropCollection.mp h
    exact Or.inr ⟨old, hold, rfl, rfl⟩

def OwnsSource (db : Database) (user sourceId : Uuid) : Prop :=
  ∀ source ∈ db.sources, source.id = sourceId → db.Holds user source.collectionId

theorem collection_origin_play {events : List Event} {collection : Collection}
    (h : collection ∈ (Event.play events db).kbCollections) :
    (∃ e ∈ events, collection.id ∈ e.newIds) ∨ collection ∈ db.kbCollections := by
  induction events generalizing db with
  | nil => exact Or.inr h
  | cons e events ih =>
    rcases ih h with ⟨later, hlater, hnew⟩ | hmid
    · exact Or.inl ⟨later, List.mem_cons_of_mem _ hlater, hnew⟩
    · rcases collection_origin hmid with hnew | hold
      · exact Or.inl ⟨e, List.mem_cons_self, hnew⟩
      · exact Or.inr hold

theorem source_origin_play {events : List Event} (hadmissible : Event.Admissible events db)
    {source : Source} (h : source ∈ (Event.play events db).sources) :
    (∃ e ∈ events, source.id ∈ e.newIds) ∨
      ∃ old ∈ db.sources, old.id = source.id ∧ old.collectionId = source.collectionId := by
  induction events generalizing db with
  | nil => exact Or.inr ⟨source, h, rfl, rfl⟩
  | cons e events ih =>
    rcases ih hadmissible.2 h with ⟨later, hlater, hnew⟩ | ⟨mid, hmid, hid, hsame⟩
    · exact Or.inl ⟨later, List.mem_cons_of_mem _ hlater, hnew⟩
    · rcases source_origin hadmissible.1 hmid with hnew | ⟨old, hold, hid', hsame'⟩
      · exact Or.inl ⟨e, List.mem_cons_self, hid ▸ hnew⟩
      · exact Or.inr ⟨old, hold, hid'.trans hid, hsame'.trans hsame⟩

end Database

structure Server.Entrusts (server : Server) (user sourceId : Uuid) : Prop where
  known : sourceId.stream < server.clock
  owned : server.database.OwnsSource user sourceId

theorem Server.Follows.entrusts {server server' : Server} {events : List Event}
    (h : server.Follows server' events) (hsound : server.Sound) {user sourceId : Uuid}
    (hentrusts : server.Entrusts user sourceId) : server'.Entrusts user sourceId where
  known := by
    rw [h.clock]
    exact Nat.lt_succ_of_lt hentrusts.known
  owned := by
    intro source hsource hid collection hcollection hcid
    rw [h.database] at hsource hcollection
    rcases Database.source_origin_play h.admissible hsource with
      ⟨e, he, hnew⟩ | ⟨old, hold, holdId, hsame⟩
    · have hstream := h.drawn e he source.id hnew
      rw [hid] at hstream
      exact absurd hstream hentrusts.known.ne
    · obtain ⟨stored, hstored, hstoredId⟩ := hsound.intact.sourceCollections old hold
      have hstoredId' : stored.id = collection.id := hstoredId.trans (hsame.trans hcid.symm)
      rcases Database.collection_origin_play hcollection with ⟨e, he, hnew⟩ | hkept
      · have hstream := h.drawn e he collection.id hnew
        rw [← hstoredId'] at hstream
        exact absurd hstream (hsound.past.collections stored hstored).ne
      · exact hentrusts.owned old hold (holdId.trans hid) collection hkept (hcid.trans hsame.symm)

namespace Operation

def principal : Operation → Option Uuid
  | createPrivateCollection _ user _ _ => some user
  | ingestPrivateUpload _ user _ _ _ _ _ => some user
  | createPendingBatch _ user _ _ _ _ => some user
  | deleteSource _ user _ => some user
  | deleteCollection user _ => some user
  | ingestSource _ _ => none
  | recoverPendingSources => none
  | seedPublicLibraries _ _ => none

theorem spared_of_principal {server : Server} (hsound : server.Sound)
    (hcoherent : server.database.Coherent) {op : Operation} {user : Uuid}
    (hprincipal : op.principal = some user) : server.Spared (op.perform server) user := by
  cases op with
  | createPrivateCollection rt user' kind name =>
    obtain rfl : user' = user := Option.some.inj hprincipal
    obtain ⟨events, hends, hshape⟩ := createKbCollection_ends rt user' kind name hsound.ready
    have hfollows := hsound.transact hends
    rcases hshape with rfl | ⟨id, rfl⟩
    · exact .of_nil hfollows user'
    · have hholds : server.database.Holds user' id := fun other hother hid =>
        absurd hid (hfollows.admissible.1.1 other hother)
      apply hfollows.spared hsound hcoherent hholds
      rintro e (_ | ⟨_, he⟩)
      · refine ⟨rfl, ?_⟩
        rintro _ ⟨rfl⟩
        exact ⟨rfl, rfl⟩
      · exact absurd he List.not_mem_nil
  | ingestPrivateUpload rt user' collectionId kind filename fileBytes metadata =>
    obtain rfl : user' = user := Option.some.inj hprincipal
    obtain ⟨events, hends, hshape⟩ :=
      ingestPrivateUpload_ends hsound.ready rt filename fileBytes metadata user' collectionId kind
    have hfollows := hsound.transact hends
    rcases hshape with rfl | ⟨collection, existing, source, outcome, hget, howned, hsource, rfl⟩
    · exact .of_nil hfollows user'
    · exact hfollows.spared hsound hcoherent (Database.holds_of_get? hget howned)
        (confinedTo_settled hsource hfollows.admissible)
  | createPendingBatch rt user' collectionId kind metadata uploads =>
    obtain rfl : user' = user := Option.some.inj hprincipal
    obtain ⟨events, hends, hshape⟩ :=
      uploadBatch_ends hsound.ready rt metadata uploads user' collectionId kind
    have hfollows := hsound.transact hends
    rcases hshape with ⟨e, _, rfl⟩ | ⟨collection, batch, sources, groups, hget, howned, _, rfl,
      rfl, hall⟩
    · exact .of_nil hfollows user'
    · apply hfollows.spared hsound hcoherent (Database.holds_of_get? hget howned)
      refine List.forall_mem_cons.mpr ⟨⟨rfl, fun _ h => nomatch h⟩, fun e he => ?_⟩
      obtain ⟨source, _, henter⟩ := hall.enters e he
      exact henter.confinedTo
  | deleteSource rt user' sourceId =>
    obtain rfl : user' = user := Option.some.inj hprincipal
    obtain ⟨events, hends, hshape⟩ := deleteSource_ends hsound.ready rt user' sourceId
    have hfollows := hsound.transact hends
    rcases hshape with rfl | ⟨source, collection, _, _, hget, howned, rfl⟩
    · exact .of_nil hfollows user'
    · apply hfollows.spared hsound hcoherent (Database.holds_of_get? hget howned)
      exact List.forall_mem_cons.mpr ⟨⟨rfl, fun _ h => nomatch h⟩, fun _ h => nomatch h⟩
  | deleteCollection user' collectionId =>
    obtain rfl : user' = user := Option.some.inj hprincipal
    obtain ⟨events, hends, hshape⟩ := deleteCollection_ends hsound.ready user' collectionId
    have hfollows := hsound.transact hends
    rcases hshape with rfl | ⟨collection, hget, howned, rfl⟩
    · exact .of_nil hfollows user'
    · apply hfollows.spared hsound hcoherent (Database.holds_of_get? hget howned)
      exact List.forall_mem_cons.mpr ⟨⟨rfl, fun _ h => nomatch h⟩, fun _ h => nomatch h⟩
  | ingestSource rt sourceId => cases hprincipal
  | recoverPendingSources => cases hprincipal
  | seedPublicLibraries rt tree => cases hprincipal

def Created (user sourceId : Uuid) : List Operation → Server → Prop
  | [], _ => False
  | op :: ops, server =>
      (op.principal = some user ∧ server.database.sources.Fresh sourceId ∧
        ∃ source ∈ (op.perform server).database.sources.rows, source.id = sourceId) ∨
      Created user sourceId ops (op.perform server)

def InvokedBy (op : Operation) (user : Uuid) (ops : List Operation) (server : Server) : Prop :=
  op.principal = some user ∨
    ∃ rt sourceId, op = ingestSource rt sourceId ∧ Created user sourceId ops server

theorem entrusts_of_created {server : Server} (hsound : server.Sound)
    (hcoherent : server.database.Coherent) {op : Operation} {user sourceId : Uuid}
    (hprincipal : op.principal = some user) (hfresh : server.database.sources.Fresh sourceId)
    (hcreated : ∃ source ∈ (op.perform server).database.sources.rows, source.id = sourceId) :
    (op.perform server).Entrusts user sourceId := by
  obtain ⟨created, hcreated, rfl⟩ := hcreated
  obtain ⟨events, hfollows⟩ := follows hsound op
  have hspared := spared_of_principal hsound hcoherent hprincipal
  constructor
  · exact hfollows.sound.past.sources created hcreated
  · intro source hsource hid collection hcollection hcid
    by_contra hforeign
    have hmem : collection ∈ server.database.foreign user := by
      rw [← hspared.collections]
      exact Database.mem_foreign.mpr ⟨hcollection, hforeign⟩
    have hold : source ∈ server.database.sourcesOf collection.id := by
      rw [← (hspared.rows collection hmem).sources]
      exact List.mem_filter.mpr ⟨hsource, decide_eq_true hcid.symm⟩
    exact hfresh source (List.mem_filter.mp hold).1 hid

theorem spared_of_entrusts {server : Server} (hsound : server.Sound)
    (hcoherent : server.database.Coherent) (rt : Runtime) {user sourceId : Uuid}
    (hentrusts : server.Entrusts user sourceId) :
    server.Spared ((ingestSource rt sourceId).perform server) user := by
  obtain ⟨events, hends, hshape⟩ := ingestSource_ends hsound.ready rt sourceId
  have hfollows := hsound.transact hends
  rcases hshape with rfl | ⟨source, hsource, hid, _, ⟨errorMessage, rfl⟩ | ⟨collection, out, rfl⟩⟩
  · exact .of_nil hfollows user
  · apply hfollows.spared hsound hcoherent (hentrusts.owned source hsource hid)
    exact List.forall_mem_cons.mpr ⟨⟨rfl, fun _ h => nomatch h⟩, fun _ h => nomatch h⟩
  · apply hfollows.spared hsound hcoherent (hentrusts.owned source hsource hid)
    exact List.forall_mem_cons.mpr ⟨⟨rfl, fun _ h => nomatch h⟩, fun _ h => nomatch h⟩

theorem entrusts_performAll {user sourceId : Uuid} {ops : List Operation} {server : Server}
    (hsound : server.Sound) (hentrusts : server.Entrusts user sourceId) :
    (performAll ops server).Entrusts user sourceId := by
  induction ops generalizing server with
  | nil => exact hentrusts
  | cons op ops ih =>
    obtain ⟨events, hfollows⟩ := follows hsound op
    exact ih hfollows.sound (hfollows.entrusts hsound hentrusts)

theorem Created.entrusts {user sourceId : Uuid} {ops : List Operation} {server : Server}
    (hsound : server.Sound) (hcoherent : server.database.Coherent)
    (h : Created user sourceId ops server) :
    (performAll ops server).Entrusts user sourceId := by
  induction ops generalizing server with
  | nil => exact h.elim
  | cons op ops ih =>
    obtain ⟨events, hfollows⟩ := follows hsound op
    rcases h with ⟨hprincipal, hfresh, hcreated⟩ | hlater
    · exact @entrusts_performAll user sourceId ops _ hfollows.sound
        (entrusts_of_created hsound hcoherent hprincipal hfresh hcreated)
    · apply ih hfollows.sound
      · rw [hfollows.database]
        exact (hcoherent.play hsound.intact hfollows.admissible).2
      · exact hlater

theorem performAll_spares {users : List Uuid} {ops : List Operation} {op : Operation} {user : Uuid}
    (h : op.InvokedBy user ops (.empty users)) :
    (performAll ops (.empty users)).Spared (op.perform (performAll ops (.empty users))) user := by
  obtain ⟨hsound, hcoherent⟩ := performAll_coherent users ops
  rcases h with hprincipal | ⟨rt, sourceId, rfl, hcreated⟩
  · exact spared_of_principal hsound hcoherent hprincipal
  · exact spared_of_entrusts hsound hcoherent rt
      (hcreated.entrusts (.empty users) (.empty users))

def neighbours : List Operation :=
  [createPrivateCollection Runtime.reliable sampleUser .rule "house".toList, sampleBatch,
    createPrivateCollection Runtime.reliable ⟨7, 7⟩ .rule "yard".toList,
    ingestPrivateUpload Runtime.reliable ⟨7, 7⟩ ⟨2, 0⟩ .rule "yard.txt".toList [98] []]

theorem performAll_spares_job :
    Server.Spared (performAll neighbours (.empty [sampleUser, ⟨7, 7⟩]))
      ((ingestSource Runtime.reliable ⟨1, 1⟩).perform
        (performAll neighbours (.empty [sampleUser, ⟨7, 7⟩]))) sampleUser := by
  apply performAll_spares
  refine Or.inr ⟨_, _, rfl, Or.inr (Or.inl ⟨rfl, ?_, ?_⟩)⟩
  · exact Table.get?_eq_none_iff.mp (by decide +kernel)
  · decide +kernel

example : (performAll neighbours (.empty [sampleUser, ⟨7, 7⟩])).database.chunks.rows.map
    Chunk.collectionId = [⟨2, 0⟩] := by
  decide +kernel

end Operation

end YCStudio
