import YCStudio.Consistency.Transactions

namespace YCStudio

structure Collection.OwnedBy (collection : Collection) (user : Uuid) : Prop where
  scope : collection.scope = .private
  userId : collection.userId = some user

def settled (admitted : List Event) (source : Source) (collection : Collection) :
    Except Failure Ingested → List Event
  | .ok out => admitted ++ [.complete source collection out]
  | .error failure =>
      if failure.Recorded then admitted ++ [.fail source failure.exn.recorded] else []

theorem forall_settled {P : Event → Prop} {admitted : List Event} {source : Source}
    {collection : Collection} {outcome : Except Failure Ingested} (hadmitted : ∀ e ∈ admitted, P e)
    (hcomplete : ∀ out, outcome = .ok out → P (.complete source collection out))
    (hfail : ∀ errorMessage, P (.fail source errorMessage)) :
    ∀ e ∈ settled admitted source collection outcome, P e := by
  intro e he
  cases outcome with
  | ok out =>
    rcases List.mem_append.mp he with he | he
    · exact hadmitted e he
    · rw [List.mem_singleton.mp he]
      exact hcomplete out rfl
  | error failure =>
    rw [settled] at he
    split at he
    · rcases List.mem_append.mp he with he | he
      · exact hadmitted e he
      · rw [List.mem_singleton.mp he]
        exact hfail _
    · exact absurd he List.not_mem_nil

namespace World

variable {w w' : World} {events : List Event}

theorem Ends.of_runs {α : Type} {p : Program α} {r : Except Exn α} {w₀ : World}
    (h : Runs p w₀ r w') (hends : w.Ends w' events) : w.Ends (exec p w₀).2 events := by
  rw [h.world]
  exact hends

theorem Ready.discard (h : w.Ready) : w.Ends w [] := (Follows.refl h).discard

end World

section Owned

variable {w : World} (hactive : w.session.health = .active) {user collectionId : Uuid}
  {kind : CollectionKind}

include hactive

theorem ownedPrivateCollection_runs {collection : Collection}
    (hcollection : w.view.kbCollections.get? collectionId = some collection)
    (howned : collection.OwnedBy user) (hkind : collection.kind = kind) :
    Runs (ownedPrivateCollection user collectionId kind) w (.ok collection) w := by
  refine (Runs.select hactive (.collection collectionId)).bind ?_
  rw [Query.answer, hcollection]
  simp only [howned.scope, howned.userId, hkind, ne_eq, not_true_eq_false, or_self, if_false]
  exact Runs.pure _

theorem ownedPrivateCollection_cases (user collectionId : Uuid) (kind : CollectionKind) :
    (∃ e, Runs (ownedPrivateCollection user collectionId kind) w (.error e) w) ∨
      ∃ collection, w.view.kbCollections.get? collectionId = some collection ∧
        collection.OwnedBy user ∧ collection.kind = kind := by
  cases hcollection : w.view.kbCollections.get? collectionId with
  | none =>
    refine Or.inl ⟨collectionNotFound collectionId, ?_⟩
    refine (Runs.select hactive (.collection collectionId)).bind ?_
    rw [Query.answer, hcollection]
    exact Runs.raise _
  | some collection =>
    by_cases howned : collection.scope ≠ .private ∨ collection.userId ≠ some user
    · refine Or.inl ⟨collectionAccess "upload to a private collection", ?_⟩
      refine (Runs.select hactive (.collection collectionId)).bind ?_
      rw [Query.answer, hcollection]
      simp only [if_pos howned]
      exact Runs.raise _
    · by_cases hkind : collection.kind ≠ kind
      · refine Or.inl ⟨collectionKindMismatch kind collection.kind, ?_⟩
        refine (Runs.select hactive (.collection collectionId)).bind ?_
        rw [Query.answer, hcollection]
        simp only [if_neg howned, if_pos hkind]
        exact Runs.raise _
      · obtain ⟨hscope, huser⟩ := not_or.mp howned
        exact Or.inr ⟨collection, rfl, ⟨not_not.mp hscope, not_not.mp huser⟩, not_not.mp hkind⟩

end Owned

section Upload

variable {w w' : World} {rt : Runtime} {user collectionId : Uuid} {kind : CollectionKind}
  {filename : Str} {fileBytes : Bytes} {metadata : List (Str × Str)} {collection : Collection}
  {events : List Event}
  (howned : Runs (ownedPrivateCollection user collectionId kind) w (.ok collection) w)

include howned

theorem ingestPrivateUpload_returns {result : IngestResult}
    (hruns : Runs (ingestDocument rt collectionId filename fileBytes none (some metadata) none) w
      (.ok result) w') (hfollows : w.Follows w' events) :
    ∃ w'', Runs (ingestPrivateUpload rt user collectionId kind filename fileBytes metadata) w
      (.ok result) w'' ∧ w.Ends w'' events := by
  obtain ⟨hcommit, hends⟩ := hfollows.commit
  exact ⟨_, howned.bind ((Runs.tryOk hruns).bind (hcommit.bind (Runs.pure result))), hends⟩

theorem ingestPrivateUpload_raises {e : Exn}
    (hruns : Runs (ingestDocument rt collectionId filename fileBytes none (some metadata) none) w
      (.error e) w') (hfollows : w.Follows w' events) :
    ∃ w'', Runs (ingestPrivateUpload rt user collectionId kind filename fileBytes metadata) w
      (.error e) w'' ∧ w.Ends w'' events := by
  obtain ⟨hcommit, hends⟩ := hfollows.commit
  exact ⟨_, howned.bind (Runs.tryError hruns (hcommit.bind (Runs.raise e))).stop, hends⟩

theorem ingestPrivateUpload_loses {e : Exn}
    (hruns : Runs (ingestDocument rt collectionId filename fileBytes none (some metadata) none) w
      (.error e) w') (hlost : w.Lost w') :
    ∃ e' w'', Runs (ingestPrivateUpload rt user collectionId kind filename fileBytes metadata) w
      (.error e') w'' ∧ w.Ends w'' [] := by
  obtain ⟨e', w'', hcommit, hends⟩ := hlost.commit e
  exact ⟨e', w'', howned.bind (Runs.tryError hruns hcommit).stop, hends⟩

end Upload

def Reports (outcome : Except Failure Ingested) (result : Except Exn IngestResult) : Prop :=
  match outcome with
  | .ok out => result = .ok out.result
  | .error _ => ∃ e, result = .error e

section Settled

variable {w w₁ : World} {rt : Runtime} {user collectionId : Uuid} {kind : CollectionKind}
  {filename : Str} {fileBytes : Bytes} {metadata : List (Str × Str)} {collection : Collection}
  (howned : Runs (ownedPrivateCollection user collectionId kind) w (.ok collection) w)

include howned

theorem ingestPrivateUpload_settles {source : Source} {admitted : List Event}
    {outcome : Except Failure Ingested} (hadmitted : w.Follows w₁ admitted)
    (hsettles : w₁.Settles source collection
      (exec (ingestDocument rt collectionId filename fileBytes none (some metadata) none) w)
      outcome) :
    ∃ result w', Runs (ingestPrivateUpload rt user collectionId kind filename fileBytes metadata) w
        result w' ∧
      w.Ends w' (settled admitted source collection outcome) ∧ Reports outcome result := by
  cases outcome with
  | ok out =>
    obtain ⟨hresult, hfollows⟩ := hsettles
    obtain ⟨w', hruns, hends⟩ :=
      ingestPrivateUpload_returns howned (Prod.ext hresult rfl) (hadmitted.trans hfollows)
    exact ⟨_, w', hruns, hends, rfl⟩
  | error failure =>
    rw [World.Settles] at hsettles
    rw [settled]
    split at hsettles
    case isTrue hrecorded =>
      obtain ⟨hresult, hfollows⟩ := hsettles
      obtain ⟨w', hruns, hends⟩ :=
        ingestPrivateUpload_raises howned (Prod.ext hresult rfl) (hadmitted.trans hfollows)
      rw [if_pos hrecorded]
      exact ⟨_, w', hruns, hends, _, rfl⟩
    case isFalse hrecorded =>
      obtain ⟨⟨e, hresult⟩, hlost⟩ := hsettles
      obtain ⟨e', w', hruns, hends⟩ :=
        ingestPrivateUpload_loses howned (Prod.ext hresult rfl) (hadmitted.lost hlost)
      rw [if_neg hrecorded]
      exact ⟨_, w', hruns, hends, e', rfl⟩

end Settled

section PrivateUpload

variable {w : World} (hready : w.Ready) (rt : Runtime) {user collectionId : Uuid}
  {kind : CollectionKind} (filename : Str) (fileBytes : Bytes) (metadata : List (Str × Str))

include hready

theorem ingestPrivateUpload_attempted {collection : Collection} {existing : Option Source}
    (hcollection : w.view.kbCollections.get? collectionId = some collection)
    (howned : collection.OwnedBy user) (hkind : collection.kind = kind)
    (hexisting : Query.answer w.view
      (.sourceByHash collectionId (computeContentHash rt fileBytes)) = existing)
    (hadmissible : existing.filter (!isReingestable ·) = none)
    (hfault : admissionFault rt filename existing = none) :
    let source := admitted existing collectionId filename (computeContentHash rt fileBytes) none
      ⟨w.session.stream, w.session.drawn⟩ w.session.now
    let outcome := Pipeline.outcome rt source collection filename fileBytes (some metadata) none
      ⟨w.session.stream, w.session.drawn + admissionDraws existing⟩ w.session.now
    ∃ result w', Runs (ingestPrivateUpload rt user collectionId kind filename fileBytes metadata) w
        result w' ∧
      w.Ends w' (settled [admission existing source] source collection outcome) ∧
        Reports outcome result := by
  intro source outcome
  obtain ⟨w₁, hadmitted, hsettles⟩ := ingestDocument_settles hready rt filename fileBytes none
    (some metadata) none hexisting hadmissible hcollection hfault
  exact ingestPrivateUpload_settles
    (ownedPrivateCollection_runs hready.active hcollection howned hkind) hadmitted hsettles

def liveSource (db : Database) (collectionId : Uuid) (contentHash : Str) : Option Source :=
  Option.filter (!isReingestable ·) (Query.answer db (.sourceByHash collectionId contentHash))

inductive UploadStep (rt : Runtime) (db : Database) (user collectionId : Uuid) (filename : Str)
    (fileBytes : Bytes) (metadata : List (Str × Str)) :
    Except Exn IngestResult → List Event → Prop
  | refused {e : Exn} : UploadStep rt db user collectionId filename fileBytes metadata (.error e) []
  | skipped {duplicate : Source}
      (hduplicate : liveSource db collectionId (computeContentHash rt fileBytes) = some duplicate) :
      UploadStep rt db user collectionId filename fileBytes metadata
        (.ok { sourceId := duplicate.id, documentId := none, chunkCount := 0, skipped := true }) []
  | attempted {result : Except Exn IngestResult} {collection : Collection} {existing : Option Source}
      {id documentId : Uuid} {now : Timestamp} {source : Source} {outcome : Except Failure Ingested}
      (hcollection : db.kbCollections.get? collectionId = some collection)
      (howned : collection.OwnedBy user)
      (hexisting : Query.answer db
        (.sourceByHash collectionId (computeContentHash rt fileBytes)) = existing)
      (hadmissible : existing.filter (!isReingestable ·) = none)
      (hsource : source = admitted existing collectionId filename
        (computeContentHash rt fileBytes) none id now)
      (houtcome : outcome = Pipeline.outcome rt source collection filename fileBytes
        (some metadata) none documentId now)
      (hreports : Reports outcome result) :
      UploadStep rt db user collectionId filename fileBytes metadata result
        (settled [admission existing source] source collection outcome)

theorem ingestPrivateUpload_steps (user collectionId : Uuid) (kind : CollectionKind) :
    ∃ result w' events,
      Runs (ingestPrivateUpload rt user collectionId kind filename fileBytes metadata) w result w' ∧
        w.Ends w' events ∧
        UploadStep rt w.view user collectionId filename fileBytes metadata result events := by
  rcases ownedPrivateCollection_cases hready.active user collectionId kind with
    ⟨e, hrefused⟩ | ⟨collection, hcollection, howned, hkind⟩
  · exact ⟨_, _, [], hrefused.stop, hready.discard, .refused⟩
  · have hruns := ownedPrivateCollection_runs hready.active hcollection howned hkind
    obtain ⟨existing, hexisting⟩ : ∃ existing : Option Source, Query.answer w.view
        (.sourceByHash collectionId (computeContentHash rt fileBytes)) = existing := ⟨_, rfl⟩
    cases hadmissible : existing.filter (!isReingestable ·) with
    | some duplicate =>
      have hskipped := ingestDocument_duplicate rt filename fileBytes none (some metadata) none
        hready.active hexisting hadmissible
      obtain ⟨w', hdone, hends⟩ := ingestPrivateUpload_returns hruns hskipped (.refl hready)
      refine ⟨_, w', [], hdone, hends, .skipped ?_⟩
      rw [liveSource, hexisting]
      exact hadmissible
    | none =>
      cases hfault : admissionFault rt filename existing with
      | none =>
        obtain ⟨result, w', hdone, hends, hreports⟩ := ingestPrivateUpload_attempted hready rt
          filename fileBytes metadata hcollection howned hkind hexisting hadmissible hfault
        exact ⟨result, w', _, hdone, hends,
          .attempted hcollection howned hexisting hadmissible rfl rfl hreports⟩
      | some e =>
        obtain ⟨w', hlost, hlost'⟩ := ingestDocument_lost hready rt filename fileBytes none
          (some metadata) none hexisting hadmissible hcollection hfault
        obtain ⟨e', w'', hdone, hends⟩ := ingestPrivateUpload_loses hruns hlost hlost'
        exact ⟨_, w'', [], hdone, hends, .refused⟩

def Uploaded (db : Database) (user collectionId : Uuid) (events : List Event) : Prop :=
  events = [] ∨ ∃ collection existing source outcome,
    db.kbCollections.get? collectionId = some collection ∧ collection.OwnedBy user ∧
      source.collectionId = collectionId ∧
        events = settled [admission existing source] source collection outcome

theorem ingestPrivateUpload_ends (user collectionId : Uuid) (kind : CollectionKind) :
    ∃ events,
      w.Ends
        (exec (ingestPrivateUpload rt user collectionId kind filename fileBytes metadata) w).2
        events ∧ Uploaded w.view user collectionId events := by
  obtain ⟨result, w', events, hruns, hends, hstep⟩ :=
    ingestPrivateUpload_steps hready rt filename fileBytes metadata user collectionId kind
  refine ⟨events, .of_runs hruns hends, ?_⟩
  cases hstep with
  | refused => exact Or.inl rfl
  | skipped hduplicate => exact Or.inl rfl
  | attempted hcollection howned hexisting hadmissible hsource houtcome hreports =>
    exact Or.inr ⟨_, _, _, _, hcollection, howned,
      hsource ▸ admitted_collectionId filename none hexisting, rfl⟩

end PrivateUpload

section Create

variable {w w₁ : World} (rt : Runtime) (user : Uuid) (kind : CollectionKind) (name : Str)

def newCollection (user : Uuid) (kind : CollectionKind) (name : Str) (id : Uuid) : Collection where
  id
  userId := some user
  kind
  scope := .private
  name

theorem not_duplicatesContent_of_firstRefusal {db : Database} {collection : Collection}
    {refusal : Database.Refusal}
    (h : db.firstRefusal [.insertCollection collection] = some refusal) :
    ¬ refusal.duplicatesContent := by
  rw [Database.firstRefusal_singleton, Database.refusal] at h
  rintro rfl
  split at h
  · cases h
  · split at h
    · cases h
    · split at h <;> cases h

theorem Database.accepts_collection {db : Database} {collection : Collection}
    (h : db.firstRefusal [.insertCollection collection] = none) :
    db.kbCollections.Fresh collection.id ∧ ¬ db.sameOwnerKindName collection ∧
      ∀ user ∈ collection.userId, user ∈ db.users := by
  rw [firstRefusal_singleton, refusal] at h
  split at h
  · cases h
  · split at h
    · cases h
    · split at h
      · cases h
      · rename_i hid hname howner
        refine ⟨?_, hname, ?_⟩
        · exact Table.get?_eq_none_iff.mp (Option.not_isSome_iff_eq_none.mp hid)
        · intro user huser
          refine not_not.mp fun hmissing => howner ⟨user, ?_, hmissing⟩
          exact Option.mem_toList.mpr huser

theorem createPrivateCollection_raises {e : Exn}
    (hflush : Runs (flush (rt.flushFault [] .collection) [.insertCollection
      (newCollection user kind name ⟨w.session.stream, w.session.drawn⟩)]) (w.advance [] 1)
      (.error e) w₁) :
    ∃ e' w₂, Runs (createPrivateCollection rt user kind name) w (.error e') w₂ ∧
      w₂.database = w₁.database ∧ w₂.session.refused = w₁.session.refused := by
  obtain ⟨errorClass, message⟩ := e
  by_cases hintegrity : ∃ constraint, errorClass = .integrityError constraint
  · obtain ⟨constraint, rfl⟩ := hintegrity
    exact ⟨_, w₁.rollback, Runs.newId.bind
      (Runs.tryError hflush (Runs.rollback.bind (Runs.raise _))).stop, rfl, rfl⟩
  · refine ⟨⟨errorClass, message⟩, w₁, Runs.newId.bind (Runs.tryError hflush ?_).stop, rfl, rfl⟩
    cases errorClass with
    | integrityError constraint => exact absurd ⟨constraint, rfl⟩ hintegrity
    | _ => exact Runs.raise _

theorem createKbCollection_ends (hready : w.Ready) :
    ∃ events, w.Ends (exec (createKbCollection rt user kind name) w).2 events ∧
      (events = [] ∨ ∃ id, events = [.addCollection (newCollection user kind name id)]) := by
  let collection := newCollection user kind name ⟨w.session.stream, w.session.drawn⟩
  have hactive : (w.advance [] 1).session.health = .active := hready.active
  cases hfault : rt.flushFault [] .collection with
  | some e =>
    have hflush := Runs.flushFault hactive e [.insertCollection collection]
    obtain ⟨e', w₂, hruns, hdatabase, hrefused⟩ :=
      createPrivateCollection_raises rt user kind name (hfault ▸ hflush)
    refine ⟨[], .of_runs hruns.stop (.discarded hdatabase ?_), Or.inl rfl⟩
    intro refusal hrefusal
    rw [hrefused] at hrefusal
    exact Or.inl (List.append_nil w.session.refused ▸ hrefusal)
  | none =>
    cases hrefusal : (w.advance [] 1).view.firstRefusal [.insertCollection collection] with
    | some refusal =>
      have hflush := Runs.flushRefused hactive hrefusal
      obtain ⟨e', w₂, hruns, hdatabase, hrefused⟩ :=
        createPrivateCollection_raises rt user kind name (hfault ▸ hflush)
      refine ⟨[], .of_runs hruns.stop (.discarded hdatabase ?_), Or.inl rfl⟩
      intro other hother
      rw [hrefused] at hother
      rcases List.mem_append.mp hother with hold | hnew
      · exact Or.inl hold
      · rw [List.mem_singleton.mp hnew]
        exact Or.inr (not_duplicatesContent_of_firstRefusal hrefusal)
    | none =>
      have hflush := Runs.flush hactive hrefusal
      rw [World.advance_advance] at hflush
      have hruns : Runs (createPrivateCollection rt user kind name) w (.ok collection)
          (w.advance [.insertCollection collection] 1) :=
        Runs.newId.bind ((Runs.tryOk (hfault ▸ hflush)).bind (Runs.pure _))
      rw [World.view_advance] at hrefusal
      obtain ⟨hfresh, hname, howner⟩ := Database.accepts_collection hrefusal
      have hfollows : w.Follows (w.advance [.insertCollection collection] 1)
          [.addCollection collection] := by
        apply hready.follows rfl
        · exact ⟨hfresh, howner, hname, by simp [collection, newCollection]⟩
        · intro id hid
          rw [List.mem_singleton.mp hid]
          exact Uuid.drawn_draw (Nat.lt_add_one 0)
      obtain ⟨hcommit, hends⟩ := hfollows.commit
      exact ⟨_, .of_runs (hruns.bind (hcommit.bind (Runs.pure _))) hends, Or.inr ⟨_, rfl⟩⟩

end Create

def sampleUser : Uuid := ⟨0, 0⟩

def sampleCollectionId : Uuid := ⟨0, 0⟩

def sampleServer : Server :=
  (transact (createKbCollection Runtime.reliable sampleUser .rule "house".toList)
    (Server.empty [sampleUser])).2

theorem sampleServer_sound : sampleServer.Sound := by
  have hempty := Server.Sound.empty [sampleUser]
  obtain ⟨events, hends, _⟩ :=
    createKbCollection_ends Runtime.reliable sampleUser .rule "house".toList hempty.ready
  exact (hempty.transact hends).sound

end YCStudio
