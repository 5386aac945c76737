import YCStudio.Consistency.Events

namespace YCStudio

structure World.Ready (w : World) : Prop where
  sound : w.Sound
  active : w.session.health = .active
  savepoint : w.session.savepoint = none

structure World.Follows (w w' : World) (events : List Event) : Prop where
  ready : w'.Ready
  view : w'.view = Event.play events w.view
  admissible : Event.Admissible events w.view
  database : w'.database = w.database
  stream : w'.session.stream = w.session.stream
  now : w'.session.now = w.session.now
  refused : w'.session.refused = w.session.refused
  drawn : ∀ e ∈ events, ∀ id ∈ e.newIds, id.stream = w.session.stream

structure World.Lost (w w' : World) : Prop where
  database : w'.database = w.database
  refused : w'.session.refused = w.session.refused
  unusable : w'.session.health ≠ .active

namespace World

variable {w w' w'' : World}

theorem Follows.refl (h : w.Ready) : w.Follows w [] :=
  ⟨h, rfl, trivial, rfl, rfl, rfl, rfl, fun _ he => absurd he List.not_mem_nil⟩

theorem Follows.trans {events events' : List Event} (h : w.Follows w' events)
    (h' : w'.Follows w'' events') : w.Follows w'' (events ++ events') where
  ready := h'.ready
  view := by rw [h'.view, h.view, Event.play, Event.play, Event.play, History.play_append]
  admissible := by
    apply h.admissible.append
    rw [← Event.play, ← h.view]
    exact h'.admissible
  database := h'.database.trans h.database
  stream := h'.stream.trans h.stream
  now := h'.now.trans h.now
  refused := h'.refused.trans h.refused
  drawn e he id hid := by
    rcases List.mem_append.mp he with he | he
    · exact h.drawn e he id hid
    · exact (h'.drawn e he id hid).trans h.stream

theorem Follows.lost {events : List Event} (h : w.Follows w' events) (h' : w'.Lost w'') :
    w.Lost w'' :=
  ⟨h'.database.trans h.database, h'.refused.trans h.refused, h'.unusable⟩

theorem Ready.follows (h : w.Ready) {e : Event} {writes : List Write} {draws : Nat}
    (happly : w.view.applyAll writes = e.apply w.view) (henabled : e.Enabled w.view)
    (hnew : ∀ id ∈ e.newIds, id.Drawn w.session.stream (w.session.drawn + draws)) :
    w.Follows (w.advance writes draws) [e] where
  ready :=
    { sound := by
        constructor
        · rw [view_advance, happly]
          exact h.sound.intact.apply henabled
        · rw [view_advance, happly]
          have hbefore : w.view.Before w.session.stream (w.session.drawn + draws) :=
            h.sound.before.mono fun _ hid => hid.mono (Nat.le_add_right _ _)
          exact hbefore.apply henabled fun id hid => (hnew id hid).before
      active := h.active
      savepoint := h.savepoint }
  view := (view_advance w writes draws).trans happly
  admissible := ⟨henabled, trivial⟩
  database := rfl
  stream := rfl
  now := rfl
  refused := rfl
  drawn e' he id hid := by
    rw [List.mem_singleton.mp he] at hid
    exact (hnew id hid).1

theorem Ready.draw (h : w.Ready) (draws : Nat) : w.Follows (w.advance [] draws) [] where
  ready :=
    { sound := by
        constructor
        · rw [view_advance]
          exact h.sound.intact
        · rw [view_advance]
          exact h.sound.before.mono fun _ hid => hid.mono (Nat.le_add_right _ _)
      active := h.active
      savepoint := h.savepoint }
  view := view_advance w [] draws
  admissible := trivial
  database := rfl
  stream := rfl
  now := rfl
  refused := rfl
  drawn _ he := absurd he List.not_mem_nil

theorem lost_abort (w : World) : w.Lost w.abort := ⟨rfl, rfl, Health.noConfusion⟩

theorem lost_refuse (draws : Nat) : w.Lost ((w.advance [] draws).refuse []) where
  database := rfl
  refused := List.append_nil _
  unusable := Health.noConfusion

end World

def newSource (collectionId : Uuid) (batchId : Option Uuid) (filename contentHash : Str)
    (dirPath : Option Str) (id : Uuid) (createdAt : Timestamp) : Source where
  id
  collectionId
  batchId
  filename
  contentHash
  dirPath
  ingestStatus := .pending
  errorMessage := none
  createdAt
  deletedAt := none

theorem Query.sourceByHash_eq_none {db : Database} {collectionId : Uuid} {contentHash : Str}
    (h : Query.answer db (.sourceByHash collectionId contentHash) = none) {source : Source}
    (hcollection : source.collectionId = collectionId) (hhash : source.contentHash = contentHash) :
    ¬ db.sameContent source := by
  rintro ⟨other, hother, _, hcoll, hcontent⟩
  have hnone := List.find?_eq_none.mp h other hother
  simp [hcoll.trans hcollection, hcontent.trans hhash] at hnone

theorem Query.sourceByHash_eq_some {db : Database} {collectionId : Uuid} {contentHash : Str}
    {source : Source} (h : Query.answer db (.sourceByHash collectionId contentHash) = some source) :
    source ∈ db.sources ∧ source.collectionId = collectionId ∧
      source.contentHash = contentHash := by
  have hsome := List.find?_some h
  exact ⟨List.mem_of_find?_eq_some h, by simpa using hsome⟩

section Reset

variable {w : World} (hready : w.Ready) {source : Source} (hsource : source ∈ w.view.sources)

include hready hsource

theorem reopen_follows {assigned : Source} {writes : List Write}
    (hwrites : w.view.applyAll writes = (w.view.dropDocuments [source.id]).putSource assigned)
    (hadmits : Event.Admits assigned) (hcontent : ¬ w.view.sameContent assigned)
    (hid : assigned.id = source.id) (hcollection : assigned.collectionId = source.collectionId)
    (hbatch : assigned.batchId = source.batchId) :
    w.Follows (w.advance writes 0) [.reopen source assigned] := by
  apply hready.follows hwrites
  · exact ⟨hsource, hadmits, hcontent, hid, hcollection, hbatch⟩
  · exact fun _ h => absurd h List.not_mem_nil

theorem resetSourceForReingest_runs (filename : Str) (dirPath : Option Str) :
    ∃ w', Runs (resetSourceForReingest none source filename dirPath) w
        (.ok (source.reopen filename dirPath)) w' ∧
      w.Follows w' [.reopen source (source.reopen filename dirPath)] ∧
      w'.session.drawn = w.session.drawn := by
  let assigned := source.reopen filename dirPath
  let deletion := w.view.resolve (.deleteDocuments source.id)
  have hencodable : (Write.deleteDocuments source.id).Encodable := trivial
  have hdropped : source ∈ (w.view.dropDocuments [source.id]).sources := hsource
  have hdeletion : w.view.apply deletion = w.view.dropDocuments [source.id] :=
    Database.apply_resolve w.view (.deleteDocuments source.id)
  have hview : (w.advance [deletion] 0).view = w.view.dropDocuments [source.id] := by
    rw [World.view_advance]
    exact hdeletion
  have haccepted : (w.view.dropDocuments [source.id]).refusal (.updateSource source assigned) =
      none := Database.refusal_updateSource hdropped (Or.inl rfl) (Or.inl rfl)
  have happly : w.view.applyAll [deletion, .updateSource source assigned] =
      (w.view.dropDocuments [source.id]).putSource assigned := by
    rw [Database.applyAll_cons, hdeletion]
    exact Database.apply_updateSource hdropped rfl rfl rfl
  have haccepted' : (w.advance [deletion] 0).view.firstRefusal [.updateSource source assigned] =
      none := by
    rw [hview, Database.firstRefusal_singleton]
    exact haccepted
  have hactive : (w.advance [deletion] 0).session.health = .active := hready.active
  refine ⟨_, (Runs.execute hready.active hencodable).bind
    ((Runs.flush hactive haccepted').bind (Runs.pure _)), ?_, rfl⟩
  · rw [World.advance_advance]
    apply reopen_follows hready hsource happly ⟨rfl, rfl, rfl⟩
    · exact hready.sound.intact.not_sameContent hsource rfl rfl rfl
    · rfl
    · rfl
    · rfl

omit hsource in
theorem resetSourceForReingest_lost (e : Exn) (filename : Str) (dirPath : Option Str) :
    ∃ w', Runs (resetSourceForReingest (some e) source filename dirPath) w (.error e) w' ∧
      w.Lost w' := by
  have hactive : (w.advance [w.view.resolve (.deleteDocuments source.id)] 0).session.health =
      .active := hready.active
  have hencodable : (Write.deleteDocuments source.id).Encodable := trivial
  exact ⟨_, (Runs.execute hready.active hencodable).bind (Runs.flushFault hactive e _).stop,
    World.lost_refuse 0⟩

end Reset

def admitted (existing : Option Source) (collectionId : Uuid) (filename contentHash : Str)
    (dirPath : Option Str) (id : Uuid) (createdAt : Timestamp) : Source :=
  match existing with
  | none => newSource collectionId none filename contentHash dirPath id createdAt
  | some existing => existing.reopen filename dirPath

def admission (existing : Option Source) (source : Source) : Event :=
  match existing with
  | none => .addSource source
  | some existing => .reopen existing source

def admissionFault (rt : Runtime) (filename : Str) (existing : Option Source) : Option Exn :=
  match existing with
  | none => rt.flushFault filename .source
  | some _ => rt.flushFault filename .reset

def admissionDraws (existing : Option Source) : Nat :=
  match existing with
  | none => 1
  | some _ => 0

theorem admitted_content {db : Database} {existing : Option Source} {collectionId : Uuid}
    {contentHash : Str}
    (hexisting : Query.answer db (.sourceByHash collectionId contentHash) = existing)
    (filename : Str) (dirPath : Option Str) (id : Uuid) (createdAt : Timestamp) :
    let source := admitted existing collectionId filename contentHash dirPath id createdAt
    source.collectionId = collectionId ∧ source.contentHash = contentHash := by
  cases existing with
  | none => exact ⟨rfl, rfl⟩
  | some existing => exact (Query.sourceByHash_eq_some hexisting).2

section Admit

variable {rt : Runtime} {w : World} (hready : w.Ready) {collectionId : Uuid}
  {filename contentHash : Str} {dirPath : Option Str} {existing : Option Source}
  (hexisting : Query.answer w.view (.sourceByHash collectionId contentHash) = existing)

include hready hexisting

theorem admitSource_runs {collection : Collection}
    (hcollection : w.view.kbCollections.get? collectionId = some collection)
    (hfault : admissionFault rt filename existing = none) :
    ∃ w', Runs (admitSource rt existing collectionId filename contentHash dirPath) w
        (.ok (admitted existing collectionId filename contentHash dirPath
          ⟨w.session.stream, w.session.drawn⟩ w.session.now)) w' ∧
      w.Follows w' [admission existing (admitted existing collectionId filename contentHash dirPath
        ⟨w.session.stream, w.session.drawn⟩ w.session.now)] ∧
      w'.session.drawn = w.session.drawn + admissionDraws existing := by
  cases existing with
  | none =>
    let source := newSource collectionId none filename contentHash dirPath
      ⟨w.session.stream, w.session.drawn⟩ w.session.now
    have hfresh : w.view.sources.Fresh source.id :=
      fun row hrow => (hready.sound.before.sources row hrow).ne (Nat.le_refl _)
    have hcontent : ¬ w.view.sameContent source := Query.sourceByHash_eq_none hexisting rfl rfl
    have hbatch : ¬ w.view.batchMissing source.batchId := by
      rintro ⟨id, hid, _⟩
      cases hid
    have hview : (w.advance [] 1).view = w.view := World.view_advance w [] 1
    have haccepted : (w.advance [] 1).view.firstRefusal [.insertSource source] = none := by
      rw [hview, Database.firstRefusal_singleton]
      exact Database.refusal_insertSource hfresh hcontent hcollection hbatch
    rw [admissionFault] at hfault
    have hflush : Runs (flush (rt.flushFault filename .source) [.insertSource source])
        (w.advance [] 1) (.ok ()) ((w.advance [] 1).advance [.insertSource source] 0) := by
      have hactive : (w.advance [] 1).session.health = .active := hready.active
      rw [hfault]
      exact Runs.flush hactive haccepted
    refine ⟨_, Runs.newId.bind (Runs.now.bind (hflush.bind (Runs.pure _))), ?_, rfl⟩
    rw [World.advance_advance]
    apply hready.follows rfl
    · refine ⟨hfresh, ⟨rfl, rfl, rfl⟩, hcontent, ?_, ?_⟩
      · exact ⟨collection, Table.get?_eq_some_iff.mp hcollection⟩
      · exact fun _ h => nomatch h
    · intro id hid
      rw [List.mem_singleton.mp hid]
      exact Uuid.drawn_draw (Nat.lt_add_one 0)
  | some existing =>
    obtain ⟨hsource, _⟩ := Query.sourceByHash_eq_some hexisting
    obtain ⟨w', hruns, hfollows, hdrawn⟩ :=
      resetSourceForReingest_runs hready hsource filename dirPath
    rw [admissionFault] at hfault
    refine ⟨w', ?_, hfollows, hdrawn⟩
    rw [admitSource, hfault]
    exact hruns

omit hexisting in
theorem admitSource_lost {e : Exn} (hfault : admissionFault rt filename existing = some e) :
    ∃ w', Runs (admitSource rt existing collectionId filename contentHash dirPath) w (.error e)
        w' ∧ w.Lost w' := by
  cases existing with
  | none =>
    rw [admissionFault] at hfault
    have hactive : (w.advance [] 1).session.health = .active := hready.active
    refine ⟨_, Runs.newId.bind (Runs.now.bind ?_), World.lost_refuse 1⟩
    rw [hfault]
    exact (Runs.flushFault hactive e _).stop
  | some existing =>
    rw [admissionFault] at hfault
    obtain ⟨w', hruns, hlost⟩ := resetSourceForReingest_lost hready e filename dirPath
    refine ⟨w', ?_, hlost⟩
    rw [admitSource, hfault]
    exact hruns

end Admit

end YCStudio
