import YCStudio.Consistency.Uploads

namespace YCStudio

namespace Database

variable {db : Database}

theorem applyAll_softDeleteDocument (db : Database) (documentIds : List Uuid)
    (deletedAt : Timestamp) :
    db.applyAll (documentIds.map (.softDeleteDocument · deletedAt)) =
      db.softDelete documentIds deletedAt := by
  induction documentIds generalizing db with
  | nil =>
    have hrows : (db.softDelete [] deletedAt).documents = db.documents := by
      apply Table.ext
      exact List.map_id'' (fun _ => rfl) _
    exact congrArg (fun documents => { db with documents }) hrows.symm
  | cons id documentIds ih =>
    rw [List.map_cons, applyAll_cons, ih]
    simp only [apply, softDelete, mk.injEq, true_and, and_true]
    apply Table.ext
    simp only [Table.rows_modify, List.map_map]
    apply List.map_congr_left
    intro row _
    simp only [Function.comp_apply, List.mem_cons]
    by_cases hid : row.id = id
    · by_cases hrest : row.id ∈ documentIds <;> simp [hid, hid ▸ hrest]
    · by_cases hrest : row.id ∈ documentIds <;> simp [hid, hrest]

theorem firstRefusal_softDeleteDocument {documentIds : List Uuid} {deletedAt : Timestamp}
    (h : ∀ id ∈ documentIds, ∃ document ∈ db.documents, document.id = id) :
    db.firstRefusal (documentIds.map (.softDeleteDocument · deletedAt)) = none := by
  induction documentIds generalizing db with
  | nil => rfl
  | cons id documentIds ih =>
    obtain ⟨⟨document, hdocument, hid⟩, hrest⟩ := List.forall_mem_cons.mp h
    have haccepted : db.refusal (.softDeleteDocument id deletedAt) = none := by
      have hpresent : db.documents.get? id ≠ none := by
        rw [← hid, Table.get?_key hdocument]
        exact Option.some_ne_none document
      simp only [refusal, if_neg hpresent]
    rw [List.map_cons, firstRefusal_cons db haccepted]
    apply ih
    intro other hother
    obtain ⟨kept, hkept, hid'⟩ := hrest other hother
    refine ⟨_, List.mem_map.mpr ⟨kept, hkept, rfl⟩, ?_⟩
    split <;> exact hid'

end Database

theorem Database.eraseChunks_nil (db : Database) : db.eraseChunks [] = db := by
  have hchunks : (db.eraseChunks []).chunks = db.chunks :=
    Table.erase_eq_self fun _ _ => List.not_mem_nil
  exact congrArg (fun chunks => { db with chunks }) hchunks

section Remove

variable {w : World}

theorem removal_flushes {db : Database} {source : Source} (hsource : source ∈ db.sources)
    (deletedAt : Timestamp) {documentIds : List Uuid}
    (hids : (db.documentsOf source.id).map Document.id = documentIds) :
    (db.eraseChunks documentIds).firstRefusal
        (.updateSource source (source.softDelete deletedAt) ::
          documentIds.map (.softDeleteDocument · deletedAt)) = none ∧
      (db.eraseChunks documentIds).applyAll
        (.updateSource source (source.softDelete deletedAt) ::
          documentIds.map (.softDeleteDocument · deletedAt)) = db.removeSource source deletedAt := by
  have hmem : source ∈ (db.eraseChunks documentIds).sources := hsource
  have happly : (db.eraseChunks documentIds).apply
      (.updateSource source (source.softDelete deletedAt)) =
      (db.eraseChunks documentIds).putSource (source.softDelete deletedAt) :=
    Database.apply_updateSource hmem rfl rfl rfl
  have haccepted : (db.eraseChunks documentIds).refusal
      (.updateSource source (source.softDelete deletedAt)) = none :=
    Database.refusal_updateSource hmem (Or.inl rfl) (Or.inl rfl)
  constructor
  · rw [Database.firstRefusal_cons _ haccepted, happly]
    apply Database.firstRefusal_softDeleteDocument
    intro id hid
    rw [← hids] at hid
    obtain ⟨document, hdocument, rfl⟩ := List.mem_map.mp hid
    exact ⟨document, (List.mem_filter.mp hdocument).1, rfl⟩
  · rw [Database.applyAll_cons, happly, Database.applyAll_softDeleteDocument]
    subst hids
    rfl

variable (hready : w.Ready)

include hready

theorem removal_ends {source : Source} (hsource : source ∈ w.view.sources)
    {documentIds : List Uuid} (hids : (w.view.documentsOf source.id).map Document.id = documentIds)
    {writes : List Write} (hwrites : w.view.applyAll writes = w.view.eraseChunks documentIds)
    (fault : Option Exn) :
    ∃ events, w.Ends (exec (do
        let now ← now
        flush fault (.updateSource source (source.softDelete now) ::
          documentIds.map (.softDeleteDocument · now))
        commit) (w.advance writes 0)).2 events ∧
      (events = [] ∨ events = [.remove source w.session.now]) := by
  have hactive : (w.advance writes 0).session.health = .active := hready.active
  obtain ⟨haccepted, happly⟩ := removal_flushes hsource w.session.now hids
  cases fault with
  | some e =>
    have hlost : w.Lost ((w.advance [] 0).refuse []) := World.lost_refuse 0
    exact ⟨[], .of_runs (Runs.now.bind (Runs.flushFault hactive e _).stop) hlost.ends, Or.inl rfl⟩
  | none =>
    rw [← hwrites, ← World.view_advance w writes 0] at haccepted
    rw [← hwrites, ← Database.applyAll_append] at happly
    have hflush := Runs.flush hactive haccepted
    rw [World.advance_advance] at hflush
    have hnew : ∀ id ∈ (Event.remove source w.session.now).newIds,
        id.Drawn w.session.stream (w.session.drawn + (0 + 0)) :=
      fun _ h => absurd h List.not_mem_nil
    have hfollows : w.Follows (w.advance (writes ++ _) (0 + 0)) [.remove source w.session.now] :=
      hready.follows happly hsource hnew
    obtain ⟨hcommit, hends⟩ := hfollows.commit
    exact ⟨_, .of_runs (Runs.now.bind (hflush.bind hcommit)) hends, Or.inr rfl⟩

theorem deleteSource_eq (rt : Runtime) {user sourceId : Uuid} {source : Source}
    {collection : Collection} (hsource : w.view.sources.get? sourceId = some source)
    (howned : (w.view.kbCollections.get? source.collectionId).filter
      (fun collection => collection.scope ≠ .public ∧ collection.userId = some user) =
        some collection) {documentIds : List Uuid}
    (hids : (w.view.documentsOf sourceId).map Document.id = documentIds) :
    exec (deleteSource rt user sourceId) w = exec (do
      if documentIds ≠ [] then execute (.deleteChunks documentIds)
      let now ← now
      flush (rt.flushFault source.filename .removal)
        (.updateSource source (source.softDelete now) ::
          documentIds.map (.softDeleteDocument · now))
      commit) w := by
  refine (Runs.select hready.active (.source sourceId)).bind ?_
  rw [Query.answer, hsource]
  refine (Runs.select hready.active (.collection source.collectionId)).bind ?_
  rw [Query.answer, howned]
  refine (Runs.select hready.active (.documents sourceId)).bind ?_
  rw [Query.answer, ← hids]

theorem deleteSource_ends (rt : Runtime) (user sourceId : Uuid) :
    ∃ events, w.Ends (exec (deleteSource rt user sourceId) w).2 events ∧
      (events = [] ∨ ∃ source collection, source ∈ w.view.sources ∧ source.id = sourceId ∧
        w.view.kbCollections.get? source.collectionId = some collection ∧
        collection.OwnedBy user ∧ events = [.remove source w.session.now]) := by
  cases hsource : w.view.sources.get? sourceId with
  | none =>
    have hruns : Runs (deleteSource rt user sourceId) w (.error (sourceNotFound sourceId)) w := by
      refine (Runs.select hready.active (.source sourceId)).bind ?_
      rw [Query.answer, hsource]
      exact Runs.raise _
    exact ⟨[], .of_runs hruns hready.discard, Or.inl rfl⟩
  | some source =>
    obtain ⟨hmem, hid⟩ := Table.get?_eq_some_iff.mp hsource
    cases howned : (w.view.kbCollections.get? source.collectionId).filter
        (fun collection => collection.scope ≠ .public ∧ collection.userId = some user) with
    | none =>
      have hruns : Runs (deleteSource rt user sourceId) w
          (.error (collectionAccess "delete from a private collection")) w := by
        refine (Runs.select hready.active (.source sourceId)).bind ?_
        rw [Query.answer, hsource]
        refine (Runs.select hready.active (.collection source.collectionId)).bind ?_
        rw [Query.answer, howned]
        exact Runs.raise _
      exact ⟨[], .of_runs hruns hready.discard, Or.inl rfl⟩
    | some collection =>
      obtain ⟨hcollection, hfilter⟩ := Option.filter_eq_some_iff.mp howned
      obtain ⟨hscope, huser⟩ := of_decide_eq_true hfilter
      have howned' : collection.OwnedBy user := by
        refine ⟨?_, huser⟩
        cases hcase : collection.scope with
        | «public» => exact absurd hcase hscope
        | «private» => rfl
      obtain ⟨documentIds, hids⟩ : ∃ documentIds,
          (w.view.documentsOf sourceId).map Document.id = documentIds := ⟨_, rfl⟩
      rw [deleteSource_eq hready rt hsource howned hids]
      rw [← hid] at hids
      by_cases hdocuments : documentIds ≠ []
      · have hencodable : (Write.deleteChunks documentIds).Encodable := trivial
        have hdeleted : w.view.applyAll [.deleteChunks documentIds] =
            w.view.eraseChunks documentIds := rfl
        obtain ⟨events, hends, hevents⟩ := removal_ends hready hmem hids hdeleted
          (rt.flushFault source.filename .removal)
        simp only [if_pos hdocuments]
        rw [show exec _ w = _ from (Runs.execute hready.active hencodable).bind rfl]
        refine ⟨events, hends, hevents.imp id fun hevents => ?_⟩
        exact ⟨source, collection, hmem, hid, hcollection, howned', hevents⟩
      · have hkept : w.view.applyAll [] = w.view.eraseChunks documentIds := by
          rw [not_not.mp hdocuments, Database.eraseChunks_nil, Database.applyAll_nil]
        obtain ⟨events, hends, hevents⟩ := removal_ends hready hmem hids hkept
          (rt.flushFault source.filename .removal)
        simp only [if_neg hdocuments]
        rw [World.advance_nil] at hends
        refine ⟨events, hends, hevents.imp id fun hevents => ?_⟩
        exact ⟨source, collection, hmem, hid, hcollection, howned', hevents⟩

theorem deleteCollection_ends (user collectionId : Uuid) :
    ∃ events, w.Ends (exec (deleteCollection user collectionId) w).2 events ∧
      (events = [] ∨ ∃ collection, w.view.kbCollections.get? collectionId = some collection ∧
        collection.OwnedBy user ∧ events = [.dropCollection collectionId]) := by
  cases hcollection : w.view.kbCollections.get? collectionId with
  | none =>
    have hruns : Runs (deleteCollection user collectionId) w
        (.error (collectionNotFound collectionId)) w := by
      refine (Runs.select hready.active (.collection collectionId)).bind ?_
      rw [Query.answer, hcollection]
      exact Runs.raise _
    exact ⟨[], .of_runs hruns hready.discard, Or.inl rfl⟩
  | some collection =>
    by_cases hforeign : collection.scope ≠ .private ∨ collection.userId ≠ some user
    · have hruns : Runs (deleteCollection user collectionId) w
          (.error (collectionAccess "delete a private collection")) w := by
        refine (Runs.select hready.active (.collection collectionId)).bind ?_
        rw [Query.answer, hcollection]
        simp only [if_pos hforeign]
        exact Runs.raise _
      exact ⟨[], .of_runs hruns hready.discard, Or.inl rfl⟩
    · obtain ⟨hscope, huser⟩ := not_or.mp hforeign
      have hencodable : (Write.deleteCollection collectionId).Encodable := trivial
      have hfollows : w.Follows (w.advance [.deleteCollection collectionId] 0)
          [.dropCollection collectionId] :=
        hready.follows rfl trivial (fun _ h => absurd h List.not_mem_nil)
      obtain ⟨hcommit, hends⟩ := hfollows.commit
      have hruns : Runs (deleteCollection user collectionId) w (.ok ())
          (w.advance [.deleteCollection collectionId] 0).commit := by
        refine (Runs.select hready.active (.collection collectionId)).bind ?_
        rw [Query.answer, hcollection]
        simp only [if_neg hforeign]
        exact (Runs.execute hready.active hencodable).bind hcommit
      exact ⟨_, .of_runs hruns hends,
        Or.inr ⟨collection, rfl, ⟨not_not.mp hscope, not_not.mp huser⟩, rfl⟩⟩

end Remove

end YCStudio
