import YCStudio.Consistency.Portraits
import YCStudio.Consistency.Reuploads

namespace YCStudio

namespace PendingUpload

def key (rt : Runtime) (collectionId : Uuid) (upload : PendingUpload) : Uuid × Str :=
  (collectionId, computeContentHash rt upload.fileBytes)

def portrait (rt : Runtime) (collectionId : Uuid) (upload : PendingUpload) : Portrait where
  collectionId
  filename := upload.filename
  contentHash := computeContentHash rt upload.fileBytes
  ingestStatus := .pending
  errorMessage := none
  deletedAt := none
  documents := []

def outcome (rt : Runtime) (collection : Collection) (metadata : List (Str × Str))
    (upload : PendingUpload) : Except Failure Ingested :=
  Pipeline.outcome rt
    (newSource collection.id none upload.filename (computeContentHash rt upload.fileBytes) none
      ⟨0, 0⟩ 0)
    collection upload.filename upload.fileBytes (some metadata) none ⟨0, 0⟩ 0

def concluded (rt : Runtime) (collection : Collection) (metadata : List (Str × Str))
    (upload : PendingUpload) : Portrait :=
  (upload.portrait rt collection.id).settle
    ((upload.outcome rt collection metadata).map Ingested.portrait)

def worked (rt : Runtime) (collection : Collection) (metadata : List (Str × Str))
    (upload : PendingUpload) : Portrait :=
  if LeavesStatus (upload.outcome rt collection metadata) then
    upload.concluded rt collection metadata
  else upload.portrait rt collection.id

structure WaitsIn (rt : Runtime) (collectionId : Uuid) (upload : PendingUpload) (source : Source) :
    Prop where
  admits : Event.Admits source
  collectionId_eq : source.collectionId = collectionId
  filename_eq : source.filename = upload.filename
  contentHash_eq : source.contentHash = computeContentHash rt upload.fileBytes
  dirPath_eq : source.dirPath = none

variable {rt : Runtime} {collection : Collection} {collectionId : Uuid} {upload : PendingUpload}
  {metadata : List (Str × Str)} {source : Source} {db : Database}

@[simp] theorem key_portrait : (upload.portrait rt collectionId).key = upload.key rt collectionId :=
  rfl

@[simp] theorem key_concluded :
    (upload.concluded rt collection metadata).key = upload.key rt collection.id := by
  rw [concluded, Portrait.key_settle, key_portrait]

@[simp] theorem key_worked :
    (upload.worked rt collection metadata).key = upload.key rt collection.id := by
  rw [worked]
  split
  · exact key_concluded
  · exact key_portrait

theorem WaitsIn.key_eq (h : upload.WaitsIn rt collectionId source) :
    source.key = upload.key rt collectionId := by
  rw [Source.key, key, h.collectionId_eq, h.contentHash_eq]

theorem WaitsIn.portrait_eq (h : upload.WaitsIn rt collectionId source)
    (hempty : db.documentsOf source.id = []) :
    db.portrait source = upload.portrait rt collectionId := by
  rw [Database.portrait, portrait, hempty, h.collectionId_eq, h.filename_eq, h.contentHash_eq,
    h.admits.pending, h.admits.errorMessage, h.admits.deletedAt]
  rfl

theorem WaitsIn.outcome_eq (h : upload.WaitsIn rt collection.id source)
    (metadata : List (Str × Str)) (documentId : Uuid) (now : Timestamp) :
    (Pipeline.outcome rt source collection upload.filename upload.fileBytes (some metadata) none
      documentId now).map Ingested.portrait =
        (upload.outcome rt collection metadata).map Ingested.portrait :=
  Pipeline.portrait_outcome rt h.dirPath_eq _ _ _ _ _ _ _ _ _

theorem WaitsIn.overlays (h : upload.WaitsIn rt collection.id source) (hintact : db.Intact)
    (hsettled : db.Settled) (hsource : source ∈ db.sources) {outcome : Except Failure Ingested}
    (houtcome : outcome.map Ingested.portrait =
      (upload.outcome rt collection metadata).map Ingested.portrait)
    (hadmissible : Event.Admissible (settled [] source collection outcome) db) :
    Overlays Portrait.key db.Shows (Event.play (settled [] source collection outcome) db).Shows
      [upload.worked rt collection metadata] := by
  have hempty :=
    ((hsettled source hsource).documentsOf_eq_nil h.admits.pending h.admits.deletedAt).2
  have hiff := leavesStatus_congr houtcome
  rw [worked]
  split
  case isTrue hstatus =>
    have hoverlays := Database.overlays_settled hintact hempty (hiff.mpr hstatus) hadmissible
    rw [h.portrait_eq hempty, houtcome] at hoverlays
    exact hoverlays
  case isFalse hstatus =>
    rw [settled_eq_nil (mt hiff.mp hstatus), ← h.portrait_eq hempty]
    exact Database.overlays_self hintact hsource

end PendingUpload

namespace Database

variable {db db' : Database} {collectionId : Uuid} {contentHash : Str} {key : Uuid × Str}
  {entries : List Portrait}

def Has (db : Database) (key : Uuid × Str) : Prop := ∃ portrait, db.Shows portrait ∧ portrait.key = key

def Free (db : Database) (key : Uuid × Str) : Prop :=
  ∀ portrait, db.Shows portrait → portrait.key = key →
    portrait.deletedAt ≠ none ∨ portrait.ingestStatus = .failed

theorem has_iff_of_overlays (h : Overlays Portrait.key db.Shows db'.Shows entries)
    (hkey : key ∉ entries.map Portrait.key) : db'.Has key ↔ db.Has key := by
  have hiff : ∀ portrait, db'.Shows portrait ∧ portrait.key = key ↔
      db.Shows portrait ∧ portrait.key = key :=
    fun portrait => and_congr_left fun hsame => h.iff_of_not_mem (hsame ▸ hkey)
  exact exists_congr hiff

theorem Free.of_overlays (h : db.Free key) (hoverlays : Overlays Portrait.key db.Shows db'.Shows entries)
    (hkey : key ∉ entries.map Portrait.key) : db'.Free key := by
  intro portrait hshown hsame
  exact h portrait ((hoverlays.iff_of_not_mem (hsame ▸ hkey)).mp hshown) hsame

theorem isSome_sourceByHash_iff :
    (Query.answer db (.sourceByHash collectionId contentHash) : Option Source).isSome ↔
      db.Has (collectionId, contentHash) := by
  constructor
  · intro h
    obtain ⟨source, hanswer⟩ := Option.isSome_iff_exists.mp h
    obtain ⟨hsource, hcollection, hhash⟩ := Query.sourceByHash_eq_some hanswer
    exact ⟨_, ⟨source, hsource, rfl⟩, Prod.ext hcollection hhash⟩
  · rintro ⟨_, ⟨source, hsource, rfl⟩, hkey⟩
    obtain ⟨hcollection, hhash⟩ := Prod.mk.inj hkey
    refine List.find?_isSome.mpr ⟨source, hsource, ?_⟩
    simpa using ⟨hcollection, hhash⟩

theorem Free.filter_eq_none (h : db.Free (collectionId, contentHash)) {existing : Option Source}
    (hexisting : Query.answer db (.sourceByHash collectionId contentHash) = existing) :
    existing.filter (!isReingestable ·) = none := by
  rw [Option.filter_eq_none_iff]
  intro source hsource
  rw [Option.mem_def.mp hsource] at hexisting
  obtain ⟨hmem, hcollection, hhash⟩ := Query.sourceByHash_eq_some hexisting
  have hfree : source.deletedAt ≠ none ∨ source.ingestStatus = .failed :=
    h _ ⟨source, hmem, rfl⟩ (Prod.ext hcollection hhash)
  have hreingestable : isReingestable source = true := decide_eq_true hfree
  simp [hreingestable]

end Database

section Adopting

variable {rt : Runtime} {batch : IngestBatch} {db : Database} (hintact : db.Intact)
  (hsettled : db.Settled)

theorem normaliseDirPath_eq_none {path : Option Str} {dirPath : Option Str}
    (h : normaliseDirPath path = .ok dirPath) (hplain : path = none) : dirPath = none := by
  subst hplain
  cases h
  rfl

theorem Adoption.waitsIn {upload : PendingUpload} {source : Source} {events : List Event}
    (h : Adoption rt batch db upload source events) (hplain : upload.dirPath = none) :
    upload.WaitsIn rt batch.collectionId source := by
  refine ⟨h.admits, ?_, h.filename_eq, h.contentHash_eq, ?_⟩
  · cases h with
    | added => rfl
    | reopened hdirPath hanswer => exact (Query.sourceByHash_eq_some hanswer).2.1
  · cases h with
    | added hdirPath => exact normaliseDirPath_eq_none hdirPath hplain
    | reopened hdirPath => exact normaliseDirPath_eq_none hdirPath hplain

include hintact

theorem Adoption.free {upload : PendingUpload} {source : Source} {events : List Event}
    (h : Adoption rt batch db upload source events) :
    db.Free (upload.key rt batch.collectionId) ∧
      (db.Has (upload.key rt batch.collectionId) → rt.flushFault upload.filename .reset = none) := by
  cases h with
  | added hdirPath hanswer =>
    have hnot : ¬ db.Has (upload.key rt batch.collectionId) := by
      rw [PendingUpload.key, ← Database.isSome_sourceByHash_iff, hanswer]
      exact Bool.false_ne_true
    exact ⟨fun portrait hshown hkey => absurd ⟨portrait, hshown, hkey⟩ hnot,
      fun hhas => absurd hhas hnot⟩
  | @reopened dirPath existing hdirPath hanswer hreingestable hreset =>
    refine ⟨?_, fun _ => hreset⟩
    rintro _ ⟨row, hrow, rfl⟩ hkey
    obtain ⟨hcollection, hhash⟩ := Prod.mk.inj hkey
    obtain ⟨hmem, hcollection', hhash'⟩ := Query.sourceByHash_eq_some hanswer
    have hsame := hintact.contents row hrow existing hmem (hcollection.trans hcollection'.symm)
      (hhash.trans hhash'.symm)
    rw [hsame]
    exact of_decide_eq_true hreingestable

include hsettled

theorem Adoption.overlays {upload : PendingUpload} {source : Source} {events : List Event}
    (h : Adoption rt batch db upload source events) (hadmissible : Event.Admissible events db)
    (hplain : upload.dirPath = none) :
    Overlays Portrait.key db.Shows (Event.play events db).Shows
      [upload.portrait rt batch.collectionId] := by
  have hwaits := h.waitsIn hplain
  have hmem := h.mem hadmissible
  have hempty := ((hsettled.play hintact hadmissible source hmem).documentsOf_eq_nil
    hwaits.admits.pending hwaits.admits.deletedAt).2
  have hagrees : db.AgreesOff (Event.play events db) source.id := .play hadmissible h.sourceId_eq
  rw [← hwaits.portrait_eq hempty]
  refine hagrees.overlays (hintact.play hadmissible) hmem rfl fun old hold hid => ?_
  cases h with
  | added => exact absurd hid (hadmissible.1.1 old hold)
  | @reopened dirPath existing hdirPath hanswer =>
    rw [Table.eq_of_key_eq hold (Query.sourceByHash_eq_some hanswer).1 hid]
    rfl

end Adopting

structure Database.Enters (rt : Runtime) (collectionId : Uuid) (before after : Database)
    (uploads : List PendingUpload) : Prop where
  overlays : Overlays Portrait.key before.Shows after.Shows
    (uploads.map (PendingUpload.portrait rt collectionId))
  nodup : (uploads.map (PendingUpload.key rt collectionId)).Nodup
  free : ∀ upload ∈ uploads, before.Free (upload.key rt collectionId)
  accepted : ∀ upload ∈ uploads, before.Has (upload.key rt collectionId) →
    rt.flushFault upload.filename .reset = none

theorem PendingUpload.map_key_portrait (rt : Runtime) (collectionId : Uuid)
    (uploads : List PendingUpload) :
    (uploads.map (portrait rt collectionId)).map Portrait.key = uploads.map (key rt collectionId) := by
  rw [List.map_map]
  rfl

theorem Adoptions.enters {rt : Runtime} {batch : IngestBatch} {db : Database}
    {uploads : List PendingUpload} {sources : List Source} {groups : List (List Event)}
    (h : Adoptions rt batch db uploads sources groups) (hintact : db.Intact)
    (hsettled : db.Settled) (hadmissible : Event.Admissible groups.flatten db)
    (hplain : ∀ upload ∈ uploads, upload.dirPath = none) :
    db.Enters rt batch.collectionId (Event.play groups.flatten db) uploads := by
  induction h with
  | nil => exact ⟨.refl _, List.nodup_nil, nofun, nofun⟩
  | @cons db upload uploads source sources events groups head tail ih =>
    rw [List.flatten_cons] at hadmissible ⊢
    rw [Event.play, History.play_append]
    obtain ⟨hhead, htail⟩ := hadmissible.split
    obtain ⟨hplain', hrest⟩ := List.forall_mem_cons.mp hplain
    have hentered := head.overlays hintact hsettled hhead hplain'
    have hlater := ih (hintact.play hhead) (hsettled.play hintact hhead) htail hrest
    have hshown : (Event.play events db).Shows (upload.portrait rt batch.collectionId) :=
      (hentered _).mpr (Or.inl (List.mem_singleton_self _))
    -- The row of the first upload now waits, so that no later upload can have its bytes.
    have hother : ∀ later ∈ uploads,
        later.key rt batch.collectionId ≠ upload.key rt batch.collectionId := by
      intro later hmem hkey
      rcases hlater.free later hmem _ hshown hkey.symm with hdeleted | hfailed
      · exact hdeleted rfl
      · cases hfailed
    have hunseen : ∀ later ∈ uploads, later.key rt batch.collectionId ∉
        [upload.portrait rt batch.collectionId].map Portrait.key := by
      intro later hmem
      exact fun hin => hother later hmem (List.mem_singleton.mp hin)
    refine ⟨?_, ?_, ?_, ?_⟩
    · refine hentered.trans hlater.overlays fun key hkey hin => ?_
      rw [PendingUpload.map_key_portrait] at hin
      obtain ⟨later, hmem, rfl⟩ := List.mem_map.mp hin
      exact hunseen later hmem hkey
    · rw [List.map_cons, List.nodup_cons]
      refine ⟨fun hin => ?_, hlater.nodup⟩
      obtain ⟨later, hmem, hkey⟩ := List.mem_map.mp hin
      exact hother later hmem hkey
    · refine List.forall_mem_cons.mpr ⟨(head.free hintact).1, fun later hmem => ?_⟩
      intro portrait hbefore hkey
      have hiff := hentered.iff_of_not_mem (a := portrait) (hkey ▸ hunseen later hmem)
      exact hlater.free later hmem portrait (hiff.mpr hbefore) hkey
    · refine List.forall_mem_cons.mpr ⟨(head.free hintact).2, fun later hmem hhas => ?_⟩
      exact hlater.accepted later hmem
        ((Database.has_iff_of_overlays hentered (hunseen later hmem)).mpr hhas)

end YCStudio
