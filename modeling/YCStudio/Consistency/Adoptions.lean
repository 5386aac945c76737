import YCStudio.Consistency.Admission
import YCStudio.Consistency.Locality
import YCStudio.Services.KnowledgeBase

namespace YCStudio

def Event.collectionId : Event → Uuid
  | addCollection collection => collection.id
  | addBatch batch => batch.collectionId
  | addSource source => source.collectionId
  | reopen source _ => source.collectionId
  | assignBatch source _ => source.collectionId
  | complete source _ _ => source.collectionId
  | fail source _ => source.collectionId
  | remove source _ => source.collectionId
  | dropCollection id => id

inductive Event.Enters (collectionId sourceId : Uuid) : Event → Prop
  | addSource {source : Source} (hcollection : source.collectionId = collectionId)
      (hid : source.id = sourceId) : Enters collectionId sourceId (.addSource source)
  | reopen {source assigned : Source} (hcollection : source.collectionId = collectionId)
      (hid : source.id = sourceId) : Enters collectionId sourceId (.reopen source assigned)
  | assignBatch {source : Source} {batchId : Uuid} (hcollection : source.collectionId = collectionId)
      (hid : source.id = sourceId) : Enters collectionId sourceId (.assignBatch source batchId)

inductive Event.Adopts (batch : IngestBatch) (sourceId : Uuid) : List Event → Prop
  | added {source : Source} (hcollection : source.collectionId = batch.collectionId)
      (hid : source.id = sourceId) (hbatch : source.batchId = some batch.id) :
      Adopts batch sourceId [.addSource source]
  | reopened {source assigned : Source} (hcollection : source.collectionId = batch.collectionId)
      (hid : source.id = sourceId) (hassigned : assigned.collectionId = batch.collectionId)
      (hid' : assigned.id = sourceId) :
      Adopts batch sourceId [.reopen source assigned, .assignBatch assigned batch.id]

theorem Event.Adopts.enters {batch : IngestBatch} {sourceId : Uuid} {events : List Event}
    (h : Event.Adopts batch sourceId events) :
    ∀ e ∈ events, e.Enters batch.collectionId sourceId := by
  cases h with
  | added hcollection hid hbatch =>
    intro e he
    rw [List.mem_singleton.mp he]
    exact .addSource hcollection hid
  | reopened hcollection hid hassigned hid' =>
    intro e he
    rcases List.mem_cons.mp he with rfl | he
    · exact .reopen hcollection hid
    · rw [List.mem_singleton.mp he]
      exact .assignBatch hassigned hid'

abbrev Event.AdoptsAll (batch : IngestBatch) : List Source → List (List Event) → Prop :=
  List.Forall₂ fun source events => Event.Adopts batch source.id events

theorem Event.AdoptsAll.enters {batch : IngestBatch} {sources : List Source}
    {groups : List (List Event)} (h : Event.AdoptsAll batch sources groups) :
    ∀ e ∈ groups.flatten, ∃ source ∈ sources, e.Enters batch.collectionId source.id := by
  induction h with
  | nil => exact fun _ he => absurd he List.not_mem_nil
  | @cons source events sources groups hhead htail ih =>
    intro e he
    rcases List.mem_append.mp he with he | he
    · exact ⟨source, List.mem_cons_self, hhead.enters e he⟩
    · obtain ⟨other, hother, henters⟩ := ih e he
      exact ⟨other, List.mem_cons_of_mem _ hother, henters⟩

inductive Adoption (rt : Runtime) (batch : IngestBatch) (db : Database) (upload : PendingUpload) :
    Source → List Event → Prop
  | added {dirPath : Option Str} {id : Uuid} {createdAt : Timestamp}
      (hdirPath : normaliseDirPath upload.dirPath = .ok dirPath)
      (hanswer : Query.answer db
        (.sourceByHash batch.collectionId (computeContentHash rt upload.fileBytes)) = none) :
      Adoption rt batch db upload
        (newSource batch.collectionId (some batch.id) upload.filename
          (computeContentHash rt upload.fileBytes) dirPath id createdAt)
        [.addSource (newSource batch.collectionId (some batch.id) upload.filename
          (computeContentHash rt upload.fileBytes) dirPath id createdAt)]
  | reopened {dirPath : Option Str} {existing : Source}
      (hdirPath : normaliseDirPath upload.dirPath = .ok dirPath)
      (hanswer : Query.answer db (.sourceByHash batch.collectionId
        (computeContentHash rt upload.fileBytes)) = some existing)
      (hreingestable : isReingestable existing = true)
      (hreset : rt.flushFault upload.filename .reset = none) :
      Adoption rt batch db upload ((existing.reopen upload.filename dirPath).withBatch batch.id)
        [.reopen existing (existing.reopen upload.filename dirPath),
          .assignBatch (existing.reopen upload.filename dirPath) batch.id]

inductive Adoptions (rt : Runtime) (batch : IngestBatch) :
    Database → List PendingUpload → List Source → List (List Event) → Prop
  | nil {db : Database} : Adoptions rt batch db [] [] []
  | cons {db : Database} {upload : PendingUpload} {uploads : List PendingUpload} {source : Source}
      {sources : List Source} {events : List Event} {groups : List (List Event)}
      (head : Adoption rt batch db upload source events)
      (tail : Adoptions rt batch (Event.play events db) uploads sources groups) :
      Adoptions rt batch db (upload :: uploads) (source :: sources) (events :: groups)

theorem Adoption.adopts {rt : Runtime} {batch : IngestBatch} {db : Database}
    {upload : PendingUpload} {source : Source} {events : List Event}
    (h : Adoption rt batch db upload source events) : Event.Adopts batch source.id events := by
  cases h with
  | added hdirPath hanswer => exact .added rfl rfl rfl
  | reopened hdirPath hanswer hreingestable =>
    obtain ⟨_, hcollection, _⟩ := Query.sourceByHash_eq_some hanswer
    exact .reopened hcollection rfl hcollection rfl

theorem Adoptions.adoptsAll {rt : Runtime} {batch : IngestBatch} {db : Database}
    {uploads : List PendingUpload} {sources : List Source} {groups : List (List Event)}
    (h : Adoptions rt batch db uploads sources groups) : Event.AdoptsAll batch sources groups := by
  induction h with
  | nil => exact .nil
  | cons head tail ih => exact .cons head.adopts ih

theorem Event.Enters.apply {collectionId sourceId : Uuid} {e : Event}
    (h : e.Enters collectionId sourceId) (db : Database) :
    (e.apply db).ingestBatches = db.ingestBatches ∧
      (e.apply db).kbCollections = db.kbCollections := by
  cases h <;> exact ⟨rfl, rfl⟩

theorem Event.Enters.play {collectionId : Uuid} {events : List Event}
    (h : ∀ e ∈ events, ∃ sourceId, e.Enters collectionId sourceId) (db : Database) :
    (Event.play events db).ingestBatches = db.ingestBatches ∧
      (Event.play events db).kbCollections = db.kbCollections := by
  induction events generalizing db with
  | nil => exact ⟨rfl, rfl⟩
  | cons e events ih =>
    obtain ⟨⟨sourceId, henters⟩, hrest⟩ := List.forall_mem_cons.mp h
    obtain ⟨hbatches, hcollections⟩ := henters.apply db
    obtain ⟨hbatches', hcollections'⟩ := ih hrest (e.apply db)
    exact ⟨hbatches'.trans hbatches, hcollections'.trans hcollections⟩

theorem Adoptions.length_eq {rt : Runtime} {batch : IngestBatch} {db : Database}
    {uploads : List PendingUpload} {sources : List Source} {groups : List (List Event)}
    (h : Adoptions rt batch db uploads sources groups) : sources.length = uploads.length := by
  induction h with
  | nil => rfl
  | cons head tail ih => simp only [List.length_cons, ih]

theorem isReingestable_eq_false {source : Source} (h : Event.Admits source) :
    isReingestable source = false := by
  simp [isReingestable, h.deletedAt, h.pending]

theorem Adoptions.pairs {rt : Runtime} {batch : IngestBatch} {db : Database}
    {uploads : List PendingUpload} {sources : List Source} {groups : List (List Event)}
    (h : Adoptions rt batch db uploads sources groups) :
    ∀ pair ∈ sources.zip uploads,
      pair.1.contentHash = computeContentHash rt pair.2.fileBytes ∧
        pair.1.filename = pair.2.filename ∧ pair.1.collectionId = batch.collectionId := by
  induction h with
  | nil => exact fun _ hpair => absurd hpair List.not_mem_nil
  | cons head tail ih =>
    rw [List.zip_cons_cons]
    refine List.forall_mem_cons.mpr ⟨?_, ih⟩
    cases head with
    | added => exact ⟨rfl, rfl, rfl⟩
    | reopened hdirPath hanswer =>
      obtain ⟨_, hcollection, hhash⟩ := Query.sourceByHash_eq_some hanswer
      exact ⟨hhash, rfl, hcollection⟩

section Adopting

variable {rt : Runtime} {batch : IngestBatch} {db : Database} {upload : PendingUpload}
  {source held : Source} {events : List Event}
  (h : Adoption rt batch db upload source events) (hadmissible : Event.Admissible events db)

include h

theorem Adoption.admits : Event.Admits source := by
  cases h <;> exact ⟨rfl, rfl, rfl⟩

theorem Adoption.contentHash_eq : source.contentHash = computeContentHash rt upload.fileBytes := by
  cases h with
  | added hdirPath hanswer => rfl
  | reopened hdirPath hanswer hreingestable => exact (Query.sourceByHash_eq_some hanswer).2.2

theorem Adoption.filename_eq : source.filename = upload.filename := by
  cases h <;> rfl

theorem Adoption.batchId_eq : source.batchId = some batch.id := by
  cases h <;> rfl

theorem Adoption.sourceId_eq : ∀ e ∈ events, e.sourceId = some source.id := by
  cases h <;> simp [Event.sourceId, Source.withBatch, Source.reopen]

include hadmissible

theorem Adoption.mem : source ∈ (Event.play events db).sources := by
  cases h with
  | added hdirPath hanswer => exact (Table.mem_insert hadmissible.1.1).mpr (Or.inr rfl)
  | reopened hdirPath hanswer hreingestable => exact Database.mem_putSource hadmissible.2.1.1 rfl

theorem Adoption.id_ne (hheld : held ∈ db.sources) (hlive : isReingestable held = false) :
    held.id ≠ source.id := by
  cases h with
  | added hdirPath hanswer => exact hadmissible.1.1 held hheld
  | @reopened dirPath existing hdirPath hanswer hreingestable =>
    intro hid
    have hsame : held = existing :=
      Table.eq_of_key_eq hheld (Query.sourceByHash_eq_some hanswer).1 hid
    rw [hsame, hreingestable] at hlive
    cases hlive

theorem Adoption.keeps (hheld : held ∈ db.sources) (hlive : isReingestable held = false) :
    held ∈ (Event.play events db).sources := by
  have hagrees : db.AgreesOff (Event.play events db) source.id := .play hadmissible h.sourceId_eq
  have hget := hagrees.sources held.id (h.id_ne hadmissible hheld hlive)
  rw [Table.get?_key hheld] at hget
  exact (Table.get?_eq_some_iff.mp hget).1

end Adopting

section Adopted

variable {rt : Runtime} {batch : IngestBatch} {db : Database} {uploads : List PendingUpload}
  {sources : List Source} {groups : List (List Event)}
  (h : Adoptions rt batch db uploads sources groups)
  (hadmissible : Event.Admissible groups.flatten db)

include h hadmissible

theorem Adoptions.keeps {held : Source} (hheld : held ∈ db.sources)
    (hlive : isReingestable held = false) :
    held ∈ (Event.play groups.flatten db).sources ∧ held.id ∉ sources.map Source.id := by
  induction h with
  | nil => exact ⟨hheld, List.not_mem_nil⟩
  | cons head tail ih =>
    rw [List.flatten_cons] at hadmissible ⊢
    obtain ⟨hhead, htail⟩ := hadmissible.split
    obtain ⟨hmem, hnot⟩ := ih htail (head.keeps hhead hheld hlive)
    rw [Event.play, History.play_append]
    refine ⟨hmem, ?_⟩
    rw [List.map_cons, List.mem_cons, not_or]
    exact ⟨head.id_ne hhead hheld hlive, hnot⟩

theorem Adoptions.mem : ∀ source ∈ sources, source ∈ (Event.play groups.flatten db).sources := by
  induction h with
  | nil => exact fun _ hsource => absurd hsource List.not_mem_nil
  | cons head tail ih =>
    rw [List.flatten_cons] at hadmissible ⊢
    obtain ⟨hhead, htail⟩ := hadmissible.split
    rw [Event.play, History.play_append]
    refine List.forall_mem_cons.mpr ⟨?_, ih htail⟩
    exact (tail.keeps htail (head.mem hhead) (isReingestable_eq_false head.admits)).1

theorem Adoptions.nodup : (sources.map Source.id).Nodup := by
  induction h with
  | nil => exact List.nodup_nil
  | cons head tail ih =>
    rw [List.flatten_cons] at hadmissible
    obtain ⟨hhead, htail⟩ := hadmissible.split
    rw [List.map_cons, List.nodup_cons]
    exact ⟨(tail.keeps htail (head.mem hhead) (isReingestable_eq_false head.admits)).2, ih htail⟩

theorem Adoptions.mem_cases {row : Source} (hrow : row ∈ (Event.play groups.flatten db).sources) :
    row ∈ sources ∨ row ∈ db.sources := by
  induction h with
  | nil => exact Or.inr hrow
  | @cons db upload uploads source sources events groups head tail ih =>
    rw [List.flatten_cons] at hadmissible hrow
    rw [Event.play, History.play_append] at hrow
    obtain ⟨hhead, htail⟩ := hadmissible.split
    rcases ih htail hrow with hlater | hrow
    · exact Or.inl (List.mem_cons_of_mem _ hlater)
    · by_cases hid : row.id = source.id
      · rw [Table.eq_of_key_eq hrow (head.mem hhead) hid]
        exact Or.inl List.mem_cons_self
      · have hagrees : db.AgreesOff (Event.play events db) source.id := .play hhead head.sourceId_eq
        exact Or.inr ((hagrees.mem_sources hid).mp hrow)

theorem Adoptions.keeps_other {row : Source} (hrow : row ∈ db.sources)
    (hother : row.id ∉ sources.map Source.id) : row ∈ (Event.play groups.flatten db).sources := by
  induction h with
  | nil => exact hrow
  | @cons db upload uploads source sources events groups head tail ih =>
    rw [List.flatten_cons] at hadmissible ⊢
    rw [Event.play, History.play_append]
    rw [List.map_cons, List.mem_cons, not_or] at hother
    obtain ⟨hhead, htail⟩ := hadmissible.split
    have hagrees : db.AgreesOff (Event.play events db) source.id := .play hhead head.sourceId_eq
    exact ih htail ((hagrees.mem_sources hother.1).mpr hrow) hother.2

theorem Adoptions.origin : ∀ source ∈ sources,
    (db.sources.Fresh source.id ∧ ∃ e ∈ groups.flatten, source.id ∈ e.newIds) ∨
      ∃ row ∈ db.sources, row.id = source.id ∧ row.contentHash = source.contentHash ∧
        row.collectionId = source.collectionId := by
  induction h with
  | nil => exact fun _ hsource => absurd hsource List.not_mem_nil
  | @cons db upload uploads source sources events groups head tail ih =>
    rw [List.flatten_cons] at hadmissible
    obtain ⟨hhead, htail⟩ := hadmissible.split
    have hnodup := tail.keeps htail (head.mem hhead) (isReingestable_eq_false head.admits)
    refine List.forall_mem_cons.mpr ⟨?_, fun later hlater => ?_⟩
    · cases head with
      | added => exact Or.inl ⟨hhead.1.1, _, List.mem_cons_self, List.mem_cons_self⟩
      | @reopened dirPath existing hdirPath hanswer =>
        exact Or.inr ⟨existing, (Query.sourceByHash_eq_some hanswer).1, rfl, rfl, rfl⟩
    · have hne : later.id ≠ source.id :=
        fun hsource => hnodup.2 (hsource ▸ List.mem_map_of_mem hlater)
      have hagrees : db.AgreesOff (Event.play events db) source.id := .play hhead head.sourceId_eq
      rcases ih htail later hlater with ⟨hfresh, e, he, hnew⟩ | ⟨row, hrow, hid, hsame⟩
      · refine Or.inl ⟨fun row hrow hid => ?_, e, List.mem_append_right _ he, hnew⟩
        exact hfresh row ((hagrees.mem_sources (hid ▸ hne)).mpr hrow) hid
      · exact Or.inr ⟨row, (hagrees.mem_sources (hid ▸ hne)).mp hrow, hid, hsame⟩

theorem Adoptions.id_eq_of_content (hintact : db.Intact) {row source : Source}
    (hrow : row ∈ db.sources) (hsource : source ∈ sources)
    (hcollection : row.collectionId = source.collectionId)
    (hhash : row.contentHash = source.contentHash) : row.id = source.id := by
  have hend := hintact.play hadmissible
  have hmem := h.mem hadmissible source hsource
  by_cases hother : row.id ∈ sources.map Source.id
  · obtain ⟨twin, htwin, hid⟩ := List.mem_map.mp hother
    rcases h.origin hadmissible twin htwin with ⟨hfresh, _⟩ | ⟨old, hold, holdId, holdHash, holdCid⟩
    · exact absurd hid.symm (hfresh row hrow)
    · have hsame : old = row := Table.eq_of_key_eq hold hrow (holdId.trans hid)
      rw [hsame] at holdHash holdCid
      have htwin' := h.mem hadmissible twin htwin
      have heq := hend.contents twin htwin' source hmem (holdCid.symm.trans hcollection)
        (holdHash.symm.trans hhash)
      rw [← heq, hid]
  · have hkept := h.keeps_other hadmissible hrow hother
    rw [hend.contents row hkept source hmem hcollection hhash]

end Adopted

end YCStudio
