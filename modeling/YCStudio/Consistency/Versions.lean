import YCStudio.Consistency.ConcurrentIngests
import YCStudio.Consistency.Deletion
import YCStudio.Consistency.Settled

namespace YCStudio

namespace Database

def liveDocuments (db : Database) (sourceId : Uuid) : List Document :=
  (db.documentsOf sourceId).filter (·.deletedAt = none)

structure Versioned (db : Database) (source : Source) : Prop where
  unique : (db.liveDocuments source.id).length ≤ 1
  pending : source.ingestStatus = .pending → db.liveDocuments source.id = []

def SingleVersioned (db : Database) : Prop := ∀ source ∈ db.sources, db.Versioned source

variable {db db' : Database} {source source' : Source}

theorem versioned_of_nil (h : db.liveDocuments source.id = []) : db.Versioned source :=
  ⟨by rw [h]; exact Nat.zero_le 1, fun _ => h⟩

theorem liveDocuments_of_nil {sourceId : Uuid} (h : db.documentsOf sourceId = []) :
    db.liveDocuments sourceId = [] := by
  rw [liveDocuments, h, List.filter_nil]

theorem Versioned.congr (h : db.Versioned source)
    (hdocuments : db'.documentsOf source'.id = db.documentsOf source.id)
    (hstatus : source'.ingestStatus = source.ingestStatus) : db'.Versioned source' where
  unique := by
    rw [liveDocuments, hdocuments]
    exact h.unique
  pending hpending := by
    rw [liveDocuments, hdocuments]
    exact h.pending (hstatus.symm.trans hpending)

theorem SingleVersioned.of_agreesOff {sourceId : Uuid} (h : db.SingleVersioned)
    (hagrees : db.AgreesOff db' sourceId) {assigned : Source} (hmem : assigned ∈ db'.sources)
    (hid : assigned.id = sourceId) (htouched : db'.Versioned assigned) : db'.SingleVersioned :=
  hagrees.forall_sources h hmem hid htouched fun source _ hne hversioned =>
    hversioned.congr (hagrees.documents source.id hne) rfl

theorem liveDocuments_complete {collection : Collection} {out : Ingested}
    (henabled : Event.Enabled (.complete source collection out) db)
    (hnone : db.liveDocuments source.id = []) :
    (db.complete source out).liveDocuments source.id = [out.document].filter (·.deletedAt = none) := by
  rw [liveDocuments, documentsOf_complete_append henabled, List.filter_append, ← liveDocuments, hnone,
    List.nil_append]

theorem liveDocuments_removeSource (db : Database) (source : Source) (deletedAt : Timestamp) :
    (db.removeSource source deletedAt).liveDocuments source.id = [] := by
  apply List.filter_eq_nil_iff.mpr
  intro document hdocument hlive
  obtain ⟨hmem, hid⟩ := List.mem_filter.mp hdocument
  exact (buriedSource_removeSource db source deletedAt).documents document hmem
    (of_decide_eq_true hid) (of_decide_eq_true hlive)

theorem SingleVersioned.apply (h : db.SingleVersioned) (hintact : db.Intact) {e : Event}
    (henabled : e.Enabled db) : (e.apply db).SingleVersioned := by
  cases e with
  | addCollection collection => exact fun source hsource => (h source hsource).congr rfl rfl
  | addBatch batch => exact fun source hsource => (h source hsource).congr rfl rfl
  | addSource source =>
    have hempty : (db.addSource source).documentsOf source.id = [] :=
      documentsOf_fresh hintact henabled.1
    exact h.of_agreesOff (.addSource db source) ((Table.mem_insert henabled.1).mpr (Or.inr rfl)) rfl
      (versioned_of_nil (liveDocuments_of_nil hempty))
  | reopen source assigned =>
    obtain ⟨hsource, _, _, hid, _⟩ := henabled
    have hagrees := (AgreesOff.dropDocuments db source.id).trans (.putSource _ hid)
    have hdropped : source ∈ (db.dropDocuments [source.id]).sources := hsource
    have hempty : ((db.dropDocuments [source.id]).putSource assigned).documentsOf assigned.id = [] := by
      rw [hid]
      exact documentsOf_dropDocuments db source.id
    exact h.of_agreesOff hagrees (mem_putSource hdropped hid.symm) hid
      (versioned_of_nil (liveDocuments_of_nil hempty))
  | assignBatch source batchId =>
    refine h.of_agreesOff (.putSource db rfl) (mem_putSource henabled.1 rfl) rfl ?_
    exact (h source henabled.1).congr rfl rfl
  | complete source collection out =>
    refine h.of_agreesOff (.complete henabled) (mem_putSource henabled.1 rfl) rfl ⟨?_, nofun⟩
    have hlive := liveDocuments_complete henabled ((h source henabled.1).pending henabled.2.1)
    change ((db.complete source out).liveDocuments source.id).length ≤ 1
    rw [hlive]
    exact List.length_filter_le _ _
  | fail source errorMessage =>
    refine h.of_agreesOff (.putSource db rfl) (mem_putSource henabled.1 rfl) rfl ?_
    exact versioned_of_nil ((h source henabled.1).pending henabled.2.1)
  | remove source deletedAt =>
    refine h.of_agreesOff (.removeSource db source deletedAt) (mem_putSource henabled rfl) rfl ?_
    exact versioned_of_nil (liveDocuments_removeSource db source deletedAt)
  | dropCollection id =>
    intro source hsource
    obtain ⟨old, hold, hkept, rfl⟩ := mem_sources_dropCollection.mp hsource
    exact (h old hold).congr (resembles_dropCollection hold hkept).documents rfl

theorem SingleVersioned.play (h : db.SingleVersioned) (hintact : db.Intact) {events : List Event}
    (hadmissible : Event.Admissible events db) : (Event.play events db).SingleVersioned := by
  have hboth : (Event.play events db).Intact ∧ (Event.play events db).SingleVersioned :=
    @History.preserved Database Event Event.apply Event.Enabled
      (fun db => db.Intact ∧ db.SingleVersioned)
      (fun e db hinv henabled => ⟨hinv.1.apply henabled, hinv.2.apply hinv.1 henabled⟩)
      events db ⟨hintact, h⟩ hadmissible
  exact hboth.2

end Database

end YCStudio
