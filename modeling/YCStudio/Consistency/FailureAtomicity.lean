import YCStudio.Consistency.Jobs
import YCStudio.Consistency.Locality

namespace YCStudio

inductive Attempt where
  | upload (currentUserId collectionId : Uuid) (kind : CollectionKind) (filename : Str)
      (fileBytes : Bytes) (metadata : List (Str × Str))
  | job (sourceId : Uuid)

def Attempt.run (rt : Runtime) (server : Server) : Attempt → Server
  | upload currentUserId collectionId kind filename fileBytes metadata =>
      (transact (ingestPrivateUpload rt currentUserId collectionId kind filename fileBytes metadata)
        server).2
  | job sourceId => (transact (ingestSource rt sourceId) server).2

inductive Attempt.Reaches (rt : Runtime) (server : Server) :
    Attempt → Source → Except Failure Ingested → Prop
  | upload {currentUserId collectionId : Uuid} {kind : CollectionKind} {filename : Str}
      {fileBytes : Bytes} {metadata : List (Str × Str)} {collection : Collection}
      {existing : Option Source} {source : Source} {outcome : Except Failure Ingested}
      (hcollection : server.database.kbCollections.get? collectionId = some collection)
      (howned : collection.OwnedBy currentUserId) (hkind : collection.kind = kind)
      (hexisting : Query.answer server.database
        (.sourceByHash collectionId (computeContentHash rt fileBytes)) = existing)
      (hadmissible : existing.filter (!isReingestable ·) = none)
      (hfault : admissionFault rt filename existing = none)
      (hsource : source = admitted existing collectionId filename
        (computeContentHash rt fileBytes) none ⟨server.clock, 0⟩ server.clock)
      (houtcome : Pipeline.outcome rt source collection filename fileBytes (some metadata) none
        ⟨server.clock, admissionDraws existing⟩ server.clock = outcome) :
      Reaches rt server
        (.upload currentUserId collectionId kind filename fileBytes metadata) source outcome
  | job {source : Source} {batch : IngestBatch} {collection : Collection} {content : Bytes}
      {outcome : Except Failure Ingested}
      (hsource : server.database.sources.get? source.id = some source)
      (hpending : source.ingestStatus = .pending)
      (hbatch : Query.answer server.database (.batch source.batchId) = some batch)
      (hcollection : server.database.kbCollections.get? source.collectionId = some collection)
      (hreadable : rt.readFault = none)
      (hcontent : server.files.lookup (source.id, purePathName source.filename) = some content)
      (houtcome : Pipeline.outcome rt source collection source.filename content
        (some batch.uploadMetadata) none ⟨server.clock, 0⟩ server.clock = outcome) :
      Reaches rt server (.job source.id) source outcome

def Database.RecordsFailure (db : Database) (sourceId : Uuid) : Prop :=
  ∃ row ∈ db.sources, row.id = sourceId ∧ row.ingestStatus = .failed ∧
    ∃ errorMessage, row.errorMessage = some errorMessage ∧ errorMessage.length ≤ 500

structure Database.FailureAtomic (before after : Database) (sourceId : Uuid) : Prop where
  recorded : after.RecordsFailure sourceId
  documents : ∀ document ∈ after.documents, document ∈ before.documents
  chunks : ∀ chunk ∈ after.chunks, chunk ∈ before.chunks
  others : before.AgreesOff after sourceId

namespace Database

theorem failureAtomic_self {db : Database} {sourceId : Uuid} (h : db.RecordsFailure sourceId) :
    db.FailureAtomic db sourceId :=
  ⟨h, fun _ h => h, fun _ h => h, .refl db sourceId⟩

theorem failureAtomic_fail {db : Database} {source : Source} {errorMessage : Str}
    (henabled : Event.Enabled (.fail source errorMessage) db) :
    db.FailureAtomic (Event.apply (.fail source errorMessage) db) source.id := by
  obtain ⟨hsource, _, hlength⟩ := henabled
  refine ⟨?_, fun _ h => h, fun _ h => h, .putSource db rfl⟩
  exact ⟨source.fail errorMessage, mem_putSource hsource rfl, rfl, rfl, errorMessage, rfl, hlength⟩

theorem failureAtomic_admission {db : Database} {existing : Option Source} {source : Source}
    {errorMessage : Str}
    (hadmissible : Event.Admissible [admission existing source, .fail source errorMessage] db) :
    db.FailureAtomic (Event.play [admission existing source, .fail source errorMessage] db)
      source.id := by
  obtain ⟨hadmission, hfail, _⟩ := hadmissible
  have hfailed := failureAtomic_fail hfail
  refine ⟨hfailed.recorded, ?_, ?_, ?_⟩
  · intro document hdocument
    cases existing with
    | none => exact hdocument
    | some existing => exact (mem_dropDocuments.mp hdocument).1
  · intro chunk hchunk
    cases existing with
    | none => exact hchunk
    | some existing => exact (mem_chunks_dropDocuments.mp hchunk).1
  · refine AgreesOff.trans (AgreesOff.apply hadmission ?_) hfailed.others
    cases existing with
    | none => rfl
    | some existing => exact congrArg some hadmission.2.2.2.1.symm

end Database

theorem Attempt.Reaches.follows {rt : Runtime} {server : Server} (hsound : server.Sound)
    {attempt : Attempt} {source : Source} {outcome : Except Failure Ingested}
    (h : attempt.Reaches rt server source outcome) :
    ∃ admitted collection, (admitted = [] ∨ ∃ existing, admitted = [admission existing source]) ∧
      server.Follows (attempt.run rt server) (settled admitted source collection outcome) := by
  cases h with
  | @upload _ _ _ filename fileBytes metadata collection existing _ _ hcollection howned hkind
      hexisting hadmissible hfault hsource houtcome =>
    subst hsource houtcome
    refine ⟨_, collection, Or.inr ⟨existing, rfl⟩, ?_⟩
    have hattempted := ingestPrivateUpload_attempted hsound.ready rt filename fileBytes metadata
      hcollection howned hkind hexisting hadmissible hfault
    have hstart : server.connect.session.drawn + admissionDraws existing =
        admissionDraws existing := Nat.zero_add _
    rw [hstart] at hattempted
    obtain ⟨result, w', hruns, hends, _⟩ := hattempted
    exact hsound.transact (.of_runs hruns hends)
  | @job _ _ collection _ _ hsource hpending hbatch hcollection hreadable hcontent houtcome =>
    subst houtcome
    have hread := Runs.readFile (w := server.connect) hcontent
    rw [← hreadable] at hread
    exact ⟨[], collection, Or.inl rfl, hsound.transact
      (ingestSource_settles hsound.ready rt hsource hpending hbatch hcollection hread)⟩

theorem Attempt.failureAtomic_iff {rt : Runtime} {server : Server} (hsound : server.Sound)
    {attempt : Attempt} {source : Source} {failure : Failure}
    (h : attempt.Reaches rt server source (.error failure)) :
    server.database.FailureAtomic (attempt.run rt server).database source.id ↔
      failure.Recorded ∨ server.database.RecordsFailure source.id := by
  obtain ⟨admitted, collection, hadmitted, hfollows⟩ := h.follows hsound
  rw [hfollows.database]
  have hadmissible := hfollows.admissible
  rw [settled] at hadmissible ⊢
  split at hadmissible
  case isTrue hrecorded =>
    rw [if_pos hrecorded]
    refine iff_of_true ?_ (Or.inl hrecorded)
    rcases hadmitted with rfl | ⟨existing, rfl⟩
    · exact Database.failureAtomic_fail hadmissible.1
    · exact Database.failureAtomic_admission hadmissible
  case isFalse hrecorded =>
    rw [if_neg hrecorded]
    constructor
    · intro hatomic
      exact Or.inr hatomic.recorded
    · rintro (hrecorded' | hfailed)
      · exact absurd hrecorded' hrecorded
      · exact Database.failureAtomic_self hfailed

def sampleUpload : Attempt :=
  .upload sampleUser sampleCollectionId .rule "rules.txt".toList [97] []

def sampleSource : Source :=
  newSource sampleCollectionId none "rules.txt".toList (digest [97]) none ⟨1, 0⟩ 1

def unreadable : Exn where
  errorClass := .valueError
  message := "Unable to decode text using detected encoding 'ascii'".toList

def unreadableRuntime : Runtime := { Runtime.reliable with parseFile := fun _ _ => .error unreadable }

theorem Attempt.failureAtomic_iff_unreadable :
    sampleServer.database.FailureAtomic (sampleUpload.run unreadableRuntime sampleServer).database
      sampleSource.id := by
  have hreaches : sampleUpload.Reaches unreadableRuntime sampleServer sampleSource
      (.error (.raised unreadable)) := .upload rfl ⟨rfl, rfl⟩ rfl rfl rfl rfl rfl rfl
  exact (failureAtomic_iff sampleServer_sound hreaches).mpr (Or.inl (by decide))

-- documents.title holds 200 characters, and the title of a Markdown file is its first heading.
def titleTooLong : Exn where
  errorClass := .databaseError
  message := "value too long for type character varying(200)".toList

def longTitleRuntime : Runtime :=
  { Runtime.reliable with
    flushFault := fun _ point => if point = .document then some titleTooLong else none }

theorem Attempt.not_failureAtomic_longTitle :
    sampleUpload.Reaches longTitleRuntime sampleServer sampleSource
        (.error (.refused titleTooLong)) ∧
      ¬ sampleServer.database.FailureAtomic
        (sampleUpload.run longTitleRuntime sampleServer).database sampleSource.id := by
  refine ⟨.upload rfl ⟨rfl, rfl⟩ rfl rfl rfl rfl rfl rfl, ?_⟩
  intro h
  obtain ⟨row, hrow, _⟩ := h.recorded
  have hempty : (sampleUpload.run longTitleRuntime sampleServer).database.sources.rows = [] := by
    decide +kernel
  rw [Table.mem_def, hempty] at hrow
  exact List.not_mem_nil hrow

end YCStudio
