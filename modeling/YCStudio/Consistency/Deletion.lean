import YCStudio.Consistency.Operations

namespace YCStudio

namespace Database

structure BuriedSource (db : Database) (sourceId : Uuid) : Prop where
  documents : ∀ document ∈ db.documents, document.sourceId = sourceId → document.deletedAt ≠ none
  chunks : ∀ document ∈ db.documents, document.sourceId = sourceId → db.chunksOf document.id = []

def Buried (db : Database) : Prop :=
  ∀ source ∈ db.sources, source.deletedAt ≠ none → db.BuriedSource source.id

variable {db db' : Database}

theorem Buried.empty (users : List Uuid) : (Database.empty users).Buried :=
  fun _ hsource => absurd hsource (Table.not_mem_empty _)

theorem BuriedSource.of_agreesOff {id sourceId : Uuid} (h : db.BuriedSource id)
    (hagrees : db.AgreesOff db' sourceId) (hne : id ≠ sourceId) : db'.BuriedSource id where
  documents document hdocument hid :=
    h.documents document ((hagrees.mem_documents (hid ▸ hne)).mp hdocument) hid
  chunks document hdocument hid := by
    have hold := (hagrees.mem_documents (hid ▸ hne)).mp hdocument
    rw [hagrees.chunks document hold (hid ▸ hne)]
    exact h.chunks document hold hid

theorem Buried.of_agreesOff {sourceId : Uuid} (h : db.Buried) (hagrees : db.AgreesOff db' sourceId)
    {assigned : Source} (hmem : assigned ∈ db'.sources) (hid : assigned.id = sourceId)
    (htouched : assigned.deletedAt ≠ none → db'.BuriedSource assigned.id) : db'.Buried :=
  hagrees.forall_sources h hmem hid htouched fun _ _ hne hburied hdeleted =>
    (hburied hdeleted).of_agreesOff hagrees hne

theorem mem_documents_removeSource {source : Source} {deletedAt : Timestamp} {document : Document}
    (hdocument : document ∈ (db.removeSource source deletedAt).documents)
    (hid : document.sourceId = source.id) :
    document.deletedAt = some deletedAt ∧
      document.id ∈ (db.documentsOf source.id).map Document.id := by
  obtain ⟨old, hold, heq⟩ := mem_softDelete.mp hdocument
  by_cases hmem : old.id ∈ (db.documentsOf source.id).map Document.id
  · rw [if_pos hmem] at heq
    subst heq
    exact ⟨rfl, hmem⟩
  · rw [if_neg hmem] at heq
    subst heq
    refine absurd ?_ hmem
    exact List.mem_map_of_mem (List.mem_filter.mpr ⟨hold, decide_eq_true hid⟩)

theorem buriedSource_removeSource (db : Database) (source : Source) (deletedAt : Timestamp) :
    (db.removeSource source deletedAt).BuriedSource source.id where
  documents document hdocument hid := by
    rw [(mem_documents_removeSource hdocument hid).1]
    exact Option.some_ne_none deletedAt
  chunks document hdocument hid := by
    apply List.filter_eq_nil_iff.mpr
    intro chunk hchunk hof
    obtain ⟨_, hkept⟩ := Table.mem_erase.mp hchunk
    apply hkept
    rw [of_decide_eq_true hof]
    exact (mem_documents_removeSource hdocument hid).2

theorem BuriedSource.dropCollection {sourceId : Uuid} (h : db.BuriedSource sourceId) (id : Uuid) :
    (db.dropCollection id).BuriedSource sourceId where
  documents document hdocument hid :=
    h.documents document (mem_dropDocuments.mp hdocument).1 hid
  chunks document hdocument hid := by
    have hempty := h.chunks document (mem_dropDocuments.mp hdocument).1 hid
    apply List.filter_eq_nil_iff.mpr
    intro chunk hchunk
    obtain ⟨hchunk, _⟩ := mem_chunks_dropCollection.mp hchunk
    exact List.filter_eq_nil_iff.mp hempty chunk (mem_chunks_dropDocuments.mp hchunk).1

end Database

def Event.Spares : Event → Prop
  | complete source _ _ => source.deletedAt = none
  | _ => True

namespace Database

variable {db : Database}

theorem Buried.apply (h : db.Buried) {e : Event} (henabled : e.Enabled db) (hspares : e.Spares) :
    (e.apply db).Buried := by
  cases e with
  | addCollection collection =>
    intro source hsource hdeleted
    exact ⟨(h source hsource hdeleted).documents, (h source hsource hdeleted).chunks⟩
  | addBatch batch =>
    intro source hsource hdeleted
    exact ⟨(h source hsource hdeleted).documents, (h source hsource hdeleted).chunks⟩
  | addSource source =>
    refine h.of_agreesOff (.addSource db source) ((Table.mem_insert henabled.1).mpr (Or.inr rfl)) rfl ?_
    exact fun hdeleted => absurd henabled.2.1.deletedAt hdeleted
  | reopen source assigned =>
    obtain ⟨hsource, hadmits, _, hid, _⟩ := henabled
    have hdropped : source ∈ (db.dropDocuments [source.id]).sources := hsource
    refine h.of_agreesOff ((AgreesOff.dropDocuments db source.id).trans (.putSource _ hid))
      (mem_putSource hdropped hid.symm) hid ?_
    exact fun hdeleted => absurd hadmits.deletedAt hdeleted
  | assignBatch source batchId =>
    obtain ⟨hsource, hadmits, _⟩ := henabled
    have hput : source.withBatch batchId ∈ (db.putSource (source.withBatch batchId)).sources :=
      mem_putSource hsource rfl
    refine h.of_agreesOff (.putSource db rfl) hput rfl ?_
    exact fun hdeleted => absurd hadmits.deletedAt hdeleted
  | complete source collection out =>
    have hput : source.withStatus .completed ∈ (db.complete source out).sources :=
      mem_putSource henabled.1 rfl
    refine h.of_agreesOff (.complete henabled) hput rfl ?_
    exact fun hdeleted => absurd hspares hdeleted
  | fail source errorMessage =>
    have hput : source.fail errorMessage ∈ (db.putSource (source.fail errorMessage)).sources :=
      mem_putSource henabled.1 rfl
    refine h.of_agreesOff (.putSource db rfl) hput rfl fun hdeleted => ?_
    have hburied := h source henabled.1 hdeleted
    exact ⟨hburied.documents, hburied.chunks⟩
  | remove source deletedAt =>
    have hput : source.softDelete deletedAt ∈ (db.removeSource source deletedAt).sources :=
      mem_putSource henabled rfl
    exact h.of_agreesOff (.removeSource db source deletedAt) hput rfl
      fun _ => buriedSource_removeSource db source deletedAt
  | dropCollection id =>
    intro source hsource hdeleted
    obtain ⟨old, hold, _, rfl⟩ := mem_sources_dropCollection.mp hsource
    exact (h old hold hdeleted).dropCollection id

theorem Buried.play (h : db.Buried) {events : List Event}
    (hadmissible : Event.Admissible events db) (hspares : ∀ e ∈ events, e.Spares) :
    (Event.play events db).Buried := by
  induction events generalizing db with
  | nil => exact h
  | cons e events ih =>
    obtain ⟨hspare, hrest⟩ := List.forall_mem_cons.mp hspares
    exact ih (h.apply hadmissible.1 hspare) hadmissible.2 hrest

end Database

namespace Operation

-- The worker never asks whether the source it is about to ingest is still wanted.
def Respects (op : Operation) (server : Server) : Prop :=
  match op with
  | ingestSource _ sourceId =>
      ∀ source ∈ server.database.sources.rows, source.id = sourceId →
        source.ingestStatus = .pending → source.deletedAt = none
  | _ => True

instance (op : Operation) (server : Server) : Decidable (op.Respects server) := by
  cases op <;> unfold Respects <;> infer_instance

end Operation

theorem spares_settled {db : Database} {existing : Option Source} {source : Source}
    {collection : Collection} {outcome : Except Failure Ingested}
    (h : Event.Admissible (settled [admission existing source] source collection outcome) db) :
    ∀ e ∈ settled [admission existing source] source collection outcome, e.Spares := by
  have hadmission : (admission existing source).Spares := by
    cases existing <;> trivial
  cases outcome with
  | ok out =>
    have hadmits : Event.Admits source := by
      cases existing with
      | none => exact h.1.2.1
      | some existing => exact h.1.2.1
    rintro e (_ | ⟨_, _ | ⟨_, he⟩⟩)
    · exact hadmission
    · exact hadmits.deletedAt
    · exact absurd he List.not_mem_nil
  | error failure =>
    rw [settled]
    split
    · rintro e (_ | ⟨_, _ | ⟨_, he⟩⟩)
      · exact hadmission
      · trivial
      · exact absurd he List.not_mem_nil
    · exact fun _ he => absurd he List.not_mem_nil

theorem Event.Enters.spares {collectionId sourceId : Uuid} {e : Event}
    (h : e.Enters collectionId sourceId) : e.Spares := by
  cases h <;> trivial

theorem SeedStep.spares {rt : Runtime} {db : Database} {collection : Collection} {file : SeedFile}
    {source : Option Source} {r : Except Exn SeedOutcome} {events : List Event}
    (h : SeedStep rt db collection file source r events) : ∀ e ∈ events, e.Spares := by
  cases h with
  | unchanged hcurrent => exact fun _ he => absurd he List.not_mem_nil
  | taken hstale hanswer => exact fun _ he => absurd he List.not_mem_nil
  | failed hfails => exact fun _ he => absurd he List.not_mem_nil
  | created hanswer houtcome hadmissible =>
    rintro e (_ | ⟨_, _ | ⟨_, he⟩⟩)
    · trivial
    · rfl
    · exact absurd he List.not_mem_nil
  | updated hstale hanswer houtcome hadmissible =>
    rintro e (_ | ⟨_, _ | ⟨_, he⟩⟩)
    · trivial
    · rfl
    · exact absurd he List.not_mem_nil

theorem CollectionStep.spares {rt : Runtime} {db : Database} {library : SeedLibrary}
    {r : Except Exn (Collection × Bool)} {events : List Event}
    (h : CollectionStep rt db library r events) : ∀ e ∈ events, e.Spares := by
  cases h with
  | created hanswer hadmissible =>
    rintro e (_ | ⟨_, he⟩)
    · trivial
    · exact absurd he List.not_mem_nil
  | _ => exact fun _ he => absurd he List.not_mem_nil

theorem LibraryStep.spares {rt : Runtime} {tree : SeedTree} {library : SeedLibrary} {db : Database}
    {r : Except Exn (Bool × List SeedOutcome)} {events : List Event}
    (h : LibraryStep rt tree library db r events) : ∀ e ∈ events, e.Spares := by
  cases h with
  | seeded hfiles hcollection hdict hsteps =>
    intro e he
    rcases List.mem_append.mp he with he | he
    · exact hcollection.spares e he
    · exact hsteps.forall (fun _ _ _ _ hstep => hstep.spares) e he
  | _ => exact fun _ he => absurd he List.not_mem_nil

namespace Operation

theorem follows_spares {server : Server} (h : server.Sound) {op : Operation}
    (hrespects : op.Respects server) :
    ∃ events, server.Follows (op.perform server) events ∧ ∀ e ∈ events, e.Spares := by
  have hnone : ∀ e ∈ ([] : List Event), e.Spares := fun _ he => absurd he List.not_mem_nil
  cases op with
  | createPrivateCollection rt user kind name =>
    obtain ⟨events, hends, hshape⟩ := createKbCollection_ends rt user kind name h.ready
    refine ⟨events, h.transact hends, ?_⟩
    rcases hshape with rfl | ⟨id, rfl⟩
    · exact hnone
    · exact List.forall_mem_singleton.mpr trivial
  | ingestPrivateUpload rt user collectionId kind filename fileBytes metadata =>
    obtain ⟨events, hends, hshape⟩ :=
      ingestPrivateUpload_ends h.ready rt filename fileBytes metadata user collectionId kind
    have hfollows := h.transact hends
    refine ⟨events, hfollows, ?_⟩
    rcases hshape with rfl | ⟨collection, existing, source, outcome, _, _, _, rfl⟩
    · exact hnone
    · exact spares_settled hfollows.admissible
  | createPendingBatch rt user collectionId kind metadata uploads =>
    obtain ⟨events, hends, hshape⟩ :=
      uploadBatch_ends h.ready rt metadata uploads user collectionId kind
    refine ⟨events, h.transact hends, ?_⟩
    rcases hshape with ⟨e, _, rfl⟩ | ⟨collection, batch, sources, groups, _, _, _, rfl, _, hall⟩
    · exact hnone
    · refine List.forall_mem_cons.mpr ⟨trivial, fun e he => ?_⟩
      obtain ⟨source, _, henter⟩ := hall.enters e he
      exact henter.spares
  | ingestSource rt sourceId =>
    obtain ⟨events, hends, hshape⟩ := ingestSource_ends h.ready rt sourceId
    refine ⟨events, h.transact hends, ?_⟩
    rcases hshape with rfl | ⟨source, hsource, hid, hpending, ⟨errorMessage, rfl⟩ |
      ⟨collection, out, rfl⟩⟩
    · exact hnone
    · exact List.forall_mem_singleton.mpr trivial
    · exact List.forall_mem_singleton.mpr (hrespects source hsource hid hpending)
  | recoverPendingSources => exact ⟨[], h.transact (recoverPendingSources_ends h.ready), hnone⟩
  | deleteSource rt user sourceId =>
    obtain ⟨events, hends, hshape⟩ := deleteSource_ends h.ready rt user sourceId
    refine ⟨events, h.transact hends, ?_⟩
    rcases hshape with rfl | ⟨source, collection, _, _, _, _, rfl⟩
    · exact hnone
    · exact List.forall_mem_singleton.mpr trivial
  | deleteCollection user collectionId =>
    obtain ⟨events, hends, hshape⟩ := deleteCollection_ends h.ready user collectionId
    refine ⟨events, h.transact hends, ?_⟩
    rcases hshape with rfl | ⟨collection, _, _, rfl⟩
    · exact hnone
    · exact List.forall_mem_singleton.mpr trivial
  | seedPublicLibraries rt tree =>
    obtain ⟨r, events, hrun, _, hends⟩ := runSeedCommand_ends h.ready rt tree
    refine ⟨_, h.transact hends, ?_⟩
    cases r with
    | error e => exact hnone
    | ok results => exact hrun.forall fun _ _ _ _ hstep => hstep.spares

theorem performAll_buried {users : List Uuid} {ops : List Operation}
    (hrespects : History.Admissible perform Respects ops (.empty users)) :
    (performAll ops (.empty users)).database.Buried := by
  have hstep : ∀ server op, server.Sound → server.database.Buried → op.Respects server →
      (perform op server).database.Buried := by
    intro server op hsound hburied hrespect
    obtain ⟨events, hfollows, hspares⟩ := follows_spares hsound hrespect
    rw [hfollows.database]
    exact hburied.play hfollows.admissible hspares
  exact (performAll_invariant Respects hstep (.empty users) (.empty users) hrespects).2

def sampleRemoval : List Operation :=
  [createPrivateCollection Runtime.reliable sampleUser .rule "house".toList, sampleBatch,
    ingestSource Runtime.reliable ⟨1, 1⟩, deleteSource Runtime.reliable sampleUser ⟨1, 1⟩]

theorem performAll_buried_removal :
    (performAll sampleRemoval (.empty [sampleUser])).database.Buried :=
  performAll_buried (by decide +kernel)

def lateJob : List Operation :=
  [createPrivateCollection Runtime.reliable sampleUser .rule "house".toList, sampleBatch,
    deleteSource Runtime.reliable sampleUser ⟨1, 1⟩, ingestSource Runtime.reliable ⟨1, 1⟩]

theorem not_buried_lateJob : ¬ (performAll lateJob (.empty [sampleUser])).database.Buried := by
  have hlive : ∃ source ∈ (performAll lateJob (.empty [sampleUser])).database.sources.rows,
      source.deletedAt ≠ none ∧
        ∃ document ∈ (performAll lateJob (.empty [sampleUser])).database.documents.rows,
          document.sourceId = source.id ∧ document.deletedAt = none := by decide +kernel
  obtain ⟨source, hsource, hdeleted, document, hdocument, hid, hkept⟩ := hlive
  intro hburied
  exact (hburied source hsource hdeleted).documents document hdocument hid hkept

end Operation

end YCStudio
