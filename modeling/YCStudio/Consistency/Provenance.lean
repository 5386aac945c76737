import YCStudio.Consistency.Originals
import YCStudio.Consistency.Settled

namespace YCStudio

def Pipeline.Makes (sha256 : Bytes → Str) (contentHash : Str) (out : Ingested) : Prop :=
  ∃ rt source collection filename fileBytes metadata documentId createdAt,
    sha256 fileBytes = contentHash ∧
      outcome rt source collection filename fileBytes metadata none documentId createdAt = .ok out

def Event.Genuine (made : Str → Ingested → Prop) : Event → Prop
  | complete source _ out => source.deletedAt = none → made source.contentHash out
  | _ => True

namespace Database

structure Yields (db : Database) (sourceId : Uuid) (out : Ingested) : Prop where
  documents : db.documentsOf sourceId = [out.document]
  chunks : db.chunksOf out.document.id = out.chunks

def Made (db : Database) (made : Str → Ingested → Prop) : Prop :=
  ∀ source ∈ db.sources, source.ingestStatus = .completed → source.deletedAt = none →
    ∃ out, made source.contentHash out ∧ db.Yields source.id out

variable {db db' : Database} {made : Str → Ingested → Prop}

theorem Yields.of_resembles {source : Source} {out : Ingested} (h : db.Yields source.id out)
    (hsettles : db.Settles source) (hcompleted : source.ingestStatus = .completed)
    (hlive : source.deletedAt = none) (hsame : db.Resembles db' source) :
    db'.Yields source.id out := by
  rw [Settles, hcompleted] at hsettles
  obtain ⟨_, document, hembodies⟩ := hsettles hlive
  obtain rfl : out.document = document :=
    (List.cons.inj (h.documents.symm.trans hembodies.documents)).1
  have hmem : out.document ∈ db.documentsOf source.id := by
    rw [h.documents]
    exact List.mem_singleton_self _
  exact ⟨hsame.documents.trans h.documents,
    (hsame.chunks _ hmem hembodies.collections).trans h.chunks⟩

theorem Made.of_agreesOff {sourceId : Uuid} (h : db.Made made) (hsettled : db.Settled)
    (hagrees : db.AgreesOff db' sourceId) (hcollections : db'.kbCollections = db.kbCollections)
    {assigned : Source} (hmem : assigned ∈ db'.sources) (hid : assigned.id = sourceId)
    (htouched : assigned.ingestStatus = .completed → assigned.deletedAt = none →
      ∃ out, made assigned.contentHash out ∧ db'.Yields assigned.id out) : db'.Made made := by
  refine hagrees.forall_sources h hmem hid htouched fun source hold hne hkept hcompleted hlive => ?_
  obtain ⟨out, hmade, hyields⟩ := hkept hcompleted hlive
  exact ⟨out, hmade, hyields.of_resembles (hsettled source hold) hcompleted hlive
    (hagrees.resembles hcollections hne)⟩

theorem Made.apply (h : db.Made made) (hintact : db.Intact) (hsettled : db.Settled) {e : Event}
    (henabled : e.Enabled db) (hgenuine : e.Genuine made) : (e.apply db).Made made := by
  cases e with
  | addCollection collection =>
    intro source hsource hcompleted hlive
    obtain ⟨out, hmade, hdocuments, hchunks⟩ := h source hsource hcompleted hlive
    exact ⟨out, hmade, hdocuments, hchunks⟩
  | addBatch batch =>
    intro source hsource hcompleted hlive
    obtain ⟨out, hmade, hdocuments, hchunks⟩ := h source hsource hcompleted hlive
    exact ⟨out, hmade, hdocuments, hchunks⟩
  | addSource source =>
    refine h.of_agreesOff hsettled (.addSource db source) rfl
      ((Table.mem_insert henabled.1).mpr (Or.inr rfl)) rfl fun hcompleted => ?_
    rw [henabled.2.1.pending] at hcompleted
    cases hcompleted
  | reopen source assigned =>
    obtain ⟨hsource, hadmits, _, hid, _⟩ := henabled
    have hagrees := (AgreesOff.dropDocuments db source.id).trans (.putSource _ hid)
    have hdropped : source ∈ (db.dropDocuments [source.id]).sources := hsource
    refine h.of_agreesOff hsettled hagrees rfl (mem_putSource hdropped hid.symm) hid
      fun hcompleted => ?_
    rw [hadmits.pending] at hcompleted
    cases hcompleted
  | assignBatch source batchId =>
    obtain ⟨hsource, hadmits, _⟩ := henabled
    have hput : source.withBatch batchId ∈ (db.putSource (source.withBatch batchId)).sources :=
      mem_putSource hsource rfl
    refine h.of_agreesOff hsettled (.putSource db rfl) rfl hput rfl fun hcompleted => ?_
    exact absurd (hadmits.pending.symm.trans hcompleted) IngestStatus.noConfusion
  | complete source collection out =>
    have hput : source.withStatus .completed ∈ (db.complete source out).sources :=
      mem_putSource henabled.1 rfl
    refine h.of_agreesOff hsettled (.complete henabled) rfl hput rfl fun _ hlive => ?_
    have hempty := ((hsettled source henabled.1).documentsOf_eq_nil henabled.2.1 hlive).2
    exact ⟨out, hgenuine hlive, documentsOf_complete henabled hempty,
      chunksOf_complete henabled hintact⟩
  | fail source errorMessage =>
    have hput : source.fail errorMessage ∈ (db.putSource (source.fail errorMessage)).sources :=
      mem_putSource henabled.1 rfl
    exact h.of_agreesOff hsettled (.putSource db rfl) rfl hput rfl nofun
  | remove source deletedAt =>
    have hput : source.softDelete deletedAt ∈ (db.removeSource source deletedAt).sources :=
      mem_putSource henabled rfl
    exact h.of_agreesOff hsettled (.removeSource db source deletedAt) rfl hput rfl fun _ => nofun
  | dropCollection id =>
    intro source hsource hcompleted hlive
    obtain ⟨old, hold, hkept, rfl⟩ := mem_sources_dropCollection.mp hsource
    obtain ⟨out, hmade, hyields⟩ := h old hold hcompleted hlive
    exact ⟨out, hmade, hyields.of_resembles (hsettled old hold) hcompleted hlive
      (resembles_dropCollection hold hkept)⟩

theorem Made.play (h : db.Made made) (hintact : db.Intact) (hsettled : db.Settled)
    {events : List Event} (hadmissible : Event.Admissible events db)
    (hgenuine : ∀ e ∈ events, e.Genuine made) : (Event.play events db).Made made := by
  induction events generalizing db with
  | nil => exact h
  | cons e events ih =>
    obtain ⟨hhead, hrest⟩ := List.forall_mem_cons.mp hgenuine
    exact ih (h.apply hintact hsettled hadmissible.1 hhead) (hintact.apply hadmissible.1)
      (hsettled.apply hintact hadmissible.1) hadmissible.2 hrest

end Database

section Genuine

variable {rt : Runtime} {db : Database} {events : List Event} {sha256 : Bytes → Str}

theorem SeedStep.genuine {collection : Collection} {file : SeedFile} {existing : Option Source}
    {r : Except Exn SeedOutcome} (h : SeedStep rt db collection file existing r events)
    (hhash : file.contentHash = computeContentHash rt file.content) :
    ∀ e ∈ events, e.Genuine (Pipeline.Makes rt.sha256) := by
  cases h with
  | created hanswer houtcome =>
    refine List.forall_mem_cons.mpr ⟨trivial, List.forall_mem_singleton.mpr fun _ => ?_⟩
    exact ⟨_, _, _, _, _, _, _, _, rfl, houtcome⟩
  | updated hstale hanswer houtcome =>
    refine List.forall_mem_cons.mpr ⟨trivial, List.forall_mem_singleton.mpr fun _ => ?_⟩
    exact ⟨_, _, _, _, _, _, _, _, hhash.symm, houtcome⟩
  | _ => exact fun _ he => absurd he List.not_mem_nil

theorem LibraryStep.genuine {tree : SeedTree} {library : SeedLibrary}
    {r : Except Exn (Bool × List SeedOutcome)} (h : LibraryStep rt tree library db r events) :
    ∀ e ∈ events, e.Genuine (Pipeline.Makes rt.sha256) := by
  cases h with
  | seeded hfiles hcollection hdict hsteps =>
    have hhashes := (readLibraryFiles_eq_ok hfiles).2
    intro e he
    rcases List.mem_append.mp he with he | he
    · cases hcollection with
      | existing => exact absurd he List.not_mem_nil
      | created =>
        rw [List.mem_singleton.mp he]
        exact trivial
    · exact hsteps.forall_mem (fun _ file hfile _ _ hstep => hstep.genuine (hhashes file hfile)) e he
  | _ => exact fun _ he => absurd he List.not_mem_nil

theorem UploadStep.genuine {user collectionId : Uuid} {filename : Str} {fileBytes : Bytes}
    {metadata : List (Str × Str)} {result : Except Exn IngestResult}
    (h : UploadStep rt db user collectionId filename fileBytes metadata result events) :
    ∀ e ∈ events, e.Genuine (Pipeline.Makes rt.sha256) := by
  cases h with
  | refused => exact fun _ he => absurd he List.not_mem_nil
  | skipped hduplicate => exact fun _ he => absurd he List.not_mem_nil
  | @attempted _ collection existing id documentId now source outcome hcollection howned hexisting
      hadmissible hsource houtcome =>
    apply forall_settled
    · rw [List.forall_mem_singleton]
      cases existing <;> exact trivial
    · rintro out rfl _
      have hhash := (admitted_content hexisting filename none id now).2
      rw [← hsource] at hhash
      exact ⟨_, _, _, _, _, _, _, _, hhash.symm, houtcome.symm⟩
    · exact fun _ => trivial

theorem Event.Enters.genuine {collectionId sourceId : Uuid} {e : Event}
    (h : e.Enters collectionId sourceId) (made : Str → Ingested → Prop) : e.Genuine made := by
  cases h <;> exact trivial

end Genuine

def Server.Primed (sha256 : Bytes → Str) (server : Server) : Prop :=
  ∀ source ∈ server.database.sources, source.ingestStatus = .pending → source.deletedAt = none →
    source.batchId ≠ none → ∀ content ∈ server.original source, sha256 content = source.contentHash

theorem WorkStep.genuine {rt : Runtime} {server : Server} {sourceId : Uuid} {events : List Event}
    {sha256 : Bytes → Str} (h : WorkStep rt server.database server.files sourceId events)
    (hprimed : server.Primed sha256) : ∀ e ∈ events, e.Genuine (Pipeline.Makes sha256) := by
  cases h with
  | idle => exact fun _ he => absurd he List.not_mem_nil
  | failed => exact List.forall_mem_singleton.mpr trivial
  | @ingested source batch collection content documentId now out hsource hpending hbatch hcollection
      hcontent houtcome =>
    refine List.forall_mem_singleton.mpr fun hlive => ?_
    have hsome : source.batchId ≠ none := by
      intro hnone
      rw [hnone] at hbatch
      cases hbatch
    exact ⟨_, _, _, _, _, _, _, _, hprimed source hsource hpending hlive hsome content hcontent,
      houtcome⟩

theorem Operation.Step.genuine {server : Server} {op : Operation} {events : List Event}
    {sha256 : Bytes → Str} (h : Operation.Step server op events) (hhashes : op.Hashes sha256)
    (hprimed : server.Primed sha256) : ∀ e ∈ events, e.Genuine (Pipeline.Makes sha256) := by
  cases h with
  | idle => exact fun _ he => absurd he List.not_mem_nil
  | created => exact List.forall_mem_singleton.mpr trivial
  | @uploaded rt _ _ _ _ _ _ _ _ hresult hstep =>
    obtain rfl : rt.sha256 = sha256 := hhashes
    exact hstep.genuine
  | batched hresult haccepted =>
    refine List.forall_mem_cons.mpr ⟨trivial, fun e he => ?_⟩
    obtain ⟨source, _, henters⟩ := haccepted.adoptions.adoptsAll.enters e he
    exact henters.genuine _
  | worked hstep => exact hstep.genuine hprimed
  | removed => exact List.forall_mem_singleton.mpr trivial
  | dropped => exact List.forall_mem_singleton.mpr trivial
  | @seeded rt _ _ _ hrun =>
    obtain rfl : rt.sha256 = sha256 := hhashes
    exact hrun.forall fun _ _ _ _ hstep => hstep.genuine

theorem originalsOf_paths_nodup {sources : List Source} {uploads : List PendingUpload}
    (hlength : sources.length = uploads.length) (hnodup : (sources.map Source.id).Nodup) :
    ((originalsOf sources uploads).map Prod.fst).Nodup := by
  have hids : ((originalsOf sources uploads).map Prod.fst).map Prod.fst =
      sources.map Source.id := by
    have hfirst : (sources.zip uploads).map Prod.fst = sources := List.map_fst_zip hlength.le
    rw [← hfirst, originalsOf, List.map_map, List.map_map, List.map_map, hfirst]
    rfl
  rw [← hids] at hnodup
  exact hnodup.of_map Prod.fst

theorem lookup_originalsOf {rt : Runtime} (files : Files) {sources : List Source}
    {uploads : List PendingUpload} (hlength : sources.length = uploads.length)
    (hnodup : (sources.map Source.id).Nodup)
    (hsaved : ∀ i < uploads.length, rt.saveFault i = none) {pair : Source × PendingUpload}
    (hpair : pair ∈ sources.zip uploads) :
    (files.receiveAll rt.saveFault 0 (originalsOf sources uploads)).lookup
      (pair.1.id, purePathName pair.1.filename) = some pair.2.fileBytes := by
  have horiginal : ((pair.1.id, purePathName pair.1.filename), pair.2.fileBytes) ∈
      originalsOf sources uploads := mem_originalsOf.mpr ⟨_, hpair, rfl⟩
  have hsaved' : ∀ i < (originalsOf sources uploads).length, rt.saveFault (0 + i) = none := by
    intro i hi
    rw [originalsOf, List.length_map, List.length_zip, hlength, Nat.min_self] at hi
    rw [Nat.zero_add]
    exact hsaved i hi
  exact Files.lookup_received horiginal hsaved' (originalsOf_paths_nodup hlength hnodup)

namespace Request

variable {server : Server} {request : Request} {events : List Event} {originals : List Original}
  {sha256 : Bytes → Str}

theorem path_not_mem {source : Source} (h : ∀ original ∈ originals, original.1.1 ≠ source.id) :
    (source.id, purePathName source.filename) ∉ originals.map Prod.fst := by
  intro hmem
  obtain ⟨original, horiginal, hpath⟩ := List.mem_map.mp hmem
  exact h original horiginal (congrArg Prod.fst hpath)

theorem Stores.primed (hstores : Stores server request events originals)
    (hadmissible : Event.Admissible events server.database) (hhashes : request.Hashes sha256)
    (hprimed : server.Primed sha256) {source : Source}
    (hsource : source ∈ (Event.play events server.database).sources)
    (hpending : source.ingestStatus = .pending) (hlive : source.deletedAt = none)
    (hbatch : source.batchId ≠ none) :
    ∀ content ∈ (server.files.receiveAll request.saveFault 0 originals).lookup
      (source.id, purePathName source.filename), sha256 content = source.contentHash := by
  -- A row that was already waiting keeps its file unless this request writes under its id.
  have hkept : ∀ old ∈ server.database.sources, old.Leads source →
      (∀ original ∈ originals, original.1.1 ≠ source.id) →
      ∀ content ∈ (server.files.receiveAll request.saveFault 0 originals).lookup
        (source.id, purePathName source.filename), sha256 content = source.contentHash := by
    intro old hold hleads hother content hcontent
    rw [Files.lookup_receiveAll_of_not_mem (path_not_mem hother), ← hleads.id_eq,
      ← hleads.filename_eq] at hcontent
    rw [← hleads.contentHash_eq]
    exact hprimed old hold hleads.pending (hleads.live hlive) (hleads.batchId_eq ▸ hbatch) content
      hcontent
  cases hstores with
  | kept hstep hrefused =>
    obtain ⟨old, hold, hleads⟩ := hstep.recedes hadmissible hrefused source hsource hpending hbatch
    exact hkept old hold hleads fun _ h => absurd h List.not_mem_nil
  | @uploaded rt user collectionId kind filename fileBytes metadata collection existing id documentId
      now admitted out =>
    have hrecedes : server.database.Recedes (Event.play
        (settled [admission existing admitted] admitted collection (.ok out)) server.database) :=
      Database.recedes_settled hadmissible
    obtain ⟨old, hold, hleads⟩ := hrecedes source hsource hpending hbatch
    refine hkept old hold hleads (List.forall_mem_singleton.mpr fun hid => ?_)
    have hdone := Database.not_pending_concluded hadmissible.2.1
      (Event.Concludes.complete : Event.Concludes admitted (.complete admitted collection out))
    exact hdone source hsource hid.symm hpending
  | @saved rt user collectionId kind metadata uploads batch sources groups haccepted hlands =>
    obtain rfl : rt.sha256 = sha256 := hhashes
    have hlength := haccepted.adoptions.length_eq
    by_cases hnew : source.id ∈ sources.map Source.id
    · obtain ⟨member, hmember, hid⟩ := List.mem_map.mp hnew
      obtain rfl : member = source :=
        Table.eq_of_key_eq (haccepted.adoptions.mem hadmissible.2 member hmember) hsource hid
      obtain ⟨upload, hpair⟩ := exists_mem_zip hlength hmember
      have hlookup := lookup_originalsOf server.files hlength
        (haccepted.adoptions.nodup hadmissible.2) hlands.1 hpair
      intro content hcontent
      obtain rfl : upload.fileBytes = content :=
        Option.some.inj (hlookup.symm.trans hcontent)
      exact (haccepted.adoptions.pairs _ hpair).1.symm
    · rcases haccepted.adoptions.mem_cases hadmissible.2 hsource with hmember | hold
      · exact absurd (List.mem_map_of_mem hmember) hnew
      · refine hkept source hold (.refl hpending) fun original horiginal hid => ?_
        obtain ⟨pair, hpair, rfl⟩ := mem_originalsOf.mp horiginal
        exact hnew (List.mem_map.mpr ⟨pair.1, (List.of_mem_zip hpair).1, hid⟩)
  | @undone rt user collectionId kind metadata uploads batch sources groups haccepted hundone =>
    refine hkept source hsource (.refl hpending) fun original horiginal hid => ?_
    obtain ⟨pair, hpair, rfl⟩ := mem_originalsOf.mp horiginal
    have hheld : isReingestable source = false := by simp [isReingestable, hpending, hlive]
    have hother := (haccepted.adoptions.keeps hundone.2 hsource hheld).2
    exact hother (List.mem_map.mpr ⟨pair.1, (List.of_mem_zip hpair).1, hid⟩)

end Request

end YCStudio
