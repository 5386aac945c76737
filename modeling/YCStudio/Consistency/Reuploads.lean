import YCStudio.Consistency.Provenance

namespace YCStudio

namespace Database

def copiesOf (db : Database) (collectionId : Uuid) (contentHash : Str) : List Source :=
  db.sources.rows.filter fun row => row.collectionId = collectionId ∧ row.contentHash = contentHash

variable {db : Database} {collectionId : Uuid} {contentHash : Str} {source : Source}

theorem mem_copiesOf : source ∈ db.copiesOf collectionId contentHash ↔
    source ∈ db.sources ∧ source.collectionId = collectionId ∧ source.contentHash = contentHash := by
  rw [copiesOf, List.mem_filter, decide_eq_true_iff]
  rfl

theorem copiesOf_eq_singleton (hintact : db.Intact)
    (hsource : source ∈ db.copiesOf collectionId contentHash) :
    db.copiesOf collectionId contentHash = [source] := by
  obtain ⟨hmem, hcollection, hhash⟩ := mem_copiesOf.mp hsource
  apply Table.filter_eq_singleton hmem
  intro other hother
  rw [decide_eq_true_iff]
  constructor
  · rintro ⟨hcollection', hhash'⟩
    exact hintact.contents other hother source hmem (hcollection'.trans hcollection.symm)
      (hhash'.trans hhash.symm)
  · rintro rfl
    exact ⟨hcollection, hhash⟩

theorem sourceByHash_eq_head? : Query.answer db (.sourceByHash collectionId contentHash) =
    (db.copiesOf collectionId contentHash).head? := by
  rw [copiesOf, List.head?_filter]
  rfl

end Database

section Faithful

variable {sha256 : Bytes → Str}

structure Server.Faithful (sha256 : Bytes → Str) (server : Server) : Prop where
  settled : server.database.Settled
  made : server.database.Made (Pipeline.Makes sha256)
  primed : server.Primed sha256

theorem Server.Faithful.empty (users : List Uuid) : (Server.empty users).Faithful sha256 where
  settled := .empty users
  made _ h := absurd h (Table.not_mem_empty _)
  primed _ h := absurd h (Table.not_mem_empty _)

namespace Request

variable {server : Server} {request : Request}

theorem Stores.genuine {events : List Event} {originals : List Original}
    (hstores : Stores server request events originals) (hhashes : request.Hashes sha256)
    (hprimed : server.Primed sha256) : ∀ e ∈ events, e.Genuine (Pipeline.Makes sha256) := by
  cases hstores with
  | kept hstep hrefused =>
    have hservice : request.service.Hashes sha256 := by cases request <;> exact hhashes
    exact hstep.genuine hservice hprimed
  | @uploaded rt user collectionId kind filename fileBytes metadata collection existing id documentId
      now source out hcollection howned hexisting hsource houtcome =>
    obtain rfl : rt.sha256 = sha256 := hhashes
    have hhash := (admitted_content hexisting filename none id now).2
    rw [← hsource] at hhash
    refine List.forall_mem_cons.mpr ⟨?_, List.forall_mem_singleton.mpr fun _ => ?_⟩
    · cases existing <;> exact trivial
    · exact ⟨_, _, _, _, _, _, _, _, hhash.symm, houtcome⟩
  | saved haccepted hlands =>
    refine List.forall_mem_cons.mpr ⟨trivial, fun e he => ?_⟩
    obtain ⟨source, _, henters⟩ := haccepted.adoptions.adoptsAll.enters e he
    exact henters.genuine _
  | undone => exact fun _ he => absurd he List.not_mem_nil

theorem faithful_perform (hsound : server.Sound) (hfaithful : server.Faithful sha256)
    (hhashes : request.Hashes sha256) : (request.perform server).Faithful sha256 := by
  obtain ⟨events, hfollows, hfiles, hstores⟩ := steps hsound request
  constructor
  · rw [hfollows.database]
    exact hfaithful.settled.play hsound.intact hfollows.admissible
  · rw [hfollows.database]
    exact hfaithful.made.play hsound.intact hfaithful.settled hfollows.admissible
      (hstores.genuine hhashes hfaithful.primed)
  · intro source hsource hpending hlive hbatch content hcontent
    rw [hfollows.database] at hsource
    rw [Server.original, hfiles] at hcontent
    exact hstores.primed hfollows.admissible hhashes hfaithful.primed hsource hpending hlive hbatch
      content hcontent

theorem faithful_performAll {requests : List Request} (hsound : server.Sound)
    (hfaithful : server.Faithful sha256) (hhashes : ∀ request ∈ requests, request.Hashes sha256) :
    (performAll requests server).Sound ∧ (performAll requests server).Faithful sha256 := by
  have hallowed : History.Admissible perform (fun request _ => request.Hashes sha256) requests
      server := .of_forall (fun request hrequest _ => hhashes request hrequest) server
  exact performAll_invariant (fun request _ => request.Hashes sha256)
    (fun _ _ hsound' hinv hhash => faithful_perform hsound' hinv hhash) hsound hfaithful hallowed

end Request

end Faithful

section Again

def Server.uploadOutcome (server : Server) (rt : Runtime) (collection : Collection) (filename : Str)
    (fileBytes : Bytes) (metadata : List (Str × Str)) : Except Failure Ingested :=
  let contentHash := computeContentHash rt fileBytes
  let existing : Option Source :=
    Query.answer server.database (.sourceByHash collection.id contentHash)
  Pipeline.outcome rt
    (admitted existing collection.id filename contentHash none ⟨server.clock, 0⟩ server.clock)
    collection filename fileBytes (some metadata) none ⟨server.clock, admissionDraws existing⟩
    server.clock

structure Server.Ingests (server : Server) (rt : Runtime) (collection : Collection) (filename : Str)
    (fileBytes : Bytes) (metadata : List (Str × Str)) (out : Ingested) : Prop where
  admitted : admissionFault rt filename (Query.answer server.database
    (.sourceByHash collection.id (computeContentHash rt fileBytes))) = none
  outcome : server.uploadOutcome rt collection filename fileBytes metadata = .ok out

variable {server : Server} (hsound : server.Sound) {rt : Runtime} {user : Uuid}
  {collection : Collection} {filename : Str} {fileBytes : Bytes} {metadata : List (Str × Str)}
  (hcollection : collection ∈ server.database.kbCollections) (howned : collection.OwnedBy user)

include hsound hcollection howned

theorem ingestPrivateUpload_skips {old : Source}
    (hold : old ∈ server.database.copiesOf collection.id (rt.sha256 fileBytes))
    (hlive : isReingestable old = false) :
    let run := transact (ingestPrivateUpload rt user collection.id collection.kind filename fileBytes
      metadata) server
    run.1 = .ok { sourceId := old.id, documentId := none, chunkCount := 0, skipped := true } ∧
      run.2.database = server.database := by
  intro run
  have hexisting : Query.answer server.database (.sourceByHash collection.id
      (computeContentHash rt fileBytes)) = some old := by
    rw [Database.sourceByHash_eq_head?, computeContentHash,
      Database.copiesOf_eq_singleton hsound.intact hold]
    rfl
  have hduplicate : Option.filter (!isReingestable ·) (some old) = some old := by
    rw [Option.filter_some, hlive]
    rfl
  have hskipped := ingestDocument_duplicate rt filename fileBytes none (some metadata) none
    hsound.ready.active hexisting hduplicate
  have howner := ownedPrivateCollection_runs hsound.ready.active (Table.get?_key hcollection) howned
    rfl
  obtain ⟨w', hruns, hends⟩ :=
    ingestPrivateUpload_returns howner hskipped (.refl hsound.ready)
  have hfollows : server.Follows run.2 [] := hsound.transact (.of_runs hruns hends)
  exact ⟨Runs.transacts hruns, hfollows.database⟩

theorem ingestPrivateUpload_ingests {out : Ingested}
    (hreingestable : ∀ old ∈ server.database.copiesOf collection.id (rt.sha256 fileBytes),
      isReingestable old = true)
    (hingests : server.Ingests rt collection filename fileBytes metadata out) :
    let run := transact (ingestPrivateUpload rt user collection.id collection.kind filename fileBytes
      metadata) server
    ∃ existing source, (server.database.copiesOf collection.id (rt.sha256 fileBytes)).head? =
        existing ∧ Event.Admits source ∧ source.collectionId = collection.id ∧
      source.contentHash = rt.sha256 fileBytes ∧ (∀ old ∈ existing, source.id = old.id) ∧
      run.1 = .ok out.result ∧
      server.Follows run.2 [admission existing source, .complete source collection out] := by
  intro run
  obtain ⟨existing, hexisting⟩ : ∃ existing : Option Source, Query.answer server.database
      (.sourceByHash collection.id (computeContentHash rt fileBytes)) = existing := ⟨_, rfl⟩
  have hhead : (server.database.copiesOf collection.id (rt.sha256 fileBytes)).head? = existing := by
    rw [← Database.sourceByHash_eq_head?]
    exact hexisting
  have hadmissible : existing.filter (!isReingestable ·) = none := by
    rw [Option.filter_eq_none_iff]
    intro old hold
    have hmem := List.mem_of_mem_head? (hhead ▸ hold)
    simp [hreingestable old hmem]
  have hfault := hingests.admitted
  have houtcome := hingests.outcome
  rw [Server.uploadOutcome] at houtcome
  rw [hexisting] at hfault houtcome
  obtain ⟨result, w', hruns, hends, hreports⟩ := ingestPrivateUpload_attempted hsound.ready rt
    filename fileBytes metadata (Table.get?_key hcollection) howned rfl hexisting hadmissible hfault
  have hconnected : Pipeline.outcome rt
      (admitted existing collection.id filename (computeContentHash rt fileBytes) none
        ⟨server.connect.session.stream, server.connect.session.drawn⟩ server.connect.session.now)
      collection filename fileBytes (some metadata) none ⟨server.connect.session.stream,
        server.connect.session.drawn + admissionDraws existing⟩ server.connect.session.now =
      .ok out := by
    have hdrawn : server.connect.session.drawn + admissionDraws existing =
        admissionDraws existing := Nat.zero_add _
    rw [hdrawn]
    exact houtcome
  rw [hconnected] at hends hreports
  have hfollows : server.Follows run.2 _ := hsound.transact (.of_runs hruns hends)
  obtain ⟨hcid, hhash⟩ := admitted_content hexisting filename none
    ⟨server.connect.session.stream, server.connect.session.drawn⟩ server.connect.session.now
  refine ⟨existing, _, hhead, (mem_admission hfollows.admissible.1).2, hcid, hhash, ?_,
    (Runs.transacts hruns).trans hreports, hfollows⟩
  rintro old hold
  rw [Option.mem_def.mp hold]
  rfl

omit hsound hcollection howned in
theorem completed_of_live (hsettled : server.database.Settled) {old : Source}
    (hold : old ∈ server.database.sources) (hlive : isReingestable old = false)
    (hpending : old.ingestStatus ≠ .pending) :
    old.ingestStatus = .completed ∧ old.deletedAt = none := by
  have hsettles := hsettled old hold
  rw [Database.Settles] at hsettles
  simp only [isReingestable, Bool.decide_or, Bool.or_eq_false_iff, decide_eq_false_iff_not,
    not_not] at hlive
  cases hstatus : old.ingestStatus with
  | completed => exact ⟨rfl, hlive.1⟩
  | pending => exact absurd hstatus hpending
  | failed => exact absurd hstatus hlive.2
  | _ =>
    rw [hstatus] at hsettles
    exact hsettles.elim

omit hcollection howned in
theorem yields_completed {server' : Server} {existing : Option Source} {source : Source}
    {out : Ingested} (hsettled : server.database.Settled) (hadmits : Event.Admits source)
    (hfollows : server.Follows server' [admission existing source, .complete source collection out]) :
    source.withStatus .completed ∈ server'.database.sources ∧
      server'.database.Yields source.id out := by
  obtain ⟨hadmission, henabled, _⟩ := hfollows.admissible
  have hintact := hsound.intact.apply hadmission
  have hmem := (mem_admission hadmission).1
  have hempty := (hsettled.apply hsound.intact hadmission source hmem).documentsOf_eq_nil
    hadmits.pending hadmits.deletedAt
  rw [hfollows.database]
  exact ⟨Database.mem_putSource henabled.1 rfl, Database.documentsOf_complete henabled hempty.2,
    Database.chunksOf_complete henabled hintact⟩

end Again

structure Server.Completes (before after : Server) (sha256 : Bytes → Str) (collectionId : Uuid)
    (contentHash : Str) (source : Source) (made : Ingested) : Prop where
  copies : after.database.copiesOf collectionId contentHash = [source]
  completed : source.ingestStatus = .completed
  live : source.deletedAt = none
  makes : Pipeline.Makes sha256 contentHash made
  yields : after.database.Yields source.id made
  id_eq : ∀ old ∈ before.database.copiesOf collectionId contentHash, source.id = old.id

theorem Request.performAll_uploads {sha256 : Bytes → Str} {users : List Uuid}
    {requests : List Request} (hhashes : ∀ request ∈ requests, request.Hashes sha256) {rt : Runtime}
    (hsha : rt.sha256 = sha256) {user : Uuid} {collection : Collection} {filename : Str}
    {fileBytes : Bytes} {metadata : List (Str × Str)} {out : Ingested}
    (hcollection : collection ∈ (performAll requests (.empty users)).database.kbCollections)
    (howned : collection.OwnedBy user)
    (hidle : ∀ old ∈ (performAll requests (.empty users)).database.copiesOf collection.id
      (sha256 fileBytes), old.deletedAt = none → old.ingestStatus ≠ .pending)
    (hingests : (∀ old ∈ (performAll requests (.empty users)).database.copiesOf collection.id
        (sha256 fileBytes), isReingestable old = true) →
      (performAll requests (.empty users)).Ingests rt collection filename fileBytes metadata out) :
    let server := performAll requests (.empty users)
    let copies := server.database.copiesOf collection.id (sha256 fileBytes)
    let run := transact (ingestPrivateUpload rt user collection.id collection.kind filename fileBytes
      metadata) server
    ∃ source made,
      server.Completes run.2 sha256 collection.id (sha256 fileBytes) source made ∧
        (∀ old ∈ copies, old.ingestStatus = .completed → old.deletedAt = none →
          run.1 = .ok { sourceId := old.id, documentId := none, chunkCount := 0, skipped := true } ∧
            run.2.database = server.database) ∧
        ((∀ old ∈ copies, isReingestable old = true) → made = out ∧ run.1 = .ok out.result) := by
  intro server copies run
  subst hsha
  obtain ⟨hsound, hfaithful⟩ : server.Sound ∧ server.Faithful rt.sha256 :=
    faithful_performAll (.empty users) (.empty users) hhashes
  by_cases hlive : ∃ old ∈ copies, isReingestable old = false
  · obtain ⟨old, hold, hheld⟩ := hlive
    obtain ⟨hmem, hcid, hhash⟩ := Database.mem_copiesOf.mp hold
    have hnotDeleted : old.deletedAt = none := by
      simp only [isReingestable, Bool.decide_or, Bool.or_eq_false_iff, decide_eq_false_iff_not,
        not_not] at hheld
      exact hheld.1
    obtain ⟨hcompleted, hnone⟩ :=
      completed_of_live hfaithful.settled hmem hheld (hidle old hold hnotDeleted)
    obtain ⟨hresult, hdatabase⟩ :=
      ingestPrivateUpload_skips hsound hcollection howned hold hheld
    obtain ⟨made, hmakes, hyields⟩ := hfaithful.made old hmem hcompleted hnone
    have hsingle := Database.copiesOf_eq_singleton hsound.intact hold
    have hsame : ∀ other ∈ copies, other = old := fun other hother =>
      List.mem_singleton.mp (hsingle ▸ hother)
    refine ⟨old, made, ⟨?_, hcompleted, hnone, hhash ▸ hmakes, ?_, ?_⟩, ?_, ?_⟩
    · rw [hdatabase]
      exact hsingle
    · rw [hdatabase]
      exact hyields
    · exact fun other hother => congrArg Source.id (hsame other hother).symm
    · intro other hother _ _
      rw [hsame other hother]
      exact ⟨hresult, hdatabase⟩
    · intro hall
      rw [hall old hold] at hheld
      cases hheld
  · have hall : ∀ old ∈ copies, isReingestable old = true := by
      intro old hold
      rw [← Bool.not_eq_false]
      exact fun hheld => hlive ⟨old, hold, hheld⟩
    obtain ⟨existing, source, hhead, hadmits, hcid, hhash, hid, hresult, hfollows⟩ :=
      ingestPrivateUpload_ingests hsound hcollection howned hall (hingests hall)
    obtain ⟨hmem, hyields⟩ := yields_completed hsound hfaithful.settled hadmits hfollows
    have hcopy : source.withStatus .completed ∈
        run.2.database.copiesOf collection.id (rt.sha256 fileBytes) :=
      Database.mem_copiesOf.mpr ⟨hmem, hcid, hhash⟩
    refine ⟨source.withStatus .completed, out,
      ⟨Database.copiesOf_eq_singleton hfollows.sound.intact hcopy, rfl, hadmits.deletedAt,
        ⟨_, _, _, _, _, _, _, _, rfl, (hingests hall).outcome⟩, hyields, ?_⟩, ?_, ?_⟩
    · intro old hold
      apply hid
      rw [← hhead, Database.copiesOf_eq_singleton hsound.intact hold]
      rfl
    · intro old hold hcompleted hnone
      have hheld := hall old hold
      simp [isReingestable, hcompleted, hnone] at hheld
    · exact fun _ => ⟨rfl, hresult⟩

namespace Request

def sampleHistory : List Request :=
  [sampleCollection, sampleUpload fun _ => none,
    operation (.deleteSource Runtime.reliable sampleUser ⟨1, 0⟩)]

def sampleHouse : Collection := newCollection sampleUser .rule "house".toList sampleCollectionId

theorem performAll_uploads_deleted : ∃ source made,
    (performAll sampleHistory (.empty [sampleUser])).Completes
      (transact (ingestPrivateUpload Runtime.reliable sampleUser sampleHouse.id sampleHouse.kind
        "guide.txt".toList [103, 111] []) (performAll sampleHistory (.empty [sampleUser]))).2
      Runtime.reliable.sha256 sampleHouse.id (Runtime.reliable.sha256 [103, 111]) source made := by
  have hhashes : ∀ request ∈ sampleHistory, request.Hashes Runtime.reliable.sha256 :=
    List.forall_mem_cons.mpr ⟨trivial, List.forall_mem_cons.mpr ⟨rfl,
      List.forall_mem_singleton.mpr trivial⟩⟩
  have hcollection : sampleHouse ∈
      (performAll sampleHistory (.empty [sampleUser])).database.kbCollections :=
    Table.mem_def.mpr (by decide +kernel)
  have hidle : ∀ old ∈ (performAll sampleHistory (.empty [sampleUser])).database.copiesOf
      sampleHouse.id (Runtime.reliable.sha256 [103, 111]),
      old.deletedAt = none → old.ingestStatus ≠ .pending := by
    decide +kernel
  have hadmitted : admissionFault Runtime.reliable "guide.txt".toList
      (Query.answer (performAll sampleHistory (.empty [sampleUser])).database
        (.sourceByHash sampleHouse.id (computeContentHash Runtime.reliable [103, 111]))) = none := by
    decide +kernel
  have hsome : ((performAll sampleHistory (.empty [sampleUser])).uploadOutcome Runtime.reliable
      sampleHouse "guide.txt".toList [103, 111] []).toOption.isSome = true := by
    decide +kernel
  obtain ⟨out, hout⟩ := Except.exists_eq_ok hsome
  obtain ⟨source, made, hcompletes, _⟩ := performAll_uploads hhashes rfl hcollection ⟨rfl, rfl⟩
    hidle fun _ => ⟨hadmitted, hout⟩
  exact ⟨source, made, hcompletes⟩

end Request

end YCStudio
