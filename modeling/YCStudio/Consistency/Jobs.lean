import YCStudio.Consistency.Uploads

namespace YCStudio

section Supervised

variable {w w₁ w₂ : World} {sourceId : Uuid} {body : Program (Option IngestResult)}
  {events : List Event}

def jobBody (rt : Runtime) (source : Source) (batch : IngestBatch) (collection : Collection) :
    Program (Option IngestResult) := do
  let content ← readFile rt.readFault source.id (purePathName source.filename)
  let result ← ingestPendingSource rt source collection content batch.uploadMetadata
  return some result

def supervised (sourceId : Uuid) (body : Program (Option IngestResult)) : Program JobResult := do
  let result ← tryCatch body fun e => do
    execute (.recordFailure sourceId e.recorded)
    commit
    return none
  match result with
  | none => return .failed
  | some result =>
      commit
      return .ingested result.documentId result.chunkCount result.skipped

theorem supervised_returns {result : IngestResult} (hbody : Runs body w (.ok (some result)) w₁)
    (hfollows : w.Follows w₁ events) : w.Ends (exec (supervised sourceId body) w).2 events := by
  obtain ⟨hcommit, hends⟩ := hfollows.commit
  exact .of_runs ((Runs.tryOk hbody).bind (hcommit.bind (Runs.pure _))) hends

theorem supervised_records {e : Exn} (hbody : Runs body w (.error e) w₁)
    (hexecute : Runs (execute (.recordFailure sourceId e.recorded)) w₁ (.ok ()) w₂)
    (hfollows : w.Follows w₂ events) : w.Ends (exec (supervised sourceId body) w).2 events := by
  obtain ⟨hcommit, hends⟩ := hfollows.commit
  exact .of_runs ((Runs.tryError hbody (hexecute.bind (hcommit.bind (Runs.pure none)))).bind
    (Runs.pure _)) hends

theorem supervised_loses {e e' : Exn} (hbody : Runs body w (.error e) w₁)
    (hexecute : Runs (execute (.recordFailure sourceId e.recorded)) w₁ (.error e') w₂)
    (hlost : w.Lost w₂) : w.Ends (exec (supervised sourceId body) w).2 [] :=
  .of_runs (Runs.tryError hbody hexecute.stop).stop hlost.ends

end Supervised

section Job

variable {w : World} (hready : w.Ready) (rt : Runtime) {source : Source}

include hready

theorem recordFailure_follows (hsource : source ∈ w.view.sources)
    (hpending : source.ingestStatus = .pending) {errorMessage : Str}
    (hlength : errorMessage.length ≤ 500) :
    w.Follows (w.advance [.recordFailure source.id errorMessage] 0)
      [.fail source errorMessage] := by
  refine hready.follows ?_ ⟨hsource, hpending, hlength⟩ fun _ h => absurd h List.not_mem_nil
  exact Database.apply_recordFailure hsource errorMessage

omit hready in
theorem World.Follows.recordAgain {w' : World} {errorMessage : Str}
    (h : w.Follows w' [.fail source errorMessage]) :
    w.Follows (w'.advance [.recordFailure source.id errorMessage] 0)
      [.fail source errorMessage] := by
  have hmem : source.fail errorMessage ∈ w'.view.sources := by
    rw [h.view]
    exact Database.mem_putSource h.admissible.1.1 rfl
  have hview : w'.view.apply (.recordFailure source.id errorMessage) = w'.view := by
    refine (Database.apply_recordFailure hmem errorMessage).trans ?_
    exact congrArg (fun sources => { w'.view with sources }) (Table.put_self hmem)
  exact
    { ready :=
        { sound := by
            constructor
            · rw [World.view_advance, Database.applyAll_cons, Database.applyAll_nil, hview]
              exact h.ready.sound.intact
            · rw [World.view_advance, Database.applyAll_cons, Database.applyAll_nil, hview]
              exact h.ready.sound.before
          active := h.ready.active
          savepoint := h.ready.savepoint }
      view := by
        rw [World.view_advance, Database.applyAll_cons, Database.applyAll_nil, hview]
        exact h.view
      admissible := h.admissible
      database := h.database
      stream := h.stream
      now := h.now
      refused := h.refused
      drawn := h.drawn }

variable (hsource : w.view.sources.get? source.id = some source)
  (hpending : source.ingestStatus = .pending)

include hsource hpending

theorem ingestSource_abandons {batch : Option IngestBatch} {collection : Option Collection}
    (hbatch : Query.answer w.view (.batch source.batchId) = batch)
    (hcollection : Query.answer w.view (.collection source.collectionId) = collection)
    (hgone : batch = none ∨ collection = none) :
    w.Ends (exec (ingestSource rt source.id) w).2 [.fail source batchGone] := by
  have hencodable : (Write.recordFailure source.id batchGone).Encodable := by
    change '\x00' ∉ batchGone
    decide
  have hlength : batchGone.length ≤ 500 := by decide
  obtain ⟨hmem, _⟩ := Table.get?_eq_some_iff.mp hsource
  obtain ⟨hcommit, hends⟩ := (recordFailure_follows hready hmem hpending hlength).commit
  have hrecord : Runs (do
      execute (.recordFailure source.id batchGone)
      commit
      return JobResult.failed) w (.ok .failed)
        (w.advance [.recordFailure source.id batchGone] 0).commit :=
    (Runs.execute hready.active hencodable).bind (hcommit.bind (Runs.pure _))
  have hruns : Runs (ingestSource rt source.id) w (.ok .failed)
      (w.advance [.recordFailure source.id batchGone] 0).commit := by
    refine (Runs.select hready.active (.source source.id)).bind ?_
    rw [Query.answer, hsource]
    simp only [hpending, ne_eq, not_true_eq_false, if_false]
    refine (Runs.select hready.active (.batch source.batchId)).bind ?_
    refine (Runs.select hready.active (.collection source.collectionId)).bind ?_
    rw [hbatch, hcollection]
    rcases hgone with rfl | rfl
    · exact hrecord
    · cases batch <;> exact hrecord
  exact .of_runs hruns hends

theorem ingestSource_eq {batch : IngestBatch} {collection : Collection}
    (hbatch : Query.answer w.view (.batch source.batchId) = some batch)
    (hcollection : Query.answer w.view (.collection source.collectionId) = some collection) :
    exec (ingestSource rt source.id) w =
      exec (supervised source.id (jobBody rt source batch collection)) w := by
  refine (Runs.select hready.active (.source source.id)).bind ?_
  rw [Query.answer, hsource]
  simp only [hpending, ne_eq, not_true_eq_false, if_false]
  refine (Runs.select hready.active (.batch source.batchId)).bind ?_
  refine (Runs.select hready.active (.collection source.collectionId)).bind ?_
  rw [hbatch, hcollection]
  rfl

theorem ingestSource_settles {batch : IngestBatch} {collection : Collection}
    (hbatch : Query.answer w.view (.batch source.batchId) = some batch)
    (hcollection : Query.answer w.view (.collection source.collectionId) = some collection)
    {content : Bytes}
    (hcontent : Runs (readFile rt.readFault source.id (purePathName source.filename)) w
      (.ok content) w) :
    w.Ends (exec (ingestSource rt source.id) w).2
      (settled [] source collection (Pipeline.outcome rt source collection source.filename content
        (some batch.uploadMetadata) none ⟨w.session.stream, w.session.drawn⟩ w.session.now)) := by
  rw [ingestSource_eq hready rt hsource hpending hbatch hcollection]
  obtain ⟨hmem, _⟩ := Table.get?_eq_some_iff.mp hsource
  obtain ⟨hmem', hid⟩ := Table.get?_eq_some_iff.mp hcollection
  have hsettles := ingestPendingSource_settles hready hmem hpending hmem' hid rt content
    batch.uploadMetadata
  obtain ⟨outcome, houtcome⟩ : ∃ outcome, Pipeline.outcome rt source collection source.filename
    content (some batch.uploadMetadata) none ⟨w.session.stream, w.session.drawn⟩ w.session.now =
      outcome := ⟨_, rfl⟩
  rw [houtcome] at hsettles ⊢
  cases outcome with
  | ok out =>
    obtain ⟨hresult, hfollows⟩ := hsettles
    have hbody : Runs (jobBody rt source batch collection) w (.ok (some out.result)) _ :=
      hcontent.bind (Runs.bind (Prod.ext hresult rfl) (Runs.pure _))
    exact supervised_returns hbody hfollows
  | error failure =>
    rw [World.Settles] at hsettles
    rw [settled]
    split at hsettles
    case isTrue hrecorded =>
      obtain ⟨hresult, hfollows⟩ := hsettles
      rw [if_pos hrecorded]
      have hbody : Runs (jobBody rt source batch collection) w (.error failure.exn) _ :=
        hcontent.bind (Runs.stop (Prod.ext hresult rfl))
      refine supervised_records hbody ?_ hfollows.recordAgain
      exact Runs.execute hfollows.ready.active hrecorded.recordable
    case isFalse hrecorded =>
      obtain ⟨⟨e, hresult⟩, hlost⟩ := hsettles
      rw [if_neg hrecorded]
      have hbody : Runs (jobBody rt source batch collection) w (.error e) _ :=
        hcontent.bind (Runs.stop (Prod.ext hresult rfl))
      obtain ⟨e', hexecute⟩ := hlost.execute (.recordFailure source.id e.recorded)
      exact supervised_loses hbody hexecute hlost

theorem ingestSource_unreadable {batch : IngestBatch} {collection : Collection}
    (hbatch : Query.answer w.view (.batch source.batchId) = some batch)
    (hcollection : Query.answer w.view (.collection source.collectionId) = some collection)
    {e : Exn}
    (hcontent : Runs (readFile rt.readFault source.id (purePathName source.filename)) w
      (.error e) w) :
    w.Ends (exec (ingestSource rt source.id) w).2
      (settled [] source collection (.error (.raised e))) := by
  rw [ingestSource_eq hready rt hsource hpending hbatch hcollection, settled]
  obtain ⟨hmem, _⟩ := Table.get?_eq_some_iff.mp hsource
  have hbody : Runs (jobBody rt source batch collection) w (.error e) w := hcontent.stop
  split
  case isTrue hrecorded =>
    have hencodable : (Write.recordFailure source.id e.recorded).Encodable := hrecorded
    exact supervised_records hbody (Runs.execute hready.active hencodable)
      (recordFailure_follows hready hmem hpending e.length_recorded)
  case isFalse hrecorded =>
    have hencodable : ¬ (Write.recordFailure source.id e.recorded).Encodable := hrecorded
    exact supervised_loses hbody (Runs.executeAborts hready.active hencodable) (World.lost_abort w)

omit hsource hpending

inductive WorkStep (rt : Runtime) (db : Database) (files : Files) : Uuid → List Event → Prop
  | idle {sourceId : Uuid} : WorkStep rt db files sourceId []
  | failed {source : Source} {errorMessage : Str} (hsource : source ∈ db.sources)
      (hpending : source.ingestStatus = .pending) :
      WorkStep rt db files source.id [.fail source errorMessage]
  | ingested {source : Source} {batch : IngestBatch} {collection : Collection} {content : Bytes}
      {documentId : Uuid} {now : Timestamp} {out : Ingested} (hsource : source ∈ db.sources)
      (hpending : source.ingestStatus = .pending)
      (hbatch : Query.answer db (.batch source.batchId) = some batch)
      (hcollection : Query.answer db (.collection source.collectionId) = some collection)
      (hcontent : files.lookup (source.id, purePathName source.filename) = some content)
      (houtcome : Pipeline.outcome rt source collection source.filename content
        (some batch.uploadMetadata) none documentId now = .ok out) :
      WorkStep rt db files source.id [.complete source collection out]

omit hready in
theorem workStep_settled {batch : IngestBatch} {collection : Collection} {content : Bytes}
    {documentId : Uuid} {now : Timestamp} (hsource : source ∈ w.view.sources)
    (hpending : source.ingestStatus = .pending)
    (hbatch : Query.answer w.view (.batch source.batchId) = some batch)
    (hcollection : Query.answer w.view (.collection source.collectionId) = some collection)
    (hcontent : w.files.lookup (source.id, purePathName source.filename) = some content) :
    WorkStep rt w.view w.files source.id
      (settled [] source collection (Pipeline.outcome rt source collection source.filename content
        (some batch.uploadMetadata) none documentId now)) := by
  cases houtcome : Pipeline.outcome rt source collection source.filename content
    (some batch.uploadMetadata) none documentId now with
  | ok out => exact .ingested hsource hpending hbatch hcollection hcontent houtcome
  | error failure =>
    rw [settled]
    split
    · exact .failed hsource hpending
    · exact .idle

theorem ingestSource_steps (sourceId : Uuid) :
    ∃ events, w.Ends (exec (ingestSource rt sourceId) w).2 events ∧
      WorkStep rt w.view w.files sourceId events := by
  cases hsource : w.view.sources.get? sourceId with
  | none =>
    have hruns : Runs (ingestSource rt sourceId) w (.ok (.skipped "source_missing".toList)) w := by
      refine (Runs.select hready.active (.source sourceId)).bind ?_
      rw [Query.answer, hsource]
      exact Runs.pure _
    exact ⟨[], .of_runs hruns hready.discard, .idle⟩
  | some source =>
    obtain ⟨hmem, rfl⟩ := Table.get?_eq_some_iff.mp hsource
    by_cases hpending : source.ingestStatus = .pending
    · cases hbatch : Query.answer w.view (.batch source.batchId) with
      | none =>
        exact ⟨_, ingestSource_abandons hready rt hsource hpending hbatch rfl (Or.inl rfl),
          .failed hmem hpending⟩
      | some batch =>
        cases hcollection : Query.answer w.view (.collection source.collectionId) with
        | none =>
          exact ⟨_, ingestSource_abandons hready rt hsource hpending hbatch hcollection
            (Or.inr rfl), .failed hmem hpending⟩
        | some collection =>
          rcases Runs.readFile_cases rt.readFault w source.id (purePathName source.filename) with
            ⟨e, hcontent⟩ | ⟨content, hlookup, hcontent⟩
          · have hends := ingestSource_unreadable hready rt hsource hpending hbatch hcollection
              hcontent
            refine ⟨_, hends, ?_⟩
            rw [settled]
            split
            · exact .failed hmem hpending
            · exact .idle
          · exact ⟨_, ingestSource_settles hready rt hsource hpending hbatch hcollection hcontent,
              workStep_settled rt hmem hpending hbatch hcollection hlookup⟩
    · have hruns : Runs (ingestSource rt source.id) w
          (.ok (.skipped source.ingestStatus.value)) w := by
        refine (Runs.select hready.active (.source source.id)).bind ?_
        rw [Query.answer, hsource]
        simp only [ne_eq, hpending, not_false_eq_true, if_true]
        exact Runs.pure _
      exact ⟨[], .of_runs hruns hready.discard, .idle⟩

def Worked (db : Database) (sourceId : Uuid) (events : List Event) : Prop :=
  events = [] ∨ ∃ source ∈ db.sources, source.id = sourceId ∧ source.ingestStatus = .pending ∧
    ((∃ errorMessage, events = [.fail source errorMessage]) ∨
      ∃ collection out, events = [.complete source collection out])

theorem ingestSource_ends (sourceId : Uuid) :
    ∃ events, w.Ends (exec (ingestSource rt sourceId) w).2 events ∧
      Worked w.view sourceId events := by
  obtain ⟨events, hends, hstep⟩ := ingestSource_steps hready rt sourceId
  refine ⟨events, hends, ?_⟩
  cases hstep with
  | idle => exact Or.inl rfl
  | failed hsource hpending => exact Or.inr ⟨_, hsource, rfl, hpending, Or.inl ⟨_, rfl⟩⟩
  | ingested hsource hpending hbatch hcollection hcontent houtcome =>
    exact Or.inr ⟨_, hsource, rfl, hpending, Or.inr ⟨_, _, rfl⟩⟩

end Job

end YCStudio
