import YCStudio.Consistency.Admission

namespace YCStudio

def Exn.recorded (e : Exn) : Str := e.message.take maxErrorMessageLength

def Exn.Recordable (e : Exn) : Prop := '\x00' ∉ e.recorded

instance (e : Exn) : Decidable e.Recordable := inferInstanceAs (Decidable ('\x00' ∉ e.recorded))

def Failure.exn : Failure → Exn
  | raised e => e
  | refused e => e

def Failure.Recorded : Failure → Prop
  | raised e => e.Recordable
  | refused _ => False

instance (failure : Failure) : Decidable failure.Recorded := by
  cases failure <;> unfold Failure.Recorded <;> infer_instance

theorem Failure.Recorded.recordable {failure : Failure} (h : failure.Recorded) :
    failure.exn.Recordable := by
  cases failure with
  | raised e => exact h
  | refused e => exact h.elim

theorem Exn.length_recorded (e : Exn) : e.recorded.length ≤ 500 := List.length_take_le _ _

namespace World

variable {w : World}

theorem releaseSavepoint_advance (hsavepoint : w.session.savepoint = none) (writes : List Write)
    (draws : Nat) : (w.beginNested.advance writes draws).releaseSavepoint = w.advance writes draws := by
  simp only [releaseSavepoint, advance, beginNested, hsavepoint]

theorem rollbackSavepoint_advance (hsavepoint : w.session.savepoint = none)
    (hactive : w.session.health = .active) (writes : List Write) (draws : Nat) :
    (w.beginNested.advance writes draws).rollbackSavepoint = w.advance [] draws := by
  simp only [rollbackSavepoint, advance, beginNested, hsavepoint, hactive, Option.getD_some,
    List.append_nil]

end World

theorem Database.apply_recordFailure {db : Database} {source : Source} (hsource : source ∈ db.sources)
    (errorMessage : Str) :
    db.apply (.recordFailure source.id errorMessage) = db.putSource (source.fail errorMessage) := by
  simp only [apply, modifySource, putSource, mk.injEq, true_and, and_true]
  apply Table.ext
  rw [Table.rows_modify, Table.rows_put]
  apply List.map_congr_left
  intro row hrow
  by_cases hkey : row.id = source.id
  · rw [if_pos hkey, Table.eq_of_key_eq hrow hsource hkey]
    exact (if_pos rfl).symm
  · rw [if_neg hkey]
    exact (if_neg hkey).symm

theorem recordFailure_runs {w : World} (hactive : w.session.health = .active) {e : Exn}
    (hrecordable : e.Recordable) (sourceId : Uuid) :
    Runs (recordFailure sourceId e) w (.ok ())
      (w.advance [.recordFailure sourceId e.recorded] 0) := by
  have hactive' : (w.advance [.recordFailure sourceId e.recorded] 0).session.health = .active :=
    hactive
  have hencodable : (Write.recordFailure sourceId e.recorded).Encodable := hrecordable
  have hflush := Runs.flush hactive' (Database.firstRefusal_nil _)
  rw [World.advance_nil] at hflush
  exact (Runs.execute hactive hencodable).bind hflush

theorem recordFailure_aborts {w : World} (hactive : w.session.health = .active) {e : Exn}
    (hrecordable : ¬ e.Recordable) (sourceId : Uuid) :
    Runs (recordFailure sourceId e) w (.error databaseError) w.abort := by
  have hencodable : ¬ (Write.recordFailure sourceId e.recorded).Encodable := hrecordable
  exact (Runs.executeAborts hactive hencodable).stop

section Handler

variable {w w₁ w₂ : World} {sourceId : Uuid} {e : Exn}

theorem handleFailure_eq (husable : w.session.health ≠ .inactive)
    (hback : w.rollbackSavepoint = w₁) :
    exec (handleFailure sourceId e) w =
      exec (recordFailure sourceId e >>= fun _ => (throw e : Program IngestResult)) w₁ := by
  have hreply : decide (w.session.health ≠ .inactive) = true := decide_eq_true husable
  refine Runs.savepointIsActive.bind ?_
  rw [hreply, ← hback]
  exact Runs.savepointRollback.bind rfl

theorem handleFailure_records (husable : w.session.health ≠ .inactive)
    (hback : w.rollbackSavepoint = w₁) (h : Runs (recordFailure sourceId e) w₁ (.ok ()) w₂) :
    Runs (handleFailure sourceId e) w (.error e) w₂ :=
  (handleFailure_eq husable hback).trans (h.bind (Runs.raise e))

theorem handleFailure_stops (husable : w.session.health ≠ .inactive)
    (hback : w.rollbackSavepoint = w₁) {e' : Exn}
    (h : Runs (recordFailure sourceId e) w₁ (.error e') w₂) :
    Runs (handleFailure sourceId e) w (.error e') w₂ :=
  (handleFailure_eq husable hback).trans h.stop

theorem handleFailure_unusable (hinactive : w.session.health = .inactive) :
    Runs (handleFailure sourceId e) w (.error pendingRollbackError) w := by
  have hreply : decide (w.session.health ≠ .inactive) = false :=
    decide_eq_false (fun h => h hinactive)
  have hguard : w.session.health.guard = .error pendingRollbackError := by rw [hinactive]; rfl
  have hrecord : Runs (recordFailure sourceId e) w (.error pendingRollbackError) w :=
    (Runs.executeUnusable hguard _).stop
  refine Runs.savepointIsActive.bind ?_
  rw [hreply]
  exact hrecord.stop

end Handler

section Savepoint

variable {w : World} (hready : w.Ready) {source : Source} {pipeline : Program IngestResult}

include hready

theorem inSavepoint_completes {collection : Collection} {out : Ingested}
    (hsource : source ∈ w.view.sources) (hpending : source.ingestStatus = .pending)
    (hcollection : collection ∈ w.view.kbCollections) (hid : collection.id = source.collectionId)
    (hwell : out.WellFormed source collection ⟨w.session.stream, w.session.drawn⟩)
    (h : Attempts w.beginNested (Completes w.beginNested source)
      (exec pipeline w.beginNested) (.ok out)) :
    ∃ w', Runs (inSavepoint source.id pipeline) w (.ok out.result) w' ∧
      w.Follows w' [.complete source collection out] := by
  obtain ⟨_, _, hruns, rfl, writes, rfl, happly⟩ := h
  have hactive : (w.beginNested.advance writes (1 + out.chunks.length)).session.health = .active :=
    hready.active
  refine ⟨_, (Runs.beginNested hready.active).bind ((Runs.tryOk hruns).bind
    ((Runs.savepointCommit hactive).bind (Runs.pure _))), ?_⟩
  rw [World.releaseSavepoint_advance hready.savepoint]
  have hdocument := hwell.documentId_eq
  have hfresh : w.view.documents.Fresh out.document.id :=
    hdocument ▸ hready.sound.before.fresh_document
  refine hready.follows happly ⟨hsource, hpending, hcollection, hid, hfresh, ?_, ?_⟩ ?_
  · exact hdocument ▸ hwell
  · exact hwell.accepts hready.sound.intact hready.sound.before hcollection
  · intro id hid
    rcases List.mem_cons.mp hid with rfl | hid
    · rw [hdocument]
      exact Uuid.drawn_draw (Nat.lt_of_lt_of_le Nat.zero_lt_one (Nat.le_add_right _ _))
    · rw [hwell.ids] at hid
      obtain ⟨i, hi, rfl⟩ := mem_chunkIds hid
      exact ⟨rfl, by simp only; omega⟩

theorem inSavepoint_fails {failure : Failure} (hsource : source ∈ w.view.sources)
    (hpending : source.ingestStatus = .pending) (hrecorded : failure.Recorded)
    (h : Attempts w.beginNested (Completes w.beginNested source)
      (exec pipeline w.beginNested) (.error failure)) :
    ∃ w', Runs (inSavepoint source.id pipeline) w (.error failure.exn) w' ∧
      w.Follows w' [.fail source failure.exn.recorded] := by
  cases failure with
  | refused e => exact hrecorded.elim
  | raised e =>
    obtain ⟨writes, draws, hruns⟩ := h
    have hactive : (w.advance [] draws).session.health = .active := hready.active
    have husable : (w.beginNested.advance writes draws).session.health ≠ .inactive :=
      fun h => Health.noConfusion (hready.active.symm.trans h)
    have hback := World.rollbackSavepoint_advance hready.savepoint hready.active writes draws
    have hhandle := handleFailure_records husable hback
      (recordFailure_runs hactive hrecorded source.id)
    rw [World.advance_advance] at hhandle
    refine ⟨_, (Runs.beginNested hready.active).bind (Runs.tryError hruns hhandle).stop, ?_⟩
    refine hready.follows ?_ ⟨hsource, hpending, e.length_recorded⟩ ?_
    · exact Database.apply_recordFailure hsource e.recorded
    · exact fun _ h => absurd h List.not_mem_nil

theorem inSavepoint_lost {failure : Failure} (hrecorded : ¬ failure.Recorded)
    (h : Attempts w.beginNested (Completes w.beginNested source)
      (exec pipeline w.beginNested) (.error failure)) :
    ∃ e w', Runs (inSavepoint source.id pipeline) w (.error e) w' ∧ w.Lost w' := by
  cases failure with
  | refused e =>
    obtain ⟨draws, hruns⟩ := h
    exact ⟨_, _, (Runs.beginNested hready.active).bind
      (Runs.tryError hruns (handleFailure_unusable rfl)).stop,
      ⟨rfl, List.append_nil _, Health.noConfusion⟩⟩
  | raised e =>
    obtain ⟨writes, draws, hruns⟩ := h
    have hactive : (w.advance [] draws).session.health = .active := hready.active
    have husable : (w.beginNested.advance writes draws).session.health ≠ .inactive :=
      fun h => Health.noConfusion (hready.active.symm.trans h)
    have hback := World.rollbackSavepoint_advance hready.savepoint hready.active writes draws
    have hhandle := handleFailure_stops husable hback
      (recordFailure_aborts hactive hrecorded source.id)
    exact ⟨_, _, (Runs.beginNested hready.active).bind (Runs.tryError hruns hhandle).stop,
      ⟨rfl, rfl, Health.noConfusion⟩⟩

end Savepoint

def World.Settles (w : World) (source : Source) (collection : Collection)
    (run : Except Exn IngestResult × World) : Except Failure Ingested → Prop
  | .ok out => run.1 = .ok out.result ∧ w.Follows run.2 [.complete source collection out]
  | .error failure =>
      if failure.Recorded then
        run.1 = .error failure.exn ∧ w.Follows run.2 [.fail source failure.exn.recorded]
      else (∃ e, run.1 = .error e) ∧ w.Lost run.2

section Settle

variable {w : World} (hready : w.Ready) {source : Source} {collection : Collection}
  (hsource : source ∈ w.view.sources) (hpending : source.ingestStatus = .pending)
  (hcollection : collection ∈ w.view.kbCollections) (hid : collection.id = source.collectionId)

include hready hsource hpending hcollection hid

theorem inSavepoint_settles {pipeline : Program IngestResult} {o : Except Failure Ingested}
    (hwell : ∀ out, o = .ok out →
      out.WellFormed source collection ⟨w.session.stream, w.session.drawn⟩)
    (h : Attempts w.beginNested (Completes w.beginNested source)
      (exec pipeline w.beginNested) o) :
    w.Settles source collection (exec (inSavepoint source.id pipeline) w) o := by
  cases o with
  | ok out =>
    obtain ⟨w', hruns, hfollows⟩ :=
      inSavepoint_completes hready hsource hpending hcollection hid (hwell out rfl) h
    rw [World.Settles, hruns]
    exact ⟨rfl, hfollows⟩
  | error failure =>
    rw [World.Settles]
    split
    case isTrue hrecorded =>
      obtain ⟨w', hruns, hfollows⟩ := inSavepoint_fails hready hsource hpending hrecorded h
      rw [hruns]
      exact ⟨rfl, hfollows⟩
    case isFalse hrecorded =>
      obtain ⟨e, w', hruns, hlost⟩ := inSavepoint_lost hready hrecorded h
      rw [hruns]
      exact ⟨⟨e, rfl⟩, hlost⟩

theorem runPipeline_settles (rt : Runtime) (filename : Str) (fileBytes : Bytes)
    (metadata : Option (List (Str × Str))) (countTokens : Option (Str → Nat)) :
    w.Settles source collection
      (exec (inSavepoint source.id
        (runPipeline rt source collection filename fileBytes metadata countTokens)) w)
      (Pipeline.outcome rt source collection filename fileBytes metadata countTokens
        ⟨w.session.stream, w.session.drawn⟩ w.session.now) := by
  have hsound : w.beginNested.Sound := ⟨hready.sound.intact, hready.sound.before⟩
  apply inSavepoint_settles hready hsource hpending hcollection hid
  · intro out hout
    exact Pipeline.outcome_wellFormed hout
  · exact runPipeline_attempts rt filename fileBytes metadata countTokens hready.active hsound
      hsource hcollection

theorem ingestPendingSource_settles (rt : Runtime) (fileBytes : Bytes)
    (metadata : List (Str × Str)) :
    w.Settles source collection
      (exec (ingestPendingSource rt source collection fileBytes metadata) w)
      (Pipeline.outcome rt source collection source.filename fileBytes (some metadata) none
        ⟨w.session.stream, w.session.drawn⟩ w.session.now) := by
  rw [ingestPendingSource, if_neg (not_not_intro hpending)]
  exact runPipeline_settles hready hsource hpending hcollection hid rt source.filename fileBytes
    (some metadata) none

end Settle

theorem mem_admission {db : Database} {existing : Option Source} {source : Source}
    (henabled : (admission existing source).Enabled db) :
    source ∈ ((admission existing source).apply db).sources ∧ Event.Admits source := by
  cases existing with
  | none =>
    obtain ⟨hfresh, hadmits, _⟩ := henabled
    exact ⟨(Table.mem_insert hfresh).mpr (Or.inr rfl), hadmits⟩
  | some existing =>
    obtain ⟨hsource, hadmits, _, hid, _⟩ := henabled
    have hdropped : existing ∈ (db.dropDocuments [existing.id]).sources := hsource
    exact ⟨Database.mem_putSource hdropped hid.symm, hadmits⟩

theorem World.Follows.source_mem {w w' : World} {existing : Option Source} {source : Source}
    (h : w.Follows w' [admission existing source]) :
    source ∈ w'.view.sources ∧ Event.Admits source := by
  rw [h.view]
  exact mem_admission h.admissible.1

theorem World.Follows.kbCollections_eq {w w' : World} {existing : Option Source} {source : Source}
    (h : w.Follows w' [admission existing source]) :
    w'.view.kbCollections = w.view.kbCollections := by
  rw [h.view]
  cases existing <;> rfl

section Document

variable {w : World} (rt : Runtime) {collectionId : Uuid} (filename : Str) (fileBytes : Bytes)
  (dirPath : Option Str) (metadata : Option (List (Str × Str)))
  (countTokens : Option (Str → Nat)) {existing : Option Source}

theorem admitted_collectionId {contentHash : Str} {id : Uuid} {createdAt : Timestamp}
    (hexisting : Query.answer w.view (.sourceByHash collectionId contentHash) = existing) :
    (admitted existing collectionId filename contentHash dirPath id createdAt).collectionId =
      collectionId := (admitted_content hexisting filename dirPath id createdAt).1

variable (hactive : w.session.health = .active)
  (hexisting : Query.answer w.view
    (.sourceByHash collectionId (computeContentHash rt fileBytes)) = existing)

include hactive hexisting

theorem ingestDocument_duplicate {duplicate : Source}
    (hduplicate : existing.filter (!isReingestable ·) = some duplicate) :
    Runs (ingestDocument rt collectionId filename fileBytes dirPath metadata countTokens) w
      (.ok { sourceId := duplicate.id, documentId := none, chunkCount := 0, skipped := true })
      w := by
  refine (Runs.select hactive _).bind ?_
  rw [hexisting, hduplicate]
  exact Runs.pure _

theorem ingestDocument_eq (hadmissible : existing.filter (!isReingestable ·) = none)
    {collection : Collection}
    (hcollection : w.view.kbCollections.get? collectionId = some collection) :
    exec (ingestDocument rt collectionId filename fileBytes dirPath metadata countTokens) w =
      exec (admitSource rt existing collectionId filename (computeContentHash rt fileBytes) dirPath
        >>= fun source => inSavepoint source.id
          (runPipeline rt source collection filename fileBytes metadata countTokens)) w := by
  refine (Runs.select hactive _).bind ?_
  rw [hexisting, hadmissible]
  refine (Runs.select hactive (.collection collectionId)).bind ?_
  rw [Query.answer, hcollection]

end Document

section Admissible

variable {w : World} (hready : w.Ready) (rt : Runtime) {collectionId : Uuid} (filename : Str)
  (fileBytes : Bytes) (dirPath : Option Str) (metadata : Option (List (Str × Str)))
  (countTokens : Option (Str → Nat)) {existing : Option Source}
  (hexisting : Query.answer w.view
    (.sourceByHash collectionId (computeContentHash rt fileBytes)) = existing)
  (hadmissible : existing.filter (!isReingestable ·) = none) {collection : Collection}
  (hcollection : w.view.kbCollections.get? collectionId = some collection)

include hready hexisting hadmissible hcollection

theorem ingestDocument_lost {e : Exn} (hfault : admissionFault rt filename existing = some e) :
    ∃ w', Runs (ingestDocument rt collectionId filename fileBytes dirPath metadata countTokens) w
        (.error e) w' ∧ w.Lost w' := by
  obtain ⟨w', hruns, hlost⟩ : ∃ w', Runs (admitSource rt existing collectionId filename
      (computeContentHash rt fileBytes) dirPath) w (.error e) w' ∧ w.Lost w' :=
    admitSource_lost hready hfault
  refine ⟨w', ?_, hlost⟩
  rw [Runs, ingestDocument_eq rt filename fileBytes dirPath metadata countTokens hready.active
    hexisting hadmissible hcollection]
  exact hruns.stop

theorem ingestDocument_settles (hfault : admissionFault rt filename existing = none) :
    let source := admitted existing collectionId filename (computeContentHash rt fileBytes) dirPath
      ⟨w.session.stream, w.session.drawn⟩ w.session.now
    ∃ w₁, w.Follows w₁ [admission existing source] ∧
      w₁.Settles source collection
        (exec (ingestDocument rt collectionId filename fileBytes dirPath metadata countTokens) w)
        (Pipeline.outcome rt source collection filename fileBytes metadata countTokens
          ⟨w.session.stream, w.session.drawn + admissionDraws existing⟩ w.session.now) := by
  intro source
  obtain ⟨w₁, hruns, hfollows, hdrawn⟩ : ∃ w₁, Runs (admitSource rt existing collectionId
      filename (computeContentHash rt fileBytes) dirPath) w (.ok source) w₁ ∧
        w.Follows w₁ [admission existing source] ∧
        w₁.session.drawn = w.session.drawn + admissionDraws existing :=
    admitSource_runs hready hexisting hcollection hfault
  refine ⟨w₁, hfollows, ?_⟩
  obtain ⟨hsource, hadmits⟩ := hfollows.source_mem
  obtain ⟨hmem, hid⟩ := Table.get?_eq_some_iff.mp hcollection
  rw [ingestDocument_eq rt filename fileBytes dirPath metadata countTokens hready.active
    hexisting hadmissible hcollection]
  have hexec : exec (admitSource rt existing collectionId filename
      (computeContentHash rt fileBytes) dirPath >>= fun source => inSavepoint source.id
        (runPipeline rt source collection filename fileBytes metadata countTokens)) w =
      exec (inSavepoint source.id
        (runPipeline rt source collection filename fileBytes metadata countTokens)) w₁ :=
    hruns.bind rfl
  rw [hexec, ← hdrawn, ← hfollows.stream, ← hfollows.now]
  refine runPipeline_settles hfollows.ready hsource hadmits.pending ?_ ?_ rt filename fileBytes
    metadata countTokens
  · rw [hfollows.kbCollections_eq]
    exact hmem
  · exact hid.trans (admitted_collectionId filename dirPath hexisting).symm

end Admissible

end YCStudio
