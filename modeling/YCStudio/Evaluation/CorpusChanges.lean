import YCStudio.Evaluation.CorpusRecords
import YCStudio.Evaluation.RunHistory

theorem Except.map_eq_of_mapM {ε α β γ : Type} {f : α → Except ε β} {g : β → γ} {g' : α → γ}
    (hf : ∀ x y, f x = .ok y → g y = g' x) {xs : List α} {ys : List β} (h : xs.mapM f = .ok ys) :
    ys.map g = xs.map g' := by
  have hrows := Except.forall₂_of_mapM h
  clear h
  induction hrows with
  | nil => rfl
  | cons hrow _ ih => rw [List.map_cons, List.map_cons, ih, hf _ _ hrow]

namespace YCStudio

open EvalDatabase

section Rows

variable {stream : Nat} {now : Timestamp} {datasetId : Uuid}

def draws (stream n : Nat) : List Uuid := (List.range n).map (Uuid.mk stream)

theorem nodup_draws (stream n : Nat) : (draws stream n).Nodup := by
  refine List.Nodup.map (fun i j h => ?_) List.nodup_range
  cases h
  rfl

theorem stream_of_mem_draws {n : Nat} {id : Uuid} (h : id ∈ draws stream n) : id.stream = stream := by
  obtain ⟨draw, _, rfl⟩ := List.mem_map.mp h
  rfl

structure ReviewedCase.Created (datasetId : Uuid) (row : ReviewedCase) : Prop where
  datasetId : row.datasetId = datasetId
  legible : row.Legible

theorem manualCase_ok {draw : Nat} {item : ManualCase} {row : ReviewedCase}
    (h : manualCase stream now datasetId draw item = .ok row) :
    row.id = ⟨stream, draw⟩ ∧ row.Created datasetId := by
  obtain ⟨query, expectedChunkIds, reviewNote⟩ := item
  simp only [manualCase] at h
  split at h
  · cases h
  next hquery =>
    split at h
    · cases h
    next hexpected =>
      cases h
      refine ⟨rfl, rfl, ?_, fun _ => hquery, hexpected, ⟨expectedChunkIds, rfl⟩, ⟨.manual, rfl⟩⟩
      exact Words.normalize_normalize (by decide) query

theorem manualCases_ok {cases : List ManualCase} {created : List ReviewedCase}
    (h : manualCases stream now datasetId cases = .ok created) :
    created.map (·.id) = draws stream created.length ∧ ∀ row ∈ created, row.Created datasetId := by
  constructor
  · have hids : created.map (·.id) = cases.zipIdx.map fun item => ⟨stream, item.2⟩ :=
      Except.map_eq_of_mapM (fun _ _ hrow => (manualCase_ok hrow).1) h
    have hlength : created.length = cases.length := by
      rw [← (Except.forall₂_of_mapM h).length_eq, List.length_zipIdx]
    have hdraws : cases.zipIdx.map Prod.snd = List.range cases.length := by
      rw [List.zipIdx_map_snd, List.range_eq_range']
    rw [hids, hlength, draws, ← hdraws, List.map_map]
    rfl
  · intro row hrow
    obtain ⟨item, _, hitem⟩ := Except.exists_of_mem_mapM h hrow
    exact (manualCase_ok hitem).2

variable {seed : Int} {chunks : List Chunk} {questions : List GeneratedQuestion}

theorem ids_syntheticCases :
    (syntheticCases stream now datasetId seed chunks questions).map (·.id) =
      draws stream (syntheticCases stream now datasetId seed chunks questions).length := by
  refine List.ext_getElem (by simp [draws]) fun i hi hi' => ?_
  simp [syntheticCases, syntheticCase, draws]

theorem created_syntheticCases {generate : Str → Except GenerationError GeneratedQuestion}
    (h : chunks.mapM (validatedQuestion generate) = .ok questions) {row : SyntheticCase}
    (hrow : row ∈ syntheticCases stream now datasetId seed chunks questions) :
    row.datasetId = datasetId ∧ row.Legible := by
  rw [syntheticCases, List.mem_mapIdx] at hrow
  obtain ⟨i, hi, rfl⟩ := hrow
  have hmem : (chunks.zip questions)[i].2 ∈ questions := (List.of_mem_zip (List.getElem_mem hi)).2
  obtain ⟨chunk, _, hvalidated⟩ := Except.exists_of_mem_mapM h hmem
  obtain ⟨question, _, hvalid⟩ := Except.bind_eq_ok hvalidated
  obtain ⟨_, _, haccepted⟩ := validateGeneratedQuestion_eq_ok_iff.mp hvalid
  refine ⟨rfl, ?_, ?_, List.cons_ne_nil _ _, ⟨[_], rfl⟩, ⟨.synthetic, rfl⟩⟩
  · change Str.join [' '] (chunks.zip questions)[i].2.query.words = (chunks.zip questions)[i].2.query
    rw [haccepted]
    exact Words.normalize_normalize (by decide) question.query
  · have hother : EvalCaseSource.synthetic.value ≠ EvalCaseSource.manual.value := by decide
    exact fun hmanual => absurd hmanual hother

end Rows

section Changes

variable {K : Type}

def EvalAction.actor : EvalAction K → Option Uuid
  | .request userId _ => some userId
  | _ => none

def EvalAction.Fills (datasetId : Uuid) : EvalAction K → Prop
  | .request _ (.addManualEvalCases filled _) => filled = datasetId
  | .generateEvalDataset _ _ filled _ _ => filled = datasetId
  | _ => False

namespace Corpus

variable (c : Corpus K)

inductive Changes (stream : Nat) (event : EvalEvent K) (c : Corpus K) : Corpus K → Prop
  | nothing : Changes stream event c c
  | knowledge (change : KnowledgeChange) (asked : event.action = .knowledge change) :
      Changes stream event c { c with
        database := { c.database with knowledge := change.apply c.database.knowledge } }
  | dataset (dataset : EvalDataset) (details : DatasetDetails) (id : dataset.id = ⟨stream, 0⟩)
      (caseCount : dataset.caseCount = 0) (owner : event.action.actor = some dataset.userId)
      (known : dataset.userId ∈ c.database.knowledge.users) :
      Changes stream event c { c with
        database := { c.database with datasets := c.database.datasets.insert dataset }
        details := fun id => if id = dataset.id then details else c.details id }
  | cases (dataset : EvalDataset) (stored : dataset ∈ c.database.datasets)
      (fills : event.action.Fills dataset.id)
      (owner : ∀ userId ∈ event.action.actor, dataset.userId = userId)
      (created : List ReviewedCase) (ids : created.map (·.id) = draws stream created.length)
      (rows : ∀ row ∈ created, row.Created dataset.id) :
      Changes stream event c ((c.commit event.now
        ({ c.database with
          cases := c.database.cases.insertAll (created.map ReviewedCase.toEvalCase)
          }.refreshDatasetCaseCount dataset.id)).note created)
  | review (dataset : EvalDataset) (stored : dataset ∈ c.database.datasets) (case : EvalCase)
      (filed : case ∈ c.database.cases) (belongs : case.datasetId = dataset.id)
      (request : ReviewCaseRequest)
      (asked : event.action = .request dataset.userId (.reviewEvalCase case.id request)) :
      Changes stream event c ((c.commit event.now
        ({ c.database with
          cases := c.database.cases.put { case with isActive := request.isActive }
          }.refreshDatasetCaseCount case.datasetId)).note
            [{ case with isActive := request.isActive, reviewNote := request.reviewNote }])
  | launch (scope : RunScope) (fits : scope.Fits c.database) (anchors : c.database.Anchors scope)
      (owner : event.action.actor = some scope.userId) (runId : scope.runId = ⟨stream, 0⟩)
      (created failed : List (EvalWrite K)) (withinCreated : ∀ write ∈ created, scope.Within write)
      (withinFailed : ∀ write ∈ failed, scope.Within write) :
      Changes stream event c
        { (c.commit event.now (c.database.applyAll created)).createdRunAt event.now scope.runId with
          database := c.database.applyAll (created ++ failed) }
  | evaluate (scope : RunScope) (fits : scope.Fits c.database)
      (anchors : c.database.Anchors scope)
      (asked : ∃ rt, event.action = .evaluateRun rt scope.runId)
      (stored : ∃ run ∈ c.database.runs, run.id = scope.runId) (writes : List (EvalWrite K))
      (within : ∀ write ∈ writes, scope.Within write) :
      Changes stream event c (c.commit event.now (c.database.applyAll writes))

variable {c}

theorem commit_self (now : Timestamp) : c.commit now c.database = c := by
  have hsame (id : Uuid) : ¬ c.recounts c.database id := by
    rintro ⟨old, hold, new, hnew, hne⟩
    cases hold.symm.trans hnew
    exact hne rfl
  obtain ⟨database, details, reviewNotes, runCreatedAt⟩ := c
  simp only [commit, hsame, if_false]

theorem refreshDatasetCaseCount_eq (database : EvalDatabase K) (datasetId : Uuid) :
    (refreshDatasetCaseCount database datasetId).2 = database.refreshDatasetCaseCount datasetId := by
  rw [refreshDatasetCaseCount, datasetStats_active, EvalDatabase.refreshDatasetCaseCount]

theorem ownedDataset_ok {datasets : Table EvalDataset.id} {datasetId userId : Uuid}
    {dataset : EvalDataset} (h : ownedDataset datasets datasetId userId = .ok dataset) :
    dataset ∈ datasets ∧ dataset.id = datasetId ∧ dataset.userId = userId := by
  unfold ownedDataset at h
  split at h
  · cases h
  next found hfound =>
    split at h
    · cases h
    next howner =>
      cases h
      obtain ⟨hmem, hid⟩ := Table.get?_eq_some_iff.mp hfound
      exact ⟨hmem, hid, of_not_not howner⟩

end Corpus

end Changes

section Sessions

variable {K : Type} [Field K] [LinearOrder K] {rt : EvalRuntime K} {db : EvalDatabase K}
  {runId userId datasetId : Uuid} {configOverrides : JsonDict} {run : EvalRun K} {w : EvalWorld K}

omit [Field K] [LinearOrder K] in
theorem RunScope.Serves.restart {scope : RunScope} (h : scope.Serves db w) :
    scope.Serves w.database w where
  committed := ⟨[], fun _ h => absurd h List.not_mem_nil, rfl⟩
  flushed := h.flushed
  pending := h.pending
  tracked := h.tracked

omit [Field K] in
theorem storeRun_anchors (scope : RunScope)
    (h : execEval (storeRun rt scope.runId scope.userId scope.datasetId configOverrides)
      db.connect = (.ok run, w)) : db.Anchors scope := by
  obtain ⟨created, w₁, hcreate, _⟩ := Script.bind_ran_ok h
  obtain ⟨found, w₂, hselect, hcreate⟩ := Script.bind_ran_ok hcreate
  have hfound : found = db.datasets.get? scope.datasetId := by
    change serveEval (.select (rt.fault .dataset) (.dataset scope.datasetId)) db.connect = _ at hselect
    cases hfault : rt.fault .dataset with
    | some e =>
      rw [hfault] at hselect
      cases hselect
    | none =>
      rw [hfault] at hselect
      exact (Except.ok.inj (Prod.mk.inj hselect).1).symm
  cases found with
  | none => cases hcreate
  | some dataset =>
    dsimp only at hcreate
    split at hcreate
    · cases hcreate
    next howner =>
      obtain ⟨hmem, hid⟩ := Table.get?_eq_some_iff.mp hfound.symm
      exact ⟨dataset, hmem, hid, of_not_not howner⟩

omit [Field K] in
theorem getRun_absent (fault : Option PyException) (h : db.runs.get? runId = none) :
    (∃ e w, execEval (getRun fault runId) db.connect = (.error e, w) ∧ w.database = db) ∨
      execEval (getRun fault runId) db.connect = (.ok none, db.connect) := by
  change (∃ e w, serveEval (.getRun fault runId) db.connect = (.error e, w) ∧ _) ∨
    serveEval (.getRun fault runId) db.connect = _
  cases fault with
  | some e => exact Or.inl ⟨e, _, rfl, rfl⟩
  | none =>
    have hview : db.connect.view.runs.get? runId = none := h
    simp only [serveEval, connect, EvalSession.start, Health.usable] at hview ⊢
    rw [hview]
    exact Or.inr rfl

omit [Field K] in
theorem failEvaluationRun_absent (message : Str) (h : db.runs.get? runId = none) :
    (execEval (failEvaluationRun rt runId message) db.connect).2.database = db := by
  rcases getRun_absent (rt.fault .getFailedRun) h with ⟨e, w, hget, hdatabase⟩ | hget
  · have hran : execEval (failEvaluationRun rt runId message) db.connect = (.error e, w) :=
      Script.run_bind_of_error hget
    rw [hran]
    exact hdatabase
  · have hran : execEval (failEvaluationRun rt runId message) db.connect = (.ok (), db.connect) :=
      Script.run_bind_of_ok hget
    rw [hran]
    rfl

theorem evaluateRun_absent (h : db.runs.get? runId = none) :
    (execEval (evaluateRun rt runId) db.connect).2.database = db := by
  have hfind : ∃ e w, execEval (findRun rt runId) db.connect = (.error e, w) := by
    rcases getRun_absent (rt.fault .getRun) h with ⟨e, w, hget, _⟩ | hget
    · exact ⟨e, w, Script.run_bind_of_error hget⟩
    · exact ⟨_, _, Script.run_bind_of_ok hget⟩
  obtain ⟨e, w, hfind⟩ := hfind
  have hunchanged : w.database = db := by
    have hsame := database_unchanged (asks_findRun rt runId) db.connect
    rw [hfind] at hsame
    exact hsame
  have hraised : execEval (runEvaluation rt none runId) db.connect = (.error e, w) :=
    Script.run_bind_of_error hfind
  have hhandled : execEval (evaluateRun rt runId) db.connect = execEval (do
      rollbackEval
      failEvaluationRun rt runId (e.text.take 1000)
      throw e : EvalProgram K (RunSummary K)) w := Script.run_recover_of_error hraised
  have hrollback : execEval rollbackEval w = (.ok (), db.connect) := by
    change ((.ok (), w.rollback) : Except PyException Unit × EvalWorld K) = _
    rw [EvalWorld.rollback, hunchanged]
    rfl
  have hfailed : (execEval (failEvaluationRun rt runId (e.text.take 1000)) db.connect).2.database =
      db := failEvaluationRun_absent _ h
  rw [hhandled, execEval, Script.run_bind_of_ok hrollback]
  rcases hresult : execEval (failEvaluationRun rt runId (e.text.take 1000)) db.connect with ⟨e' | _, w'⟩
  · rw [hresult] at hfailed
    rw [Script.run_bind_of_error hresult]
    exact hfailed
  · rw [hresult] at hfailed
    rw [Script.run_bind_of_ok hresult]
    exact hfailed

end Sessions

section Steps

variable {K : Type} {stream : Nat} {now : Timestamp} {event : EvalEvent K} {c c' : Corpus K}
  {userId datasetId : Uuid}

section Drafts

variable (shuffler : Shuffler) (generate : Str → Except GenerationError GeneratedQuestion)
  (count seed : Int)

def draftedCases (stream : Nat) (now : Timestamp) (datasetId : Uuid) (knowledge : Database)
    (found : Option EvalDataset) : Except GenerationError (List SyntheticCase) :=
  if count < 1 then .error (.raised (Exn.valueError "synthetic case count must be positive".toList))
  else
    match found with
    | none => .error (.lookupError
        ("Evaluation dataset ".toList ++ datasetId.str ++ " was not found".toList))
    | some dataset => do
        let chunks ← (sampleChunks shuffler knowledge dataset.userId count seed).mapError .raised
        let questions ← chunks.mapM (validatedQuestion generate)
        return syntheticCases stream now datasetId seed chunks questions

theorem generateSyntheticCases_drafted (db : EvalDatabase K) :
    db.generateSyntheticCases shuffler generate stream now datasetId count seed =
      (draftedCases shuffler generate count seed stream now datasetId db.knowledge
        (db.datasets.get? datasetId)).map
          fun created => (created, db.addSyntheticCases datasetId created) := by
  unfold generateSyntheticCases draftedCases
  split
  · rfl
  · cases db.datasets.get? datasetId with
    | none => rfl
    | some dataset =>
      dsimp only
      cases (sampleChunks shuffler db.knowledge dataset.userId count seed).mapError
        GenerationError.raised with
      | error e => rfl
      | ok chunks =>
        cases hquestions : chunks.mapM (validatedQuestion generate) with
        | error e => simp only [bind, Except.bind, hquestions, Except.map]
        | ok questions => simp only [bind, Except.bind, hquestions, Except.map, pure, Except.pure]

theorem draftedCases_ok {knowledge : Database} {found : Option EvalDataset}
    {created : List SyntheticCase}
    (h : draftedCases shuffler generate count seed stream now datasetId knowledge found =
      .ok created) :
    ∃ dataset, found = some dataset ∧ created.map (·.id) = draws stream created.length ∧
      ∀ row ∈ created, row.datasetId = datasetId ∧ row.Legible := by
  unfold draftedCases at h
  split at h
  · cases h
  · split at h
    · cases h
    next dataset =>
      obtain ⟨chunks, _, h⟩ := Except.bind_eq_ok h
      obtain ⟨questions, hquestions, h⟩ := Except.bind_eq_ok h
      cases h
      exact ⟨dataset, rfl, ids_syntheticCases, fun row hrow =>
        created_syntheticCases hquestions hrow⟩

end Drafts

namespace Corpus

theorem changes_createEvalDataset (hactor : event.action.actor = some userId)
    (request : DatasetCreateRequest) :
    c.Changes stream event (c.createEvalDataset stream now userId request).2 := by
  unfold createEvalDataset
  split
  · exact .nothing
  next dataset stored h =>
    unfold Corpus.createDataset at h
    dsimp only at h
    split at h
    · cases h
    · split at h
      · cases h
      next hknown =>
        cases h
        exact .dataset _ _ rfl rfl hactor (of_not_not hknown)

theorem changes_addManualEvalCases {request : ManualCasesRequest}
    (hasked : event.action = .request userId (.addManualEvalCases datasetId request)) :
    c.Changes stream event (c.addManualEvalCases stream event.now userId datasetId request).2 := by
  unfold addManualEvalCases
  split
  · exact .nothing
  next dataset howned =>
    obtain ⟨hstored, hid, howner⟩ := ownedDataset_ok howned
    split
    · exact .nothing
    next created stored h =>
      obtain ⟨rows, hrows, h⟩ := Except.bind_eq_ok h
      split at h
      · cases h
      · cases h
        obtain ⟨hids, hcreated⟩ := manualCases_ok hrows
        rw [refreshDatasetCaseCount_eq]
        refine .cases dataset hstored ?_ (fun other hother => ?_) created hids hcreated
        · rw [hasked]
          exact hid.symm
        · rw [hasked] at hother
          exact howner.trans (Option.some.inj hother)

theorem changes_reviewEvalCase {caseId : Uuid} {request : ReviewCaseRequest}
    (hasked : event.action = .request userId (.reviewEvalCase caseId request)) :
    c.Changes stream event (c.reviewEvalCase event.now userId caseId request).2 := by
  unfold reviewEvalCase
  split
  · exact .nothing
  next case hcase =>
    obtain ⟨hfiled, hid⟩ := Table.get?_eq_some_iff.mp hcase
    split
    · exact .nothing
    next dataset howned =>
      obtain ⟨hstored, hbelongs, howner⟩ := ownedDataset_ok howned
      split
      · exact .nothing
      next reviewed stored h =>
        unfold Corpus.reviewCase at h
        rw [hcase] at h
        dsimp only at h
        split at h
        · cases h
        · cases h
          rw [refreshDatasetCaseCount_eq]
          rw [← howner, ← hid] at hasked
          exact .review dataset hstored case hfiled hbelongs.symm request hasked

theorem changes_generateEvalDataset {shuffler : Shuffler}
    {generate : Str → Except GenerationError GeneratedQuestion} {count seed : Int}
    (hasked : event.action = .generateEvalDataset shuffler generate datasetId count seed) :
    c.Changes stream event
      (c.generateEvalDataset shuffler generate stream event.now datasetId count seed) := by
  unfold generateEvalDataset
  rw [generateSyntheticCases_drafted]
  cases hdrafted : draftedCases shuffler generate count seed stream event.now datasetId
    c.database.knowledge (c.database.datasets.get? datasetId) with
  | error e => exact .nothing
  | ok created =>
    obtain ⟨dataset, hdataset, hids, hrows⟩ := draftedCases_ok shuffler generate count seed hdrafted
    obtain ⟨hstored, hid⟩ := Table.get?_eq_some_iff.mp hdataset
    have hchanges : c.Changes stream event _ := .cases dataset hstored
      (by rw [hasked]; exact hid.symm) (by rw [hasked]; rintro _ ⟨⟩)
      (created.map fun row => { row.toEvalCase with reviewNote := some row.reviewNote })
      (by rw [List.map_map, List.length_map]; exact hids)
      (by
        intro row hrow
        obtain ⟨synthetic, hmem, rfl⟩ := List.mem_map.mp hrow
        exact ⟨(hrows synthetic hmem).1.trans hid.symm, (hrows synthetic hmem).2⟩)
    rw [List.map_map, hid] at hchanges
    exact hchanges

section Runs

variable [Field K] [LinearOrder K]

omit [Field K] in
theorem changes_enqueueEvalRun (hpredates : c.database.Predates stream)
    (hactor : event.action.actor = some userId) (rt : EvalRuntime K)
    (request : EvalRunCreateRequest) (fault : Option RedisFault) :
    c.Changes stream event (c.enqueueEvalRun rt stream event.now userId request fault).2 := by
  let scope : RunScope := {
    runId := ⟨stream, 0⟩
    datasetId := request.datasetId
    userId
    cases := c.database.activeCases request.datasetId
    stored := False }
  have hfits : scope.Fits c.database := by
    refine ⟨rfl, fun run hrun hid => ?_, False.elim⟩
    have hstream := hpredates.runs run hrun
    rw [hid] at hstream
    exact absurd hstream (Nat.lt_irrefl stream)
  obtain ⟨hserves, hreturns⟩ := RunScope.Serves.run hfits
    (abides_storeRun scope rt request.configOverrides)
    (RunScope.serves_connect scope c.database)
  unfold enqueueEvalRun
  split
  next e w h =>
    have hsame : w.database = c.database := storeRun_error h
    rw [hsame, commit_self]
    exact .nothing
  next run w h =>
    have hanchors : c.database.Anchors scope := storeRun_anchors scope h
    have hrun : scope.Holds run := hreturns run (congrArg Prod.fst h)
    have hserves : scope.Serves c.database w := by
      rw [congrArg Prod.snd h] at hserves
      exact hserves
    obtain ⟨created, hcreated, hdatabase⟩ := hserves.committed
    rw [hrun.id]
    dsimp only
    split
    · have hchanges : c.Changes stream event _ := .launch scope hfits hanchors hactor rfl created []
        hcreated fun _ h => absurd h List.not_mem_nil
      rw [List.append_nil, ← hdatabase] at hchanges
      exact hchanges
    · have hfitted : scope.Fits w.database := hdatabase ▸ hfits.applyAll hcreated
      obtain ⟨failed, hfailed, hlater⟩ := (RunScope.Serves.run hfitted
        (abides_failEvaluationRun scope rt enqueueFailedMessage)
        hserves.restart).1.committed
      have hchanges : c.Changes stream event _ :=
        .launch scope hfits hanchors hactor rfl created failed hcreated hfailed
      rw [applyAll_append, ← hdatabase, ← hlater] at hchanges
      split
      next e failed' hfail =>
        rw [hfail] at hchanges
        exact hchanges
      next failed' hfail =>
        rw [hfail] at hchanges
        exact hchanges

theorem changes_evaluateRun (hsound : c.database.Sound) {rt : EvalRuntime K} {runId : Uuid}
    (hasked : event.action = .evaluateRun rt runId) :
    c.Changes stream event
      (c.commit event.now (execEval (evaluateRun rt runId) c.database.connect).2.database) := by
  cases hget : c.database.runs.get? runId with
  | none =>
    rw [evaluateRun_absent hget, commit_self]
    exact .nothing
  | some run =>
    obtain ⟨hrun, hid⟩ := Table.get?_eq_some_iff.mp hget
    let scope : RunScope := {
      runId
      datasetId := run.datasetId
      userId := run.userId
      cases := c.database.activeCases run.datasetId
      stored := True }
    have hfits : scope.Fits c.database := by
      refine ⟨rfl, fun other hother hsame => ?_, fun _ => ⟨run, hrun, hid⟩⟩
      cases Table.eq_of_key_eq hother hrun (hsame.trans hid.symm)
      exact ⟨hid, rfl, rfl⟩
    obtain ⟨writes, hwithin, hdatabase⟩ := (RunScope.Serves.run hfits
      (abides_evaluateRun scope rt trivial)
      (RunScope.serves_connect scope c.database)).1.committed
    rw [hdatabase]
    exact .evaluate scope hfits (hsound.launched run hrun) ⟨rt, hasked⟩ ⟨run, hrun, hid⟩ writes
      hwithin

theorem step_changes (hsound : c.database.Sound) (hpredates : c.database.Predates stream)
    (event : EvalEvent K) : c.Changes stream event (event.step stream c).2 := by
  unfold EvalEvent.step
  cases haction : event.action with
  | knowledge change => exact .knowledge change haction
  | generateEvalDataset shuffler generate datasetId count seed =>
    exact changes_generateEvalDataset haction
  | evaluateRun rt runId => exact changes_evaluateRun hsound haction
  | request userId request =>
    have hactor : event.action.actor = some userId := by
      rw [haction]
      rfl
    cases request with
    | createEvalDataset request => exact changes_createEvalDataset hactor request
    | addManualEvalCases datasetId request => exact changes_addManualEvalCases haction
    | reviewEvalCase caseId request => exact changes_reviewEvalCase haction
    | enqueueEvalRun rt request fault => exact changes_enqueueEvalRun hpredates hactor rt request fault
    | _ => exact .nothing

end Runs

theorem fresh_created (hpredates : c.database.Predates stream) {created : List ReviewedCase}
    (ids : created.map (·.id) = draws stream created.length) :
    ∀ case ∈ created.map ReviewedCase.toEvalCase, c.database.cases.Fresh case.id := by
  intro case hcase other hother heq
  obtain ⟨row, hrow, rfl⟩ := List.mem_map.mp hcase
  have hold := hpredates.cases other hother
  rw [heq, stream_of_mem_draws (ids ▸ List.mem_map_of_mem hrow)] at hold
  exact Nat.lt_irrefl stream hold

theorem nodup_created {created : List ReviewedCase}
    (ids : created.map (·.id) = draws stream created.length) :
    ((created.map ReviewedCase.toEvalCase).map EvalCase.id).Nodup := by
  rw [List.map_map]
  exact ids ▸ nodup_draws stream created.length

theorem Changes.sound (h : c.Changes stream event c') (hsound : c.database.Sound)
    (hpredates : c.database.Predates stream) :
    c'.database.Sound ∧ c'.database.Predates (stream + 1) := by
  have hnext : c.database.Predates (stream + 1) := hpredates.mono (Nat.le_succ stream)
  cases h with
  | nothing => exact ⟨hsound, hnext⟩
  | knowledge change =>
    exact ⟨⟨fun dataset hdataset => change.users_subset _ (hsound.owned dataset hdataset),
      hsound.counted, hsound.filed, hsound.legible, hsound.launched, hsound.recorded⟩,
      hnext.datasets, hnext.cases, hnext.runs⟩
  | dataset dataset details id caseCount owner known =>
    have hfresh : c.database.datasets.Fresh dataset.id := fun other hother heq => by
      have hstream := hpredates.datasets other hother
      rw [heq, id] at hstream
      exact Nat.lt_irrefl stream hstream
    refine ⟨hsound.insertDataset hfresh caseCount known, fun other hother => ?_, hnext.cases,
      hnext.runs⟩
    rcases (Table.mem_insert hfresh).mp hother with hold | rfl
    · exact hnext.datasets other hold
    · rw [id]
      exact Nat.lt_succ_self stream
  | cases dataset stored fills owner created ids rows =>
    have hfresh := fresh_created hpredates ids
    have hnodup := nodup_created ids
    refine ⟨hsound.insertCases ⟨dataset, stored, rfl⟩ hfresh hnodup ?_, ?_, ?_, hnext.runs⟩
    · intro case hcase
      obtain ⟨row, hrow, rfl⟩ := List.mem_map.mp hcase
      exact ⟨(rows row hrow).datasetId, (rows row hrow).legible⟩
    · intro other hother
      obtain ⟨old, hold, rfl⟩ := mem_setCaseCount.mp hother
      have hold := hnext.datasets old hold
      split <;> exact hold
    · intro case hcase
      change case ∈ c.database.cases.insertAll _ at hcase
      rw [Table.mem_def, Table.rows_insertAll hfresh hnodup, List.mem_append] at hcase
      rcases hcase with hold | hnew
      · exact hnext.cases case hold
      · obtain ⟨row, hrow, rfl⟩ := List.mem_map.mp hnew
        rw [stream_of_mem_draws (ids ▸ List.mem_map_of_mem hrow)]
        exact Nat.lt_succ_self stream
  | review dataset stored case filed belongs request asked =>
    refine ⟨hsound.putCase { case with isActive := request.isActive } filed rfl rfl ?_, ?_,
      ?_, hnext.runs⟩
    · have hlegible := hsound.legible case filed
      exact ⟨hlegible.normalized, hlegible.asking, hlegible.expecting, hlegible.expected,
        hlegible.source⟩
    · intro other hother
      obtain ⟨old, hold, rfl⟩ := mem_setCaseCount.mp hother
      have hold := hnext.datasets old hold
      split <;> exact hold
    · intro other hother
      rcases Table.mem_put.mp hother with ⟨rfl, _⟩ | ⟨hmem, _⟩
      · exact hnext.cases case filed
      · exact hnext.cases other hmem
  | launch scope fits anchors owner runId created failed withinCreated withinFailed =>
    refine hsound.applyAll hnext fits anchors (runId ▸ Nat.lt_succ_self stream) fun write hwrite => ?_
    rcases List.mem_append.mp hwrite with hwrite | hwrite
    · exact withinCreated write hwrite
    · exact withinFailed write hwrite
  | evaluate scope fits anchors asked stored writes within =>
    obtain ⟨run, hrun, hid⟩ := stored
    exact hsound.applyAll hnext fits anchors (hid ▸ hnext.runs run hrun) within

end Corpus

end Steps

end YCStudio
