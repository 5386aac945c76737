import YCStudio.Evaluation.CorpusIsolation

namespace YCStudio

open EvalDatabase

section Writes

variable {K : Type} {db : EvalDatabase K} {user : Uuid} {scope : RunScope}

theorem EvalDatabase.ownsDataset_applyAll (db : EvalDatabase K) (writes : List (EvalWrite K))
    (id : Uuid) : (db.applyAll writes).OwnsDataset user id ↔ db.OwnsDataset user id := by
  induction writes generalizing db with
  | nil => exact Iff.rfl
  | cons write writes ih =>
    refine (ih (db.apply write)).trans ?_
    cases write with
    | setCaseCount datasetId caseCount => exact ownsDataset_setCaseCount db
    | _ => exact Iff.rfl

theorem EvalDatabase.ownsCase_applyAll (db : EvalDatabase K) (writes : List (EvalWrite K))
    (id : Uuid) : (db.applyAll writes).OwnsCase user id ↔ db.OwnsCase user id := by
  unfold OwnsCase
  rw [cases_applyAll]
  exact exists_congr fun case => and_congr_right fun _ =>
    and_congr_left fun _ => db.ownsDataset_applyAll writes case.datasetId

theorem RunScope.mem_runs_applyAll {writes : List (EvalWrite K)}
    (hwithin : ∀ write ∈ writes, scope.Within write) {run : EvalRun K}
    (hrun : run ∈ (db.applyAll writes).runs) :
    run.id = scope.runId ∨ ∃ old ∈ db.runs, old.id = run.id ∧ old.userId = run.userId := by
  induction writes generalizing db with
  | nil => exact Or.inr ⟨run, hrun, rfl, rfl⟩
  | cons write writes ih =>
    obtain ⟨hwrite, hrest⟩ := List.forall_mem_cons.mp hwithin
    rcases ih hrest hrun with hmine | ⟨old, hold, hid, huser⟩
    · exact Or.inl hmine
    · cases write with
      | insertRun created =>
        rcases Table.mem_of_mem_insert hold with hold | rfl
        · exact Or.inr ⟨old, hold, hid, huser⟩
        · exact Or.inl (hid.symm.trans hwrite.id)
      | updateRun id changes =>
        obtain ⟨first, hfirst, rfl⟩ := RunScope.mem_runs_updateRun.mp hold
        have hsame : (if first.id = id then first.patch changes else first).id = first.id ∧
            (if first.id = id then first.patch changes else first).userId = first.userId := by
          split <;> exact ⟨rfl, rfl⟩
        exact Or.inr ⟨first, hfirst, hsame.1.symm.trans hid, hsame.2.symm.trans huser⟩
      | _ => exact Or.inr ⟨old, hold, hid, huser⟩

theorem RunScope.ownsRun_applyAll {writes : List (EvalWrite K)}
    (hwithin : ∀ write ∈ writes, scope.Within write) {id : Uuid} (hne : id ≠ scope.runId) :
    (db.applyAll writes).OwnsRun user id ↔ db.OwnsRun user id := by
  constructor
  · rintro ⟨run, hrun, howner, rfl⟩
    rcases mem_runs_applyAll hwithin hrun with hmine | ⟨old, hold, hid, huser⟩
    · exact absurd hmine hne
    · exact ⟨old, hold, huser.trans howner, hid⟩
  · rintro ⟨run, hrun, howner, rfl⟩
    exact ((db.keeps_applyAll writes).ownsRun_iff hrun).mpr ⟨run, hrun, howner, rfl⟩

end Writes

namespace Corpus

variable {K : Type} {c : Corpus K} {stream : Nat} {now : Timestamp}

section Commits

variable {scope : RunScope}

theorem details_ownPart (writes : List (EvalWrite K)) :
    ((c.ownPart scope.userId).commit now
        ((c.database.applyAll writes).ownPart scope.userId)).details =
      fun id => if c.database.OwnsDataset scope.userId id then
        (c.commit now (c.database.applyAll writes)).details id else default := by
  rw [details_commit_ownPart now (c.database.ownsDataset_applyAll writes)]
  funext id
  exact ite_congr (propext (c.database.ownsDataset_applyAll writes id)) (fun _ => rfl) fun _ => rfl

variable (c now scope) in
theorem launch_ownPart {created : List (EvalWrite K)} (failed : List (EvalWrite K))
    (hcreated : ∀ write ∈ created, scope.Within write)
    (hfailed : ∀ write ∈ failed, scope.Within write)
    (hrun : (c.database.applyAll created).OwnsRun scope.userId scope.runId) :
    { ((c.ownPart scope.userId).commit now
        ((c.database.applyAll created).ownPart scope.userId)).createdRunAt now scope.runId with
      database := (c.database.applyAll (created ++ failed)).ownPart scope.userId } =
    ({ (c.commit now (c.database.applyAll created)).createdRunAt now scope.runId with
      database := c.database.applyAll (created ++ failed) }).ownPart scope.userId := by
  have hall : ∀ write ∈ created ++ failed, scope.Within write := fun write hwrite =>
    (List.mem_append.mp hwrite).elim (hcreated write) (hfailed write)
  refine Corpus.ext rfl ?_ ?_ ?_
  · refine (details_ownPart created).trans (funext fun id => ?_)
    exact ite_congr (propext (c.database.ownsDataset_applyAll (created ++ failed) id).symm)
      (fun _ => rfl) fun _ => rfl
  · funext id
    exact ite_congr (propext (c.database.ownsCase_applyAll (created ++ failed) id).symm)
      (fun _ => rfl) fun _ => rfl
  · funext id
    by_cases hid : id = scope.runId
    · obtain ⟨run, hmem, howner, hrunId⟩ := hrun
      have hown : (c.database.applyAll (created ++ failed)).OwnsRun scope.userId id := by
        rw [applyAll_append, hid, ← hrunId]
        exact (((c.database.applyAll created).keeps_applyAll failed).ownsRun_iff hmem).mpr
          ⟨run, hmem, howner, rfl⟩
      exact (if_pos hid).trans ((if_pos hown).trans (if_pos hid)).symm
    · refine (if_neg hid).trans ?_
      exact ite_congr (propext (RunScope.ownsRun_applyAll hall hid).symm) (fun _ => (if_neg hid).symm)
        fun _ => rfl

variable (now) in
theorem evaluate_ownPart (hfits : scope.Fits c.database) {writes : List (EvalWrite K)}
    (hwithin : ∀ write ∈ writes, scope.Within write) (hstored : scope.stored) :
    (c.ownPart scope.userId).commit now ((c.database.applyAll writes).ownPart scope.userId) =
      (c.commit now (c.database.applyAll writes)).ownPart scope.userId := by
  refine Corpus.ext rfl ?_ ?_ ?_
  · refine (details_ownPart writes).trans (funext fun id => ?_)
    exact ite_congr (propext (c.database.ownsDataset_applyAll writes id).symm)
      (fun _ => rfl) fun _ => rfl
  · funext id
    exact ite_congr (propext (c.database.ownsCase_applyAll writes id).symm)
      (fun _ => rfl) fun _ => rfl
  · funext id
    refine ite_congr (propext ?_) (fun _ => rfl) fun _ => rfl
    by_cases hid : id = scope.runId
    · obtain ⟨run, hmem, hrunId⟩ := hfits.stored hstored
      rw [hid, ← hrunId]
      exact ((c.database.keeps_applyAll writes).ownsRun_iff hmem).symm
    · exact (RunScope.ownsRun_applyAll hwithin hid).symm

end Commits

section Runs

variable [Field K] [LinearOrder K] {user : Uuid}

omit [Field K] in
theorem storeRun_stranger {db : EvalDatabase K} {datasetId : Uuid}
    (h : ¬ db.OwnsDataset user datasetId) (rt : EvalRuntime K) (runId : Uuid)
    (configOverrides : JsonDict) :
    (∃ e w, rt.fault .dataset = some e ∧
      execEval (storeRun rt runId user datasetId configOverrides) db.connect = (.error e, w)) ∨
    ∃ e w, rt.fault .dataset = none ∧ (httpException e).veiled = { statusCode := 404, detail := [] } ∧
      execEval (storeRun rt runId user datasetId configOverrides) db.connect = (.error e, w) := by
  cases hfault : rt.fault .dataset with
  | some e =>
    have hselect : execEval (selectEval (rt.fault .dataset) (.dataset datasetId)) db.connect =
        (.error e, db.connect.abort) := by
      rw [hfault]
      rfl
    exact Or.inl ⟨e, _, rfl, Script.run_bind_of_error (Script.run_bind_of_error hselect)⟩
  | none =>
    have hselect : execEval (selectEval (rt.fault .dataset) (.dataset datasetId)) db.connect =
        (.ok (db.datasets.get? datasetId), db.connect) := by
      rw [hfault]
      rfl
    cases hget : db.datasets.get? datasetId with
    | none =>
      rw [hget] at hselect
      exact Or.inr ⟨evaluationDatasetNotFound datasetId, db.connect, rfl, rfl,
        Script.run_bind_of_error (Script.run_bind_of_ok hselect)⟩
    | some dataset =>
      obtain ⟨hdataset, hid⟩ := Table.get?_eq_some_iff.mp hget
      rw [hget] at hselect
      have hforbidden : execEval (createEvalRun rt runId user datasetId configOverrides)
          db.connect = (.error evaluationForbidden, db.connect) := by
        refine (Script.run_bind_of_ok hselect).trans ?_
        dsimp only
        rw [if_pos fun howner => h ⟨dataset, hdataset, howner, hid⟩]
        rfl
      exact Or.inr ⟨_, _, rfl, rfl, Script.run_bind_of_error hforbidden⟩

omit [Field K] in
theorem mirrors_enqueueEvalRun_stranger (rt : EvalRuntime K) (request : EvalRunCreateRequest)
    (fault : Option RedisFault) (hown : ¬ c.database.OwnsDataset user request.datasetId) :
    Mirrors user (c.enqueueEvalRun rt stream now user request fault)
      ((c.ownPart user).enqueueEvalRun rt stream now user request fault) := by
  have hown' : ¬ (c.ownPart user).database.OwnsDataset user request.datasetId :=
    mt ownsDataset_ownPart.mp hown
  have hfailed {c : Corpus K} {e : PyException} {w : EvalWorld K}
      (h : execEval (storeRun rt ⟨stream, 0⟩ user request.datasetId request.configOverrides)
        c.database.connect = (.error e, w)) :
      c.enqueueEvalRun rt stream now user request fault = (.error (httpException e), c) := by
    have hsame : w.database = c.database := storeRun_error h
    simp only [enqueueEvalRun, h, hsame, commit_self]
  rcases storeRun_stranger hown rt ⟨stream, 0⟩ request.configOverrides with
    ⟨e, w, hfault, h⟩ | ⟨e, w, hfault, hveiled, h⟩
  · rcases storeRun_stranger hown' rt ⟨stream, 0⟩ request.configOverrides with
      ⟨e', w', hfault', h'⟩ | ⟨e', w', hfault', _⟩
    · cases hfault.symm.trans hfault'
      rw [hfailed h, hfailed h']
      exact ⟨rfl, rfl⟩
    · cases hfault.symm.trans hfault'
  · rcases storeRun_stranger hown' rt ⟨stream, 0⟩ request.configOverrides with
      ⟨e', w', hfault', _⟩ | ⟨e', w', hfault', hveiled', h'⟩
    · cases hfault.symm.trans hfault'
    · rw [hfailed h, hfailed h']
      exact ⟨congrArg Except.error (hveiled'.trans hveiled.symm), rfl⟩

omit [Field K] in
theorem mirrors_enqueueEvalRun (hsettled : c.Settled stream) (rt : EvalRuntime K)
    (request : EvalRunCreateRequest) (fault : Option RedisFault) :
    Mirrors user (c.enqueueEvalRun rt stream now user request fault)
      ((c.ownPart user).enqueueEvalRun rt stream now user request fault) := by
  by_cases hown : c.database.OwnsDataset user request.datasetId
  swap
  · exact mirrors_enqueueEvalRun_stranger rt request fault hown
  let scope : RunScope := {
    runId := ⟨stream, 0⟩
    datasetId := request.datasetId
    userId := user
    cases := c.database.activeCases request.datasetId
    stored := False }
  have hfits : scope.Fits c.database := by
    refine ⟨rfl, fun run hrun hid => ?_, False.elim⟩
    have hstream := hsettled.2.runs run hrun
    rw [hid] at hstream
    exact absurd hstream (Nat.lt_irrefl stream)
  have hhosts : c.database.Hosts scope := by
    obtain ⟨dataset, hdataset, howner, hid⟩ := hown
    exact ⟨hsettled.1, hfits, dataset, hdataset, hid, howner⟩
  have habides := abides_storeRun scope rt request.configOverrides
  have hconnect := RunScope.serves_connect scope c.database
  obtain ⟨hserves, hreturns⟩ := RunScope.Serves.run hfits habides hconnect
  have hsame := RunScope.execEval_ownPart hhosts habides hconnect
  have hstart : (c.ownPart user).database.connect = c.database.connect.ownPart user := rfl
  unfold enqueueEvalRun
  rw [hstart, hsame]
  rcases hran : execEval (storeRun rt ⟨stream, 0⟩ user request.datasetId request.configOverrides)
    c.database.connect with ⟨e | run, w⟩
  · have hkept : w.database = c.database := storeRun_error hran
    refine ⟨rfl, ?_⟩
    change (c.ownPart user).commit now (w.database.ownPart user) =
      (c.commit now w.database).ownPart user
    rw [hkept, commit_self]
    exact commit_self now
  · rw [hran] at hserves hreturns
    have hrun : scope.Holds run := hreturns run rfl
    obtain ⟨created, hcreated, hdatabase⟩ := hserves.committed
    have howns : w.database.OwnsRun user run.id := by
      obtain ⟨hfresh, _, hruns, _⟩ := storeRun_ok hran
      refine ⟨run, ?_, hrun.userId, rfl⟩
      rw [hruns]
      exact (Table.mem_insert hfresh).mpr (Or.inr rfl)
    have hfitted : scope.Fits w.database := hdatabase ▸ hfits.applyAll hcreated
    have hfails := abides_failEvaluationRun scope rt enqueueFailedMessage
    have hfailing := RunScope.execEval_ownPart hhosts hfails hserves
    obtain ⟨failed, hfailed, hlater⟩ :=
      (RunScope.Serves.run hfitted hfails hserves.restart).1.committed
    rw [hrun.id, hdatabase] at howns
    dsimp only
    by_cases hfault : fault = none
    · rw [if_pos hfault, if_pos hfault]
      refine ⟨rfl, ?_⟩
      have hlaunched := launch_ownPart c now scope [] hcreated
        (fun _ h => absurd h List.not_mem_nil) howns
      rw [List.append_nil, ← hdatabase, ← hrun.id] at hlaunched
      exact hlaunched
    · rw [if_neg hfault, if_neg hfault]
      have hlaunched := launch_ownPart c now scope failed hcreated hfailed howns
      rw [applyAll_append, ← hdatabase, ← hlater] at hlaunched
      rw [hrun.id, hfailing]
      rcases hresult : execEval (failEvaluationRun rt scope.runId enqueueFailedMessage) w with ⟨e | _, w'⟩
      · rw [hresult] at hlaunched
        exact ⟨rfl, hlaunched⟩
      · rw [hresult] at hlaunched
        exact ⟨rfl, hlaunched⟩

theorem evaluateRun_ownPart (hsettled : c.Settled stream) (rt : EvalRuntime K) (runId : Uuid)
    (hown : c.database.OwnsRun user runId) :
    (c.ownPart user).commit now
        (execEval (evaluateRun rt runId) (c.ownPart user).database.connect).2.database =
      (c.commit now (execEval (evaluateRun rt runId) c.database.connect).2.database).ownPart user := by
  obtain ⟨run, hrun, rfl, rfl⟩ := hown
  let scope : RunScope := {
    runId := run.id
    datasetId := run.datasetId
    userId := run.userId
    cases := c.database.activeCases run.datasetId
    stored := True }
  have hfits : scope.Fits c.database := by
    refine ⟨rfl, fun other hother hsame => ?_, fun _ => ⟨run, hrun, rfl⟩⟩
    cases Table.eq_of_key_eq hother hrun hsame
    exact ⟨rfl, rfl, rfl⟩
  have hhosts : c.database.Hosts scope := ⟨hsettled.1, hfits, hsettled.1.launched run hrun⟩
  have habides := abides_evaluateRun scope rt trivial
  have hconnect := RunScope.serves_connect scope c.database
  have hsame := RunScope.execEval_ownPart hhosts habides hconnect
  obtain ⟨writes, hwithin, hdatabase⟩ :=
    (RunScope.Serves.run hfits habides hconnect).1.committed
  have hstart : (c.ownPart run.userId).database.connect = c.database.connect.ownPart run.userId := rfl
  have hevaluated := evaluate_ownPart now hfits hwithin trivial
  rw [← hdatabase] at hevaluated
  rw [hstart, hsame]
  exact hevaluated

end Runs

section Generation

variable {user datasetId : Uuid}

theorem generateEvalDataset_ownPart (hsettled : c.Settled stream) (shuffler : Shuffler)
    (generate : Str → Except GenerationError GeneratedQuestion) (count seed : Int)
    (hown : c.database.OwnsDataset user datasetId) :
    (c.ownPart user).generateEvalDataset shuffler generate stream now datasetId count seed =
      (c.generateEvalDataset shuffler generate stream now datasetId count seed).ownPart user := by
  have hget : (c.ownPart user).database.datasets.get? datasetId =
      c.database.datasets.get? datasetId := get?_own hown
  have hknowledge : (c.ownPart user).database.knowledge = c.database.knowledge := rfl
  unfold generateEvalDataset
  rw [generateSyntheticCases_drafted, generateSyntheticCases_drafted, hget, hknowledge]
  cases hdrafted : draftedCases shuffler generate count seed stream now datasetId
    c.database.knowledge (c.database.datasets.get? datasetId) with
  | error e => rfl
  | ok created =>
    obtain ⟨_, _, hids, hrows⟩ := draftedCases_ok shuffler generate count seed hdrafted
    let noted : List ReviewedCase := created.map fun row =>
      { row.toEvalCase with reviewNote := some row.reviewNote }
    have hnoted : noted.map (·.id) = draws stream noted.length := by
      rw [List.map_map, List.length_map]
      exact hids
    have hcreated : ∀ row ∈ noted, row.Created datasetId := by
      intro row hrow
      obtain ⟨synthetic, hmem, rfl⟩ := List.mem_map.mp hrow
      exact ⟨(hrows synthetic hmem).1, (hrows synthetic hmem).2⟩
    have hinserted := insertCases_ownPart now hsettled hown hnoted hcreated
    rw [List.map_map] at hinserted
    exact hinserted

end Generation

end Corpus

section Tenants

variable {K : Type}

def EvalEvent.view (user : Uuid) (event : EvalEvent K)
    (reply : Option (Except HttpException (EvalReply K))) :
    Option (Except HttpException (EvalReply K)) :=
  if event.action.actor = some user then reply.map (·.mapError HttpException.veiled) else none

def EvalEvent.ByOther (user : Uuid) (event : EvalEvent K) : Prop :=
  ∃ other ∈ event.action.actor, other ≠ user

instance (user : Uuid) : DecidablePred fun event : EvalEvent K => ¬ event.ByOther user :=
  fun event => inferInstanceAs (Decidable (¬ ∃ other ∈ event.action.actor, other ≠ user))

namespace Corpus

variable [Field K] [LinearOrder K] {c : Corpus K} {user : Uuid} {stream : Nat}

theorem mirrors_respond (hsettled : c.Settled stream) (now : Timestamp) (request : EvalRequest K) :
    Mirrors user (c.respond stream now user request)
      ((c.ownPart user).respond stream now user request) := by
  cases request with
  | createEvalDataset request => exact mirrors_createEvalDataset hsettled request
  | listEvalDatasets => exact mirrors_listEvalDatasets
  | addManualEvalCases datasetId request => exact mirrors_addManualEvalCases hsettled datasetId request
  | enqueueSyntheticGeneration datasetId request fault =>
    exact mirrors_enqueueSyntheticGeneration datasetId request fault
  | listEvalCases datasetId => exact mirrors_listEvalCases datasetId
  | reviewEvalCase caseId request => exact mirrors_reviewEvalCase caseId request
  | enqueueEvalRun rt request fault => exact mirrors_enqueueEvalRun hsettled rt request fault
  | getEvalRuns query => exact mirrors_getEvalRuns query.limit
  | getEvalRun runId => exact mirrors_getEvalRun runId
  | compareEvalRuns runId baseline => exact mirrors_compareEvalRuns hsettled.1 runId baseline

theorem step_ownPart (hsettled : c.Settled stream) (event : EvalEvent K)
    (hkept : ¬ event.ByOther user) :
    (event.step stream c).2.ownPart user = (event.step stream (c.ownPart user)).2 ∧
      event.view user (event.step stream c).1 =
        event.view user (event.step stream (c.ownPart user)).1 := by
  have hforeign (h : c.Foreign user event.action) :
      (event.step stream c).2.ownPart user = c.ownPart user :=
    (step_changes hsettled.1 hsettled.2 event).foreign hsettled h
  obtain ⟨now, action⟩ := event
  cases action with
  | knowledge change => exact ⟨rfl, rfl⟩
  | request userId request =>
    obtain rfl : userId = user := of_not_not fun hother => hkept ⟨userId, rfl, hother⟩
    have hmirrors : Mirrors userId _ _ := mirrors_respond hsettled now request
    have hview (reply : Option (Except HttpException (EvalReply K))) :
        EvalEvent.view userId ⟨now, .request userId request⟩ reply =
          reply.map (·.mapError HttpException.veiled) := if_pos rfl
    refine ⟨hmirrors.state.symm, ?_⟩
    rw [hview, hview]
    exact congrArg some hmirrors.reply.symm
  | generateEvalDataset shuffler generate datasetId count seed =>
    refine ⟨?_, rfl⟩
    by_cases hown : c.database.OwnsDataset user datasetId
    · exact (generateEvalDataset_ownPart hsettled shuffler generate count seed hown).symm
    · have hnone : (c.ownPart user).database.datasets.get? datasetId = none := get?_not_own hown
      have hidle : (c.ownPart user).generateEvalDataset shuffler generate stream now datasetId
          count seed = c.ownPart user := by
        unfold generateEvalDataset EvalDatabase.generateSyntheticCases
        rw [hnone]
        split <;> rename_i h <;> split at h <;> cases h <;> rfl
      exact (hforeign hown).trans hidle.symm
  | evaluateRun rt runId =>
    refine ⟨?_, rfl⟩
    by_cases hown : c.database.OwnsRun user runId
    · exact (evaluateRun_ownPart hsettled rt runId hown).symm
    · have hnone : (c.ownPart user).database.runs.get? runId = none := by
        refine Table.get?_eq_none_iff.mpr fun run hrun hid => hown ?_
        obtain ⟨hmem, howner⟩ := mem_runs_ownPart.mp hrun
        exact ⟨run, hmem, howner, hid⟩
      have hidle : (c.ownPart user).commit now
          (execEval (evaluateRun rt runId) (c.ownPart user).database.connect).2.database =
            c.ownPart user := by
        rw [evaluateRun_absent hnone, commit_self]
      exact (hforeign hown).trans hidle.symm

theorem follows_ownPart (user : Uuid) :
    Projection.Follows (EvalEvent.step (K := K)) (EvalEvent.view user) (¬ ·.ByOther user)
      (ownPart user) (fun stream c => c.Settled stream) where
  stays _ event _ h := h.step event
  kept _ event _ h hkept := step_ownPart h event hkept
  dropped stream event c h hdropped := by
    obtain ⟨other, hactor, hother⟩ := of_not_not hdropped
    have hforeign : c.Foreign user event.action := by
      cases haction : event.action with
      | request userId request =>
        rw [haction] at hactor
        cases hactor
        exact hother
      | _ =>
        rw [haction] at hactor
        cases hactor
    refine ⟨(step_changes h.1 h.2 event).foreign h hforeign, if_neg fun hmine => hother ?_⟩
    exact Option.some.inj (hactor.symm.trans hmine)

theorem tenants_isolated (knowledge : Database) (user : Uuid) (events : List (EvalEvent K)) :
    let alone := Projection.withhold (¬ ·.ByOther user) events
    ((empty knowledge).after events).ownPart user =
        Projection.play EvalEvent.step 0 alone (empty knowledge) ∧
      Projection.seen EvalEvent.step (EvalEvent.view user) 0 (events.map some) (empty knowledge) =
        Projection.seen EvalEvent.step (EvalEvent.view user) 0 alone (empty knowledge) := by
  have hempty : (empty knowledge : Corpus K).ownPart user = empty knowledge := rfl
  have hplayed := (follows_ownPart user).play events ⟨sound_empty knowledge, predates_empty knowledge⟩
  rw [hempty] at hplayed
  exact hplayed

end Corpus

end Tenants

end YCStudio
