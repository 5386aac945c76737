import YCStudio.Evaluation.CorpusHistory
import YCStudio.Evaluation.RunReports

namespace YCStudio

open EvalDatabase

section Histories

variable {K : Type} {stream : Nat} {now : Timestamp} {userId : Uuid} {c c' : Corpus K}

namespace Corpus

structure Silent (c c' : Corpus K) : Prop where
  results : c'.database.results = c.database.results
  completed : ∀ run ∈ c'.database.runs, run.status = .completed → run ∈ c.database.runs

theorem Silent.of_runs (hresults : c'.database.results = c.database.results)
    (hruns : c'.database.runs = c.database.runs) : c.Silent c' :=
  ⟨hresults, fun _ hrun _ => hruns ▸ hrun⟩

theorem silent_createEvalDataset (request : DatasetCreateRequest) :
    c.Silent (c.createEvalDataset stream now userId request).2 := by
  unfold createEvalDataset
  split
  · exact .of_runs rfl rfl
  next h =>
    unfold Corpus.createDataset at h
    dsimp only at h
    split at h
    · cases h
    · split at h
      · cases h
      · cases h
        exact .of_runs rfl rfl

theorem silent_addManualEvalCases {datasetId : Uuid} (request : ManualCasesRequest) :
    c.Silent (c.addManualEvalCases stream now userId datasetId request).2 := by
  unfold addManualEvalCases
  split
  · exact .of_runs rfl rfl
  · split
    · exact .of_runs rfl rfl
    next h =>
      obtain ⟨rows, hrows, h⟩ := Except.bind_eq_ok h
      split at h
      · cases h
      · cases h
        exact .of_runs rfl rfl

theorem silent_reviewEvalCase {caseId : Uuid} (request : ReviewCaseRequest) :
    c.Silent (c.reviewEvalCase now userId caseId request).2 := by
  unfold reviewEvalCase
  split
  · exact .of_runs rfl rfl
  · split
    · exact .of_runs rfl rfl
    · split
      · exact .of_runs rfl rfl
      next h =>
        unfold Corpus.reviewCase at h
        split at h
        · cases h
        · split at h
          · cases h
          · cases h
            exact .of_runs rfl rfl

theorem silent_generateEvalDataset {datasetId : Uuid} (shuffler : Shuffler)
    (generate : Str → Except GenerationError GeneratedQuestion) (count seed : Int) :
    c.Silent (c.generateEvalDataset shuffler generate stream now datasetId count seed) := by
  unfold generateEvalDataset
  rw [generateSyntheticCases_drafted]
  cases draftedCases shuffler generate count seed stream now datasetId c.database.knowledge
    (c.database.datasets.get? datasetId) with
  | error e => exact .of_runs rfl rfl
  | ok created => exact .of_runs rfl rfl

variable [Field K] [LinearOrder K]

omit [Field K] in
theorem silent_enqueueEvalRun (rt : EvalRuntime K) (request : EvalRunCreateRequest)
    (fault : Option RedisFault) :
    c.Silent (c.enqueueEvalRun rt stream now userId request fault).2 := by
  unfold enqueueEvalRun
  split
  next e w h =>
    have hsame : w.database = c.database := storeRun_error h
    rw [hsame]
    exact .of_runs rfl rfl
  next run w h =>
    obtain ⟨hfresh, hopen, hruns, hresults, hsession⟩ := storeRun_ok h
    have hstored : c.Silent ((c.commit now w.database).createdRunAt now run.id) := by
      refine ⟨hresults, fun other hother hcompleted => ?_⟩
      change other ∈ w.database.runs at hother
      rw [hruns, Table.mem_insert hfresh] at hother
      rcases hother with hold | rfl
      · exact hold
      · exact absurd (Or.inl hcompleted) hopen.live
    dsimp only
    split
    · exact hstored
    · have hrun : run ∈ w.database.runs := by
        rw [hruns]
        exact (Table.mem_insert hfresh).mpr (Or.inr rfl)
      have hduring : w = EvalWorld.during w.database run [] [] := by
        obtain ⟨database, session⟩ := w
        cases hsession
        rfl
      obtain ⟨run', hrewrites, hended⟩ := markFailed_rewrites rt enqueueFailedMessage hrun
      rw [← failEvaluationRun_during rt run.id, ← hduring] at hrewrites
      have hfailed : c.Silent { (c.commit now w.database).createdRunAt now run.id with
          database :=
            (execEval (failEvaluationRun rt run.id enqueueFailedMessage) w).2.database } := by
        refine ⟨?_, fun other hother hcompleted => ?_⟩
        · exact Table.ext (hrewrites.results.trans (by rw [List.append_nil, hresults]))
        · rcases (hrewrites.runs other).mp hother with rfl | ⟨hother, _⟩
          · rcases hended with rfl | hended
            · exact absurd (Or.inl hcompleted) hopen.live
            · exact absurd hcompleted hended
          · exact hstored.completed other hother hcompleted
      split
      next e failed hran =>
        rw [hran] at hfailed
        exact hfailed
      next failed hran =>
        rw [hran] at hfailed
        exact hfailed

theorem silent_step {event : EvalEvent K} (h : ∀ rt runId, event.action ≠ .evaluateRun rt runId) :
    c.Silent (event.step stream c).2 := by
  unfold EvalEvent.step
  cases haction : event.action with
  | knowledge change => exact .of_runs rfl rfl
  | generateEvalDataset shuffler generate datasetId count seed =>
    exact silent_generateEvalDataset shuffler generate count seed
  | evaluateRun rt runId => exact absurd haction (h rt runId)
  | request userId request =>
    cases request with
    | createEvalDataset request => exact silent_createEvalDataset request
    | addManualEvalCases datasetId request => exact silent_addManualEvalCases request
    | reviewEvalCase caseId request => exact silent_reviewEvalCase request
    | enqueueEvalRun rt request fault => exact silent_enqueueEvalRun rt request fault
    | _ => exact .of_runs rfl rfl

end Corpus

end Histories

section Reports

variable {K : Type}

def EvalAction.Delivers (runId : Uuid) : EvalAction K → Prop
  | .evaluateRun _ delivered => delivered = runId
  | _ => False

instance (runId : Uuid) (action : EvalAction K) : Decidable (action.Delivers runId) := by
  cases action <;> unfold EvalAction.Delivers <;> infer_instance

def deliveries (events : List (EvalEvent K)) (runId : Uuid) : Nat :=
  events.countP fun event => event.action.Delivers runId

variable [Field K] [LinearOrder K]

def EvalDatabase.Measured (rt : EvalRuntime K) (db : EvalDatabase K) (row : EvalResult K) : Prop :=
  ∃ run ∈ db.runs, run.id = row.runId ∧ ∃ topK, configTopK run.configSnapshot = .ok topK ∧
    ∃ case ∈ db.cases, case.id = row.caseId ∧ case.datasetId = run.datasetId ∧
      ∃ hits knownChunkIds, row.Measures rt topK case hits knownChunkIds ∧
        (row.attribution.Missed ↔ row.hitPositions = [])

namespace Corpus

structure Recounted (events : List (EvalEvent K)) (c : Corpus K) : Prop where
  traced : ∀ row ∈ c.database.results, ∃ rt,
    (∃ event ∈ events, event.action = .evaluateRun rt row.runId) ∧ c.database.Measured rt row
  reported : ∀ run ∈ c.database.runs, run.status = .completed → ∃ rt summary rows,
    (∃ event ∈ events, event.action = .evaluateRun rt run.id) ∧
    run.summaryMetrics = some summary ∧ rows <:+ c.database.resultsOf run.id ∧
      c.database.recount rt.floats run rows = .ok summary ∧
        (deliveries events run.id ≤ 1 → rows = c.database.resultsOf run.id)

structure Extends (event : EvalEvent K) (rows : List (EvalResult K)) (c c' : Corpus K) : Prop where
  keeps : c.database.Keeps c'.database
  results : c'.database.results.rows = c.database.results.rows ++ rows
  traced : ∀ row ∈ rows, ∃ rt, event.action = .evaluateRun rt row.runId ∧
    c'.database.Measured rt row
  completed : ∀ run ∈ c'.database.runs, run.status = .completed →
    run ∈ c.database.runs ∧ (∀ row ∈ rows, row.runId ≠ run.id) ∨
      (∀ row ∈ rows, row.runId = run.id) ∧ ∃ rt summary,
        event.action = .evaluateRun rt run.id ∧ run.summaryMetrics = some summary ∧
          c'.database.recount rt.floats run rows = .ok summary

end Corpus

namespace EvalDatabase

variable {rt : EvalRuntime K} {db db' : EvalDatabase K} {run : EvalRun K}
  {rows : List (EvalResult K)} {row : EvalResult K}

theorem Keeps.measured (h : db.Keeps db') (hrow : db.Measured rt row) : db'.Measured rt row := by
  obtain ⟨run, hrun, hid, topK, htopK, case, hcase, hcaseId, hbelongs, hits, known, hmeasures,
    hmissed⟩ := hrow
  obtain ⟨run', hrun', hid', hdataset, _, hconfig⟩ := h.runs run hrun
  obtain ⟨kept, hkept, heq⟩ := h.cases case hcase
  have hexpected : kept.expectedChunkIds = case.expectedChunkIds := by rw [← heq]
  have hmetrics := hmeasures.metrics
  have hattribution := hmeasures.attribution
  rw [← hexpected] at hmetrics hattribution
  refine ⟨run', hrun', hid'.trans hid, topK, hconfig ▸ htopK, kept, hkept,
    (congrArg EvalCase.id heq).trans hcaseId,
    (congrArg EvalCase.datasetId heq).trans (hbelongs.trans hdataset.symm), hits, known, ?_,
    hmissed⟩
  exact { hmeasures with
    metrics := hmetrics
    attribution := hattribution }

omit [Field K] [LinearOrder K] in
theorem Keeps.outcomes (h : db.Keeps db')
    (hrows : ∀ row ∈ rows, ∃ case ∈ db.cases, case.id = row.caseId) :
    db'.outcomes rows = db.outcomes rows := by
  refine List.filterMap_congr fun row hrow => ?_
  obtain ⟨case, hcase, hid⟩ := hrows row hrow
  obtain ⟨kept, hkept, heq⟩ := h.cases case hcase
  have hfound : db.cases.get? row.caseId = some case := Table.get?_eq_some_iff.mpr ⟨hcase, hid⟩
  have hfound' : db'.cases.get? row.caseId = some kept :=
    Table.get?_eq_some_iff.mpr ⟨hkept, (congrArg EvalCase.id heq).trans hid⟩
  have hsource : kept.source = case.source := by rw [← heq]
  rw [hfound, hfound', Option.map_some, Option.map_some, EvalResult.outcome, EvalResult.outcome,
    hsource]

theorem Keeps.recount (h : db.Keeps db') (floats : FloatArithmetic K)
    (hrows : ∀ row ∈ rows, ∃ rt, db.Measured rt row) :
    db'.recount floats run rows = db.recount floats run rows := by
  rw [EvalDatabase.recount, EvalDatabase.recount, h.outcomes]
  intro row hrow
  obtain ⟨_, _, _, _, _, _, case, hcase, hid, _⟩ := hrows row hrow
  exact ⟨case, hcase, hid⟩

end EvalDatabase

namespace Corpus

variable {stream : Nat} {event : EvalEvent K} {events : List (EvalEvent K)} {c c' : Corpus K}
  {rows : List (EvalResult K)}

omit [Field K] [LinearOrder K] in
theorem deliveries_concat (events : List (EvalEvent K)) (event : EvalEvent K) (runId : Uuid) :
    deliveries (events ++ [event]) runId =
      deliveries events runId + if event.action.Delivers runId then 1 else 0 := by
  rw [deliveries, List.countP_append, List.countP_singleton, deliveries]
  simp

theorem Recounted.undelivered (h : c.Recounted events) {runId : Uuid}
    (hnone : deliveries events runId = 0) : c.database.resultsOf runId = [] := by
  refine List.filter_eq_nil_iff.mpr fun row hrow hid => ?_
  obtain ⟨rt, ⟨event, hevent, haction⟩, _⟩ := h.traced row hrow
  have hnot := List.countP_eq_zero.mp hnone event hevent
  rw [haction] at hnot
  exact hnot (decide_eq_true (of_decide_eq_true hid))

theorem Recounted.extend (h : c.Recounted events) (hextends : Extends event rows c c') :
    c'.Recounted (events ++ [event]) := by
  have hsplit (runId : Uuid) : c'.database.resultsOf runId =
      c.database.resultsOf runId ++ rows.filter (·.runId = runId) := by
    rw [resultsOf, hextends.results, List.filter_append, resultsOf]
  refine ⟨fun row hrow => ?_, fun run hrun hcompleted => ?_⟩
  · rw [Table.mem_def, hextends.results, List.mem_append] at hrow
    rcases hrow with hold | hnew
    · obtain ⟨rt, ⟨earlier, hearlier, haction⟩, hmeasured⟩ := h.traced row hold
      exact ⟨rt, ⟨earlier, List.mem_append_left _ hearlier, haction⟩,
        hextends.keeps.measured hmeasured⟩
    · obtain ⟨rt, haction, hmeasured⟩ := hextends.traced row hnew
      exact ⟨rt, ⟨event, List.mem_append_right _ (List.mem_singleton_self event), haction⟩,
        hmeasured⟩
  · rw [hsplit, deliveries_concat]
    rcases hextends.completed run hrun hcompleted with
      ⟨hold, hother⟩ | ⟨hmine, rt, summary, haction, hsummary, hrecount⟩
    · obtain ⟨rt, summary, reported, ⟨earlier, hearlier, haction⟩, hsummary, hsuffix, hrecount,
        honce⟩ := h.reported run hold hcompleted
      have hnone : rows.filter (·.runId = run.id) = [] :=
        List.filter_eq_nil_iff.mpr fun row hrow hid => hother row hrow (of_decide_eq_true hid)
      rw [hnone, List.append_nil]
      refine ⟨rt, summary, reported, ⟨earlier, List.mem_append_left _ hearlier, haction⟩, hsummary,
        hsuffix, ?_, fun hle => honce (by omega)⟩
      rw [hextends.keeps.recount, hrecount]
      intro row hrow
      have hstored : row ∈ c.database.results := (List.mem_filter.mp (hsuffix.mem hrow)).1
      obtain ⟨rt, _, hmeasured⟩ := h.traced row hstored
      exact ⟨rt, hmeasured⟩
    · have hall : rows.filter (·.runId = run.id) = rows :=
        List.filter_eq_self.mpr fun row hrow => decide_eq_true (hmine row hrow)
      have hdelivers : event.action.Delivers run.id := by
        rw [haction]
        rfl
      rw [hall, if_pos hdelivers]
      refine ⟨rt, summary, rows, ⟨event, List.mem_append_right _ (List.mem_singleton_self event),
        haction⟩, hsummary, List.suffix_append _ _, hrecount, fun hle => ?_⟩
      rw [h.undelivered (by omega), List.nil_append]

theorem Silent.extends (h : c.Silent c') (hkeeps : c.database.Keeps c'.database) :
    Extends event [] c c' where
  keeps := hkeeps
  results := (congrArg Table.rows h.results).trans (List.append_nil _).symm
  traced _ hrow := absurd hrow List.not_mem_nil
  completed run hrun hcompleted :=
    Or.inl ⟨h.completed run hrun hcompleted, fun _ hrow => absurd hrow List.not_mem_nil⟩

theorem evaluateRun_extends {rt : EvalRuntime K} {runId : Uuid}
    (haction : event.action = .evaluateRun rt runId)
    (hkeeps : c.database.Keeps (execEval (evaluateRun rt runId) c.database.connect).2.database) :
    ∃ rows, Extends event rows c
      (c.commit event.now (execEval (evaluateRun rt runId) c.database.connect).2.database) := by
  cases hget : c.database.runs.get? runId with
  | none =>
    rw [evaluateRun_absent hget]
    exact ⟨[], Silent.extends (.of_runs rfl rfl) (.refl _)⟩
  | some run =>
    obtain ⟨hrun, rfl⟩ := Table.get?_eq_some_iff.mp hget
    obtain ⟨run', rows, hrewrites, hended⟩ := evaluateRun_rewrites rt hrun
    rcases hended with ⟨rfl, hended⟩ | ⟨summary, hsummary, hreported⟩
    · refine ⟨[], Silent.extends ⟨?_, fun x hx hcompleted => ?_⟩ hkeeps⟩
      · exact Table.ext (hrewrites.results.trans (List.append_nil _))
      · rcases (hrewrites.runs x).mp hx with rfl | ⟨hold, _⟩
        · rcases hended with rfl | hended
          · exact hrun
          · exact absurd hcompleted hended
        · exact hold
    · obtain ⟨topK, htopK, hmeasured⟩ := hreported.measured
      refine ⟨rows, hkeeps, hrewrites.results, fun row hrow => ?_, fun x hx hcompleted => ?_⟩
      · obtain ⟨hid, case, hcase, hcaseId, hbelongs, hits, known, hmeasures⟩ := hmeasured row hrow
        refine ⟨rt, ?_, run', hrewrites.mem, hid.symm, topK, htopK, case, hcase, hcaseId, hbelongs,
          hits, known, hmeasures, hmeasures.missed_iff⟩
        rw [hid, hrewrites.amends.id]
        exact haction
      · rcases (hrewrites.runs x).mp hx with rfl | ⟨hold, hne⟩
        · refine Or.inr ⟨fun row hrow => (hmeasured row hrow).1, rt, summary, ?_, hsummary,
            hreported.recounted⟩
          rw [haction, hrewrites.amends.id]
        · refine Or.inl ⟨hold, fun row hrow hid => hne ?_⟩
          rw [← hid, (hmeasured row hrow).1, hrewrites.amends.id]

theorem step_extends (hsettled : c.Settled stream) (event : EvalEvent K) :
    ∃ rows, Extends event rows c (event.step stream c).2 := by
  have hkeeps := ((step_changes hsettled.1 hsettled.2 event).keeps hsettled.2).database
  by_cases hdelivers : ∃ rt runId, event.action = .evaluateRun rt runId
  · obtain ⟨rt, runId, haction⟩ := hdelivers
    have hstep : (event.step stream c).2 = c.commit event.now
        (execEval (evaluateRun rt runId) c.database.connect).2.database := by
      rw [EvalEvent.step, haction]
    rw [hstep] at hkeeps ⊢
    exact evaluateRun_extends haction hkeeps
  · push Not at hdelivers
    exact ⟨[], (silent_step hdelivers).extends hkeeps⟩

theorem after_concat (knowledge : Database) (events : List (EvalEvent K)) (event : EvalEvent K) :
    (empty knowledge).after (events ++ [event]) =
      (event.step events.length ((empty knowledge).after events)).2 := by
  rw [after, List.map_append, Projection.play_append, List.length_map, Nat.zero_add, after]
  rfl

theorem reports_recount (knowledge : Database) (events : List (EvalEvent K)) :
    ((empty knowledge).after events).Recounted events := by
  induction events using List.reverseRecOn with
  | nil =>
    exact ⟨fun _ hrow => absurd hrow (Table.not_mem_empty _),
      fun _ hrun => absurd hrun (Table.not_mem_empty _)⟩
  | append_singleton events event ih =>
    rw [after_concat]
    obtain ⟨rows, hextends⟩ := step_extends (settled_after knowledge events) event
    exact ih.extend hextends

end Corpus

end Reports

end YCStudio
