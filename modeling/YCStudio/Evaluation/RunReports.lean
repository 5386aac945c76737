import YCStudio.Api.Searches
import YCStudio.Evaluation.RunHistory

namespace YCStudio

open EvalDatabase

section Rows

variable {K : Type}

def EvalResult.metrics (row : EvalResult K) : RetrievalMetrics K where
  «recall» := row.recallAtK
  mrr := row.mrr
  ndcg := row.ndcgAtK
  hitPositions := row.hitPositions

def EvalResult.outcome (row : EvalResult K) (case : EvalCase) : CaseOutcome K where
  caseId := row.caseId
  source := case.source
  metrics := row.metrics
  attribution := row.attribution
  latencyMs := row.latencyMs
  errorMessage := row.errorMessage

def EvalDatabase.outcomes (db : EvalDatabase K) (rows : List (EvalResult K)) :
    List (CaseOutcome K) :=
  rows.filterMap fun row => (db.cases.get? row.caseId).map row.outcome

def EvalDatabase.recount [Field K] [LinearOrder K] (floats : FloatArithmetic K)
    (db : EvalDatabase K) (run : EvalRun K) (rows : List (EvalResult K)) :
    Except PyException (RunSummary K) :=
  summarizeOutcomes floats (db.outcomes rows) run.configSnapshot

def AttributionLabel.Missed (label : AttributionLabel) : Prop :=
  label = .notInKb ∨ label = .notRecalled

variable [Field K] [LinearOrder K]

structure EvalResult.Measures (rt : EvalRuntime K) (topK : Int) (case : EvalCase)
    (row : EvalResult K) (hits : List EvaluationHit) (knownChunkIds : List Str) : Prop where
  chunkIds : row.retrievedChunkIds = hits.map (·.chunkId.str)
  documentIds : row.retrievedDocumentIds = hits.map (·.documentId.str)
  scores : row.retrievedScores = hits.map EvaluationHit.score
  length : hits.length ≤ topK.toNat
  distinct : (hits.map EvaluationHit.chunkId).Nodup
  sorted : hits.Pairwise fun a b => b.score ≤ a.score
  bounds : ∀ hit ∈ hits, 0 ≤ hit.score ∧ hit.score ≤ 1
  known : ∀ hit ∈ hits, hit.chunkId.str ∈ knownChunkIds
  metrics : row.metrics =
    evaluateRetrieval rt.log2 row.retrievedChunkIds case.expectedChunkIds topK
  attribution : row.attribution = classifyAttribution case.expectedChunkIds hits knownChunkIds
  failed : row.errorMessage ≠ none → hits = []

omit [Field K] [LinearOrder K] in
theorem hits_of_rankedRows (encoder : Retriever) (queryVector : Embedding)
    (db : Database) (user : Uuid) (k : Nat) :
    let hits := ((rankedRows encoder db user queryVector).take k).map
      (SearchRow.hit encoder queryVector)
    hits.length ≤ k ∧ (hits.map EvaluationHit.chunkId).Nodup ∧
      (hits.Pairwise fun a b => b.score ≤ a.score) ∧
      (∀ hit ∈ hits, 0 ≤ hit.score ∧ hit.score ≤ 1) ∧
      ∀ hit ∈ hits, hit.chunkId.str ∈ visibleSearchableChunkIds db user := by
  have hranks := @rankedRows_ranks encoder db user queryVector
  refine ⟨?_, ?_, ?_, ?_, ?_⟩
  · rw [List.length_map]
    exact List.length_take_le _ _
  · have hnodup := (hranks.perm.map fun row => row.chunk.id).nodup_iff.mpr
      ((nodup_joined db).sublist (List.filter_sublist.map _))
    rw [List.map_map]
    exact hnodup.sublist ((List.take_sublist _ _).map _)
  · rw [List.pairwise_map]
    exact (hranks.sorted.sublist (List.take_sublist _ _)).imp cosineDistanceToScore_anti
  · rw [List.forall_mem_map]
    exact fun row _ => cosineDistanceToScore_bounds _
  · rw [List.forall_mem_map]
    intro row hrow
    exact List.mem_map_of_mem (f := fun row : SearchRow => row.chunk.id.str)
      (mem_rankedRows.mp (List.mem_of_mem_take hrow))

variable {rt : EvalRuntime K} {db db' db'' : EvalDatabase K} {run run' run'' : EvalRun K}

omit [Field K] [LinearOrder K] in
theorem retrieval_measures (knowledge : Database) {topK : Int} {case : EvalCase} {user : Uuid}
    (hserved : (evaluationRetriever rt user case topK).Served) :
    let attempted : Attempted :=
      .ofOutcome ((evaluationRetriever rt user case topK).outcome knowledge)
    attempted.retrieved = [] ∨ attempted.errorMessage = none ∧ 0 ≤ topK ∧
      ∃ queryVector, attempted.retrieved =
        ((rankedRows rt.encoder knowledge user queryVector).take topK.toNat).map
          (SearchRow.hit rt.encoder queryVector) := by
  intro attempted
  cases hquery : rt.encoder.embedQuery case.query with
  | error e =>
    have hraised : evaluationRetriever rt user case topK = .raised e.python := by
      rw [evaluationRetriever, hquery]
    left
    simp only [attempted, hraised]
    rfl
  | ok queryVector =>
    right
    have hnonneg : 0 ≤ topK := by
      by_contra hneg
      rw [evaluationRetriever, hquery, if_pos (not_le.mp hneg)] at hserved
      exact hserved
    rw [evaluationRetriever, hquery, if_neg hnonneg.not_gt] at hserved
    cases hfault : rt.retrievalFault case with
    | some e =>
      rw [hfault] at hserved
      exact hserved.elim
    | none =>
      have hretrieved : retrieveForEvaluation rt.encoder knowledge user case.query topK.toNat =
          .ok _ := retrieveForEvaluation_eq hquery topK.toNat
      rw [Int.toNat_of_nonneg hnonneg] at hretrieved
      have hattempted : attempted = .ofOutcome (.ok
          (((rankedRows rt.encoder knowledge user queryVector).take topK.toNat).map
            (SearchRow.hit rt.encoder queryVector))) := by
        simp only [attempted, evaluationRetriever, hquery, if_neg hnonneg.not_gt, hfault]
        exact congrArg (fun result => Attempted.ofOutcome (result.mapError Exn.python)) hretrieved
      rw [hattempted]
      exact ⟨rfl, hnonneg, queryVector, rfl⟩

theorem resultOf_measures {topK : Int} {case : EvalCase}
    (hserved : (evaluationRetriever rt run.userId case topK).Served) :
    ∃ hits, (resultOf rt (evaluationRetriever rt run.userId) db run topK
      (visibleSearchableChunkIds db.knowledge run.userId) case).Measures rt topK case hits
        (visibleSearchableChunkIds db.knowledge run.userId) := by
  refine ⟨(attemptOf (evaluationRetriever rt run.userId) db topK case).retrieved, ?_⟩
  rcases retrieval_measures db.knowledge hserved with hnone | ⟨hclean, _, queryVector, hsome⟩
  · change (attemptOf (evaluationRetriever rt run.userId) db topK case).retrieved = [] at hnone
    refine ⟨rfl, rfl, rfl, ?_, ?_, ?_, ?_, ?_, rfl, rfl, fun _ => hnone⟩
    all_goals rw [hnone]; simp
  · change (attemptOf (evaluationRetriever rt run.userId) db topK case).retrieved = _ at hsome
    obtain ⟨hlength, hdistinct, hsorted, hbounds, hknown⟩ :=
      hits_of_rankedRows rt.encoder queryVector db.knowledge run.userId topK.toNat
    refine ⟨rfl, rfl, rfl, ?_, ?_, ?_, ?_, ?_, rfl, rfl, fun herror => absurd hclean herror⟩
    all_goals rw [hsome]; assumption

theorem hitRanks_of_length {expectedIds : List Str} {hits : List EvaluationHit} {topK : Int}
    (hlength : hits.length ≤ topK.toNat) :
    hitRanks expectedIds hits = relevantPositions (hits.map (·.chunkId.str)) expectedIds topK := by
  by_cases hnonneg : 0 ≤ topK
  · exact hitRanks_eq hnonneg (by omega)
  · have hnone : hits = [] := List.eq_nil_of_length_eq_zero (by omega)
    rw [hnone, relevantPositions, sliceTo, List.map_nil, List.take_nil]
    rfl

theorem Classifies.missed_iff {expectedIds knownChunkIds : List Str} {hits : List EvaluationHit}
    {label : AttributionLabel} (h : Classifies expectedIds hits knownChunkIds label)
    (hknown : ∀ hit ∈ hits, hit.chunkId.str ∈ knownChunkIds) :
    label.Missed ↔ hitRanks expectedIds hits = [] := by
  cases h with
  | notInKb hnone =>
    exact iff_of_true (Or.inl rfl) (Ranking.ranksFrom_eq_nil_iff.mpr fun hit hhit hid =>
      hnone _ hid (hknown hit hhit))
  | notRecalled hid hmem hranks => exact iff_of_true (Or.inr rfl) hranks
  | ambiguous hid hmem hranks => simp [AttributionLabel.Missed, hranks]
  | lowRank hid hmem hranks hlow => simp [AttributionLabel.Missed, hranks]
  | hit hid hmem hranks hhigh => simp [AttributionLabel.Missed, hranks]

theorem EvalResult.Measures.missed_iff {topK : Int} {case : EvalCase} {row : EvalResult K}
    {hits : List EvaluationHit} {knownChunkIds : List Str}
    (h : row.Measures rt topK case hits knownChunkIds) :
    row.attribution.Missed ↔ row.hitPositions = [] := by
  have hpositions : row.hitPositions = hitRanks case.expectedChunkIds hits := by
    rw [hitRanks_of_length h.length, ← h.chunkIds]
    exact congrArg RetrievalMetrics.hitPositions h.metrics
  rw [hpositions, h.attribution]
  exact (classifyAttribution_classifies case.expectedChunkIds hits knownChunkIds).missed_iff h.known

end Rows

section Rewrites

variable {K : Type} {db db' db'' : EvalDatabase K} {run run' run'' : EvalRun K}
  {rows rows' : List (EvalResult K)}

structure EvalDatabase.Rewrites (db : EvalDatabase K) (run run' : EvalRun K)
    (rows : List (EvalResult K)) (db' : EvalDatabase K) : Prop where
  amends : run.Amends run'
  runs : ∀ x, x ∈ db'.runs ↔ x = run' ∨ (x ∈ db.runs ∧ x.id ≠ run.id)
  results : db'.results.rows = db.results.rows ++ rows
  cases : db'.cases = db.cases

theorem EvalDatabase.Rewrites.refl (hrun : run ∈ db.runs) : db.Rewrites run run [] db where
  amends := ⟨rfl, rfl, rfl, rfl⟩
  runs x := by
    constructor
    · intro hx
      by_cases hid : x.id = run.id
      · exact Or.inl (Table.eq_of_key_eq hx hrun hid)
      · exact Or.inr ⟨hx, hid⟩
    · rintro (rfl | ⟨hx, _⟩)
      · exact hrun
      · exact hx
  results := (List.append_nil _).symm
  cases := rfl

theorem EvalDatabase.Rewrites.trans (h : db.Rewrites run run' rows db')
    (h' : db'.Rewrites run' run'' rows' db'') : db.Rewrites run run'' (rows ++ rows') db'' where
  amends := ⟨h'.amends.id.trans h.amends.id, h'.amends.datasetId.trans h.amends.datasetId,
    h'.amends.userId.trans h.amends.userId, h'.amends.configSnapshot.trans h.amends.configSnapshot⟩
  runs x := by
    rw [h'.runs, h.runs, h.amends.id]
    constructor
    · rintro (hx | ⟨rfl | hx, hne⟩)
      · exact Or.inl hx
      · exact absurd h.amends.id hne
      · exact Or.inr hx
    · rintro (hx | ⟨hx, hne⟩)
      · exact Or.inl hx
      · exact Or.inr ⟨Or.inr ⟨hx, hne⟩, hne⟩
  results := by rw [h'.results, h.results, List.append_assoc]
  cases := h'.cases.trans h.cases

theorem EvalDatabase.Rewrites.mem (h : db.Rewrites run run' rows db') : run' ∈ db'.runs :=
  (h.runs run').mpr (Or.inl rfl)

theorem EvalDatabase.Commits.rewrites [DecidableEq K] (h : db.Commits ⟨run, run'⟩ rows db')
    (hrun : run ∈ db.runs) (hamends : run.Amends run')
    (hresults : db'.results.rows = db.results.rows ++ rows) : db.Rewrites run run' rows db' := by
  have hpatch : run.patch (run.changes run') = run' := EvalRun.patch_changes hamends.id
    hamends.datasetId hamends.userId hamends.configSnapshot
  refine ⟨hamends, fun x => ?_, hresults, h.cases⟩
  rw [h.mem_runs, hamends.id]
  constructor
  · rintro ⟨old, hold, rfl⟩
    split
    case isTrue hid =>
      rw [Table.eq_of_key_eq hold hrun hid, hpatch]
      exact Or.inl rfl
    case isFalse hid => exact Or.inr ⟨hold, hid⟩
  · rintro (rfl | ⟨hx, hne⟩)
    · exact ⟨run, hrun, by rw [if_pos rfl, hpatch]⟩
    · exact ⟨x, hx, if_neg hne⟩

end Rewrites

section Deliveries

variable {K : Type} [Field K] [LinearOrder K] {rt : EvalRuntime K} {db db' : EvalDatabase K}
  {run run' : EvalRun K} {rows : List (EvalResult K)} {w w' : EvalWorld K}

structure EvalDatabase.Reported (rt : EvalRuntime K) (db : EvalDatabase K) (run : EvalRun K)
    (rows : List (EvalResult K)) (summary : RunSummary K) : Prop where
  measured : ∃ topK, configTopK run.configSnapshot = .ok topK ∧ ∀ row ∈ rows,
    row.runId = run.id ∧ ∃ case ∈ db.cases, case.id = row.caseId ∧
      case.datasetId = run.datasetId ∧ ∃ hits knownChunkIds,
        row.Measures rt topK case hits knownChunkIds
  recounted : db.recount rt.floats run rows = .ok summary

theorem summarized_of_ok {summary : RunSummary K} {topK : Int}
    (htopK : configTopK run.configSnapshot = .ok topK)
    (h : execEval (concludeEvaluation rt none run)
      (EvalWorld.during db (run.started rt) [] []) = (.ok summary, w')) :
    summarizeOutcomes rt.floats ((db.activeCases run.datasetId).map
      (outcomeOf rt (evaluationRetriever rt run.userId) db topK
        (visibleSearchableChunkIds db.knowledge run.userId))) run.configSnapshot = .ok summary := by
  have hconcludable := concludable_of_ok h
  obtain ⟨topK', htopK', hcases⟩ := hconcludable.evaluable
  cases htopK.symm.trans htopK'
  have hstorable : Storable db.results ([] ++ [] ++ (db.activeCases run.datasetId).map
      (resultOf rt (run.actualRetriever rt none) db (run.started rt) topK
        (visibleSearchableChunkIds db.knowledge run.userId))) := hconcludable.storable htopK
  obtain ⟨topK₁, w₁, hread, h⟩ := Script.bind_ran_ok h
  obtain ⟨hreadable, rfl⟩ := Prod.mk.inj hread
  cases hreadable.symm.trans htopK
  obtain ⟨cases, w₂, hselected, h⟩ := Script.bind_ran_ok h
  obtain ⟨_, rfl, rfl⟩ := select_during_ok hselected
  obtain ⟨knowledge, w₃, hknowledge, h⟩ := Script.bind_ran_ok h
  obtain ⟨_, rfl, rfl⟩ := select_during_ok hknowledge
  obtain ⟨outcomes, w₄, hran, h⟩ := Script.bind_ran_ok h
  obtain ⟨sent, pending, _, hran'⟩ := evaluateCases_during
    (fun case hcase => (hcases case hcase).served) hstorable
  cases hran'.symm.trans hran
  obtain ⟨summary', w₅, hsummary, h⟩ := Script.bind_ran_ok h
  obtain ⟨hsummarized, rfl⟩ := Prod.mk.inj hsummary
  obtain ⟨_, w₆, hassign, h⟩ := Script.bind_ran_ok h
  obtain ⟨_, w₇, hcommit, h⟩ := Script.bind_ran_ok h
  cases h
  exact hsummarized

theorem outcomes_rowsAt (topK : Int) :
    db.outcomes (run.rowsAt rt none db topK) = (db.activeCases run.datasetId).map
      (outcomeOf rt (evaluationRetriever rt run.userId) db topK
        (visibleSearchableChunkIds db.knowledge run.userId)) := by
  have hfiled : ∀ case ∈ db.activeCases run.datasetId, case ∈ db.cases := fun case hcase =>
    (List.mem_filter.mp ((List.mem_insertionSort _).mp hcase)).1
  rw [outcomes, EvalRun.rowsAt, List.filterMap_map]
  refine List.filterMap_eq_map_iff_forall_eq_some.mpr fun case hcase => ?_
  have hfound : db.cases.get? case.id = some case := Table.get?_key (hfiled case hcase)
  exact congrArg (Option.map _) hfound

theorem concludeEvaluation_reported {summary : RunSummary K}
    (h : execEval (concludeEvaluation rt none run)
      (EvalWorld.during db (run.started rt) [] []) = (.ok summary, w')) :
    ∃ rows, db.Commits ⟨run.started rt, (run.started rt).finished rt summary⟩ rows w'.database ∧
      w'.database.results.rows = db.results.rows ++ rows ∧ db.Reported rt run rows summary := by
  have hconcludable := concludable_of_ok h
  obtain ⟨topK, summary', db', htopK, _, hcommits, hexec⟩ := concludeEvaluation_ok hconcludable
  cases hexec.symm.trans h
  refine ⟨run.rowsAt rt none db topK, hcommits, ?_, ⟨topK, htopK, fun row hrow => ?_⟩, ?_⟩
  · exact (congrArg Table.rows hcommits.results).trans
      (hconcludable.storable htopK).rows_insertAll
  · obtain ⟨case, hcase, rfl⟩ := List.mem_map.mp hrow
    obtain ⟨hfiled, hbelongs⟩ := List.mem_filter.mp ((List.mem_insertionSort _).mp hcase)
    obtain ⟨topK', htopK', hcases⟩ := hconcludable.evaluable
    cases htopK.symm.trans htopK'
    exact ⟨rfl, case, hfiled, rfl, (of_decide_eq_true hbelongs).1, _, _,
      (resultOf_measures (hcases case hcase).served).choose_spec⟩
  · rw [recount, outcomes_rowsAt]
    exact summarized_of_ok htopK h

omit [Field K] in
theorem markFailed_rewrites (rt : EvalRuntime K) (message : Str) (hrun : run ∈ db.runs) :
    ∃ run', db.Rewrites run run' []
      (execEval (markFailed rt message) (EvalWorld.during db run [] [])).2.database ∧
        (run' = run ∨ run'.status ≠ .completed) := by
  rcases markFailed_cases rt message db run with hcommits | hsame
  · have hresults := congrArg Table.rows hcommits.results
    exact ⟨_, hcommits.rewrites hrun ⟨rfl, rfl, rfl, rfl⟩ (hresults.trans (List.append_nil _).symm),
      Or.inr nofun⟩
  · rw [hsame]
    exact ⟨run, .refl hrun, Or.inl rfl⟩

theorem raised_rewrites (hrun : run ∈ db.runs) (session : EvalSession K) (error : PyException)
    (n : Nat) :
    ∃ run', db.Rewrites run run' []
      (Party.advanceAll (n + 2) (some ⟨rt, run.id, session, .raised error⟩, db)) ∧
        (run' = run ∨ run'.status ≠ .completed) := by
  rw [Party.advanceAll, Party.advance]
  dsimp only
  rcases reloadRun_cases rt hrun session with hran | ⟨e, w, hran, hsame⟩
  · rw [Party.follow_ok hran, Option.map_some, Option.map_some, Party.advanceAll, Party.advance]
    dsimp only
    rw [Party.follow_none]
    cases n <;> exact markFailed_rewrites _ _ hrun
  · rw [Party.follow_error hran, hsame]
    exact ⟨run, .refl hrun, Or.inl rfl⟩

theorem EvalDatabase.Reported.congr {summary : RunSummary K}
    (h : db.Reported rt run rows summary) (hcases : db'.cases = db.cases)
    (hamends : run.Amends run') : db'.Reported rt run' rows summary where
  measured := by
    rw [hamends.configSnapshot, hamends.id, hamends.datasetId, hcases]
    exact h.measured
  recounted := by
    rw [recount, outcomes, hamends.configSnapshot, hcases]
    exact h.recounted

theorem evaluateRun_rewrites (rt : EvalRuntime K) (hrun : run ∈ db.runs) :
    let db' := (execEval (evaluateRun rt run.id) db.connect).2.database
    ∃ run' rows, db.Rewrites run run' rows db' ∧
      (rows = [] ∧ (run' = run ∨ run'.status ≠ .completed) ∨
        ∃ summary, run'.summaryMetrics = some summary ∧ db'.Reported rt run' rows summary) := by
  intro db'
  have hplayed : db' = Party.advanceAll 5 (some (.deliver rt run.id), db) :=
    evaluateRun_eq_advanceAll rt run.id db
  rw [hplayed, Party.advanceAll, Party.advance, Party.deliver]
  dsimp only
  rcases hfind : execEval (findRun rt run.id) db.connect with ⟨e | found, w⟩
  · have hsame := database_unchanged (asks_findRun rt run.id) db.connect
    rw [hfind] at hsame
    rw [Party.follow_error hfind, hsame]
    obtain ⟨run', hrewrites, hended⟩ := raised_rewrites hrun w.session e 2
    exact ⟨run', [], hrewrites, Or.inl ⟨rfl, hended⟩⟩
  · obtain ⟨_, rfl, rfl⟩ := findRun_ok hrun hfind
    rw [Party.follow_ok hfind, Option.map_some, Party.advanceAll, Party.advance]
    dsimp only
    rcases markRunning_cases rt db found with ⟨db₁, hcommits, hran⟩ | ⟨e, w, hran, hsame⟩
    · rw [Party.follow_ok hran, Option.map_some, Party.advanceAll, Party.advance]
      dsimp only
      have hstart := hcommits.rewrites hrun started_amends
        ((congrArg Table.rows hcommits.results).trans (List.append_nil _).symm)
      rcases hconclude : execEval (concludeEvaluation rt none found)
          (EvalWorld.during db₁ (found.started rt) [] []) with ⟨e | summary, w⟩
      · have hsame : w.database = db₁ := concludeEvaluation_failsClean none found _ _ _ hconclude
        rw [Party.follow_error hconclude, hsame]
        obtain ⟨run', hrewrites, hended⟩ := raised_rewrites hstart.mem w.session e 0
        refine ⟨run', [], hstart.trans hrewrites, Or.inl ⟨rfl, Or.inr ?_⟩⟩
        rcases hended with rfl | hended
        · intro hended
          cases hended
        · exact hended
      · rw [Party.follow_ok hconclude]
        obtain ⟨rows, hcommits', hresults, hreported⟩ := concludeEvaluation_reported hconclude
        have hfinish := hcommits'.rewrites hstart.mem (finished_amends summary) hresults
        refine ⟨_, rows, hstart.trans hfinish, Or.inr ⟨summary, rfl, ?_⟩⟩
        exact hreported.congr hcommits'.cases (hstart.trans hfinish).amends
    · rw [Party.follow_error hran, hsame]
      obtain ⟨run', hrewrites, hended⟩ := raised_rewrites hrun w.session e 1
      exact ⟨run', [], hrewrites, Or.inl ⟨rfl, hended⟩⟩

end Deliveries

end YCStudio
