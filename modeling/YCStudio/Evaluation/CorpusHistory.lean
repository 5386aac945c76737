import Mathlib.Algebra.Order.Field.Basic
import YCStudio.Evaluation.CorpusChanges

namespace YCStudio

open EvalDatabase

section Rate

variable (responses : List EvalCaseResponse)

theorem DatasetStats.tally_le :
    (DatasetStats.tally responses).syntheticActive ≤ (DatasetStats.tally responses).syntheticTotal ∧
      (DatasetStats.tally responses).syntheticTotal ≤ (DatasetStats.tally responses).total := by
  refine ⟨List.countP_mono_left fun row _ h => ?_, List.countP_le_length⟩
  exact decide_eq_true (of_decide_eq_true h).1

theorem DatasetStats.rate_bounds : 0 ≤ (DatasetStats.tally responses).syntheticRetentionRate ∧
    (DatasetStats.tally responses).syntheticRetentionRate ≤ 100 := by
  have hle := (DatasetStats.tally_le responses).1
  rw [syntheticRetentionRate]
  split
  · exact ⟨le_refl 0, by norm_num⟩
  next htotal =>
    have hpos : (0 : Rat) < (DatasetStats.tally responses).syntheticTotal :=
      Nat.cast_pos.mpr (Nat.pos_of_ne_zero htotal)
    have hratio : ((DatasetStats.tally responses).syntheticActive : Rat) /
        (DatasetStats.tally responses).syntheticTotal ≤ 1 :=
      (div_le_one hpos).mpr (Nat.cast_le.mpr hle)
    refine ⟨by positivity, ?_⟩
    linarith

end Rate

namespace Corpus

variable {K : Type}

def casesInOrder (c : Corpus K) (datasetId : Uuid) : List ReviewedCase :=
  ((c.database.casesOf datasetId).insertionSort fun a b =>
    a.createdAt < b.createdAt ∨ (a.createdAt = b.createdAt ∧ a.id.le b.id = true)).map c.reviewed

theorem listEvalCases_owned {c : Corpus K} {userId datasetId : Uuid} {dataset : EvalDataset}
    (h : ownedDataset c.database.datasets datasetId userId = .ok dataset) :
    c.listEvalCases userId datasetId =
      ((c.casesInOrder datasetId).mapM caseResponse).map .cases := by
  rw [listEvalCases, h, casesInOrder, List.mapM_map]
  rfl

structure Presents (c : Corpus K) (dataset : EvalDataset) (responses : List EvalCaseResponse) :
    Prop where
  announced : ∃ listed, c.listEvalDatasets dataset.userId = .datasets listed ∧
    c.datasetResponse dataset ∈ listed
  listed : c.listEvalCases dataset.userId dataset.id = .ok (.cases responses)
  shows : List.Forall₂ EvalCaseResponse.Shows responses (c.casesInOrder dataset.id)
  stats : (c.datasetResponse dataset).stats = .tally responses
  caseCount : (c.datasetResponse dataset).caseCount = responses.countP (·.isActive)
  stored : dataset.caseCount = responses.countP (·.isActive)
  rate : 0 ≤ (c.datasetResponse dataset).syntheticRetentionRate ∧
    (c.datasetResponse dataset).syntheticRetentionRate ≤ 100

theorem keys_of_shows {responses : List EvalCaseResponse} {rows : List ReviewedCase}
    (h : List.Forall₂ EvalCaseResponse.Shows responses rows) :
    responses.map (fun response => (response.source.value, response.isActive)) =
      rows.map fun row => (row.source, row.isActive) := by
  induction h with
  | nil => rfl
  | cons hrow _ ih => rw [List.map_cons, List.map_cons, ih, hrow.source, hrow.isActive]

theorem presents_of_sound {c : Corpus K} (h : c.database.Sound) {dataset : EvalDataset}
    (hdataset : dataset ∈ c.database.datasets) : ∃ responses, c.Presents dataset responses := by
  have hlegible : ∀ row ∈ c.casesInOrder dataset.id, row.Legible := by
    intro row hrow
    obtain ⟨case, hcase, rfl⟩ := List.mem_map.mp hrow
    rw [List.mem_insertionSort, casesOf, List.mem_filter] at hcase
    exact h.legible case hcase.1
  obtain ⟨responses, hresponses⟩ := Except.exists_mapM_iff.mpr fun row hrow =>
    (hlegible row hrow).shown.imp fun _ h => h.1
  have hshows : List.Forall₂ EvalCaseResponse.Shows responses (c.casesInOrder dataset.id) := by
    have hrows := (List.forall₂_and_left _ _).mpr ⟨hlegible, Except.forall₂_of_mapM hresponses⟩
    refine List.Forall₂.flip (hrows.imp fun row response hrow => ?_)
    obtain ⟨shown, hshown, h⟩ := hrow.1.shown
    cases hshown.symm.trans hrow.2
    exact h
  have howned : ownedDataset c.database.datasets dataset.id dataset.userId = .ok dataset := by
    rw [ownedDataset, Table.get?_key hdataset]
    exact if_neg (not_not.mpr rfl)
  have hlisted : c.listEvalCases dataset.userId dataset.id = .ok (.cases responses) := by
    rw [listEvalCases_owned howned, hresponses]
    rfl
  have hkeys : ((c.database.casesOf dataset.id).map fun row => (row.source, row.isActive)).Perm
      (responses.map fun response => (response.source.value, response.isActive)) := by
    rw [keys_of_shows hshows, casesInOrder, List.map_map]
    exact ((List.perm_insertionSort _ _).map _).symm
  have hstats : (c.datasetResponse dataset).stats = .tally responses := datasetStats_eq_tally hkeys
  have hcount : (c.datasetResponse dataset).caseCount = responses.countP (·.isActive) :=
    congrArg DatasetStats.active hstats
  have hannounced : c.datasetResponse dataset ∈
      ((c.database.datasets.rows.filter (·.userId = dataset.userId)).insertionSort fun a b =>
        (c.details b.id).createdAt ≤ (c.details a.id).createdAt).map c.datasetResponse := by
    refine List.mem_map_of_mem ((List.mem_insertionSort _).mpr (List.mem_filter.mpr ?_))
    exact ⟨hdataset, decide_eq_true rfl⟩
  refine ⟨responses, ⟨_, rfl, hannounced⟩, hlisted, hshows, hstats, hcount, ?_, ?_⟩
  · rw [h.counted dataset hdataset, ← datasetStats_active]
    exact hcount
  · change 0 ≤ (c.datasetResponse dataset).stats.syntheticRetentionRate ∧
      (c.datasetResponse dataset).stats.syntheticRetentionRate ≤ 100
    rw [hstats]
    exact DatasetStats.rate_bounds responses

section Histories

variable [Field K] [LinearOrder K]

def after (events : List (EvalEvent K)) (c : Corpus K) : Corpus K :=
  Projection.play EvalEvent.step 0 (events.map some) c

omit [Field K] [LinearOrder K] in
theorem sound_empty (knowledge : Database) : (empty knowledge : Corpus K).database.Sound where
  owned _ h := absurd h (Table.not_mem_empty _)
  counted _ h := absurd h (Table.not_mem_empty _)
  filed _ h := absurd h (Table.not_mem_empty _)
  legible _ h := absurd h (Table.not_mem_empty _)
  launched _ h := absurd h (Table.not_mem_empty _)
  recorded _ h := absurd h (Table.not_mem_empty _)

omit [Field K] [LinearOrder K] in
theorem predates_empty (knowledge : Database) :
    (empty knowledge : Corpus K).database.Predates 0 where
  datasets _ h := absurd h (Table.not_mem_empty _)
  cases _ h := absurd h (Table.not_mem_empty _)
  runs _ h := absurd h (Table.not_mem_empty _)

def Settled (stream : Nat) (c : Corpus K) : Prop :=
  c.database.Sound ∧ c.database.Predates stream

theorem Settled.step {stream : Nat} {c : Corpus K} (h : c.Settled stream) (event : EvalEvent K) :
    (event.step stream c).2.Settled (stream + 1) := (step_changes h.1 h.2 event).sound h.1 h.2

theorem settled_after (knowledge : Database) (events : List (EvalEvent K)) :
    ((empty knowledge).after events).Settled events.length := by
  have hplayed := Projection.play_invariant EvalEvent.step Settled
    (fun _ _ h => ⟨h.1, h.2.mono (Nat.le_succ _)⟩) (fun _ event _ h => h.step event)
    (events.map some) ⟨sound_empty knowledge, predates_empty knowledge⟩
  rw [List.length_map, Nat.zero_add] at hplayed
  exact hplayed

theorem listings_agree (knowledge : Database) (events : List (EvalEvent K)) :
    let c := (empty knowledge).after events
    c.database.Sound ∧ ∀ dataset ∈ c.database.datasets,
      ∃ responses, c.Presents dataset responses := by
  have hsettled := settled_after knowledge events
  exact ⟨hsettled.1, fun dataset hdataset => presents_of_sound hsettled.1 hdataset⟩

end Histories

end Corpus

section Trail

variable {K : Type}

structure EvalDatabase.Keeps (db db' : EvalDatabase K) : Prop where
  datasets : ∀ dataset ∈ db.datasets, ∃ kept ∈ db'.datasets,
    { kept with caseCount := dataset.caseCount } = dataset
  cases : ∀ case ∈ db.cases, ∃ kept ∈ db'.cases, { kept with isActive := case.isActive } = case
  runs : ∀ run ∈ db.runs, ∃ kept ∈ db'.runs, kept.id = run.id ∧ kept.datasetId = run.datasetId ∧
    kept.userId = run.userId ∧ kept.configSnapshot = run.configSnapshot
  results : ∀ row ∈ db.results, row ∈ db'.results

structure Corpus.Keeps (c c' : Corpus K) : Prop where
  database : c.database.Keeps c'.database
  details : ∀ dataset ∈ c.database.datasets,
    { c'.details dataset.id with updatedAt := (c.details dataset.id).updatedAt } =
      c.details dataset.id
  createdAt : ∀ run ∈ c.database.runs, c'.runCreatedAt run.id = c.runCreatedAt run.id

namespace EvalDatabase

variable {db db' db'' : EvalDatabase K}

theorem Keeps.refl (db : EvalDatabase K) : db.Keeps db where
  datasets dataset h := ⟨dataset, h, rfl⟩
  cases case h := ⟨case, h, rfl⟩
  runs run h := ⟨run, h, rfl, rfl, rfl, rfl⟩
  results _ h := h

theorem Keeps.trans (h : db.Keeps db') (h' : db'.Keeps db'') : db.Keeps db'' where
  datasets dataset hdataset := by
    obtain ⟨kept, hkept, heq⟩ := h.datasets dataset hdataset
    obtain ⟨kept', hkept', heq'⟩ := h'.datasets kept hkept
    refine ⟨kept', hkept', ?_⟩
    rw [← heq, ← heq']
  cases case hcase := by
    obtain ⟨kept, hkept, heq⟩ := h.cases case hcase
    obtain ⟨kept', hkept', heq'⟩ := h'.cases kept hkept
    refine ⟨kept', hkept', ?_⟩
    rw [← heq, ← heq']
  runs run hrun := by
    obtain ⟨kept, hkept, hid, hdataset, huser, hconfig⟩ := h.runs run hrun
    obtain ⟨kept', hkept', hid', hdataset', huser', hconfig'⟩ := h'.runs kept hkept
    exact ⟨kept', hkept', hid'.trans hid, hdataset'.trans hdataset, huser'.trans huser,
      hconfig'.trans hconfig⟩
  results row hrow := h'.results row (h.results row hrow)

theorem keeps_apply (db : EvalDatabase K) (write : EvalWrite K) : db.Keeps (db.apply write) := by
  refine ⟨fun dataset h => ?_, fun case h => ⟨case, ?_, rfl⟩, fun run h => ?_, fun row h => ?_⟩
  · cases write with
    | setCaseCount datasetId caseCount =>
      refine ⟨_, mem_setCaseCount.mpr ⟨dataset, h, rfl⟩, ?_⟩
      split <;> rfl
    | _ => exact ⟨dataset, h, rfl⟩
  · rw [RunScope.cases_apply]
    exact h
  · cases write with
    | insertRun created => exact ⟨run, Table.subset_insert _ _ h, rfl, rfl, rfl, rfl⟩
    | updateRun id changes =>
      refine ⟨_, RunScope.mem_runs_updateRun.mpr ⟨run, h, rfl⟩, ?_⟩
      split <;> exact ⟨rfl, rfl, rfl, rfl⟩
    | _ => exact ⟨run, h, rfl, rfl, rfl, rfl⟩
  · cases write with
    | insertResult created => exact Table.subset_insert _ _ h
    | _ => exact h

theorem keeps_applyAll (db : EvalDatabase K) (writes : List (EvalWrite K)) :
    db.Keeps (db.applyAll writes) := by
  induction writes generalizing db with
  | nil => exact .refl db
  | cons write writes ih => exact (db.keeps_apply write).trans (ih (db.apply write))

theorem keeps_cases {cases : Table EvalCase.id} (datasetId : Uuid)
    (h : ∀ case ∈ db.cases, ∃ kept ∈ cases, { kept with isActive := case.isActive } = case) :
    db.Keeps ({ db with cases }.refreshDatasetCaseCount datasetId) := by
  have hcases : db.Keeps { db with cases } :=
    ⟨fun dataset h => ⟨dataset, h, rfl⟩, h, fun run h => ⟨run, h, rfl, rfl, rfl, rfl⟩, fun _ h => h⟩
  exact hcases.trans (keeps_apply _ _)

end EvalDatabase

namespace Corpus

variable {stream : Nat} {event : EvalEvent K} {c c' c'' : Corpus K}

theorem Keeps.refl (c : Corpus K) : c.Keeps c := ⟨.refl _, fun _ _ => rfl, fun _ _ => rfl⟩

theorem Keeps.trans (h : c.Keeps c') (h' : c'.Keeps c'') : c.Keeps c'' := by
  refine ⟨h.database.trans h'.database, fun dataset hdataset => ?_, fun run hrun => ?_⟩
  · obtain ⟨kept, hkept, heq⟩ := h.database.datasets dataset hdataset
    have hid : kept.id = dataset.id := by rw [← heq]
    have hfirst := h.details dataset hdataset
    have hsecond := h'.details kept hkept
    rw [hid] at hsecond
    rw [← hfirst, ← hsecond]
  · obtain ⟨kept, hkept, hid, _⟩ := h.database.runs run hrun
    have hsecond := h'.createdAt kept hkept
    rw [hid] at hsecond
    exact hsecond.trans (h.createdAt run hrun)

theorem details_commit (now : Timestamp) (database : EvalDatabase K) (id : Uuid) :
    { (c.commit now database).details id with updatedAt := (c.details id).updatedAt } =
      c.details id := by
  simp only [commit]
  split <;> rfl

theorem keeps_commit {database : EvalDatabase K} (now : Timestamp)
    (h : c.database.Keeps database) : c.Keeps (c.commit now database) :=
  ⟨h, fun dataset _ => details_commit now database dataset.id, fun _ _ => rfl⟩

theorem Changes.keeps (h : c.Changes stream event c') (hpredates : c.database.Predates stream) :
    c.Keeps c' := by
  cases h with
  | nothing => exact .refl c
  | knowledge change =>
    exact ⟨⟨fun dataset h => ⟨dataset, h, rfl⟩, fun case h => ⟨case, h, rfl⟩,
      fun run h => ⟨run, h, rfl, rfl, rfl, rfl⟩, fun _ h => h⟩, fun _ _ => rfl, fun _ _ => rfl⟩
  | dataset dataset details id caseCount owner known =>
    refine ⟨⟨fun other h => ⟨other, Table.subset_insert _ _ h, rfl⟩, fun case h => ⟨case, h, rfl⟩,
      fun run h => ⟨run, h, rfl, rfl, rfl, rfl⟩, fun _ h => h⟩, fun other hother => ?_,
      fun _ _ => rfl⟩
    have hne : other.id ≠ dataset.id := fun heq => by
      have hstream := hpredates.datasets other hother
      rw [heq, id] at hstream
      exact Nat.lt_irrefl stream hstream
    simp only [if_neg hne]
  | cases dataset stored fills owner created ids rows =>
    have hcases : ∀ case ∈ c.database.cases,
        ∃ kept ∈ c.database.cases.insertAll (created.map ReviewedCase.toEvalCase),
          { kept with isActive := case.isActive } = case := by
      intro case hcase
      refine ⟨case, ?_, rfl⟩
      rw [Table.mem_def, Table.rows_insertAll (fresh_created hpredates ids) (nodup_created ids)]
      exact List.mem_append_left _ hcase
    have hkeeps := keeps_commit event.now (keeps_cases dataset.id hcases)
    exact ⟨hkeeps.database, hkeeps.details, hkeeps.createdAt⟩
  | review dataset stored case filed belongs request asked =>
    have hcases : ∀ other ∈ c.database.cases,
        ∃ kept ∈ c.database.cases.put { case with isActive := request.isActive },
          { kept with isActive := other.isActive } = other := by
      intro other hother
      have hmem {x : EvalCase} :
          x ∈ c.database.cases.put { case with isActive := request.isActive } ↔
            x = { case with isActive := request.isActive } ∨ (x ∈ c.database.cases ∧ x ≠ case) :=
        Table.mem_put_of_mem filed rfl
      by_cases hmine : other = case
      · exact ⟨_, hmem.mpr (Or.inl rfl), by rw [hmine]⟩
      · exact ⟨other, hmem.mpr (Or.inr ⟨hother, hmine⟩), rfl⟩
    have hkeeps := keeps_commit event.now (keeps_cases case.datasetId hcases)
    exact ⟨hkeeps.database, hkeeps.details, hkeeps.createdAt⟩
  | launch scope fits anchors owner runId created failed withinCreated withinFailed =>
    refine ⟨keeps_applyAll _ _, fun dataset _ => details_commit _ _ dataset.id, fun run hrun => ?_⟩
    refine if_neg fun heq => ?_
    have hstream := hpredates.runs run hrun
    rw [heq, runId] at hstream
    exact Nat.lt_irrefl stream hstream
  | evaluate scope fits anchors asked stored writes within =>
    exact keeps_commit _ (keeps_applyAll _ _)

def Reviews (c : Corpus K) (action : EvalAction K) (case : EvalCase) : Prop :=
  ∃ dataset ∈ c.database.datasets, dataset.id = case.datasetId ∧
    ∃ request, action = .request dataset.userId (.reviewEvalCase case.id request)

theorem reviewNotes_note {reviewed : List ReviewedCase} {id : Uuid}
    (h : ∀ row ∈ reviewed, row.id ≠ id) : (c.note reviewed).reviewNotes id = c.reviewNotes id := by
  have hnone : reviewed.find? (·.id = id) = none := by
    refine List.find?_eq_none.mpr fun row hrow heq => h row hrow (of_decide_eq_true heq)
  simp only [note, hnone]
  rfl

theorem Changes.unreviewed (h : c.Changes stream event c') (hpredates : c.database.Predates stream)
    {case : EvalCase} (hcase : case ∈ c.database.cases) (hnone : ¬ c.Reviews event.action case) :
    case ∈ c'.database.cases ∧ c'.reviewNotes case.id = c.reviewNotes case.id := by
  cases h with
  | cases dataset stored fills owner created ids rows =>
    constructor
    · change case ∈ c.database.cases.insertAll _
      rw [Table.mem_def, Table.rows_insertAll (fresh_created hpredates ids) (nodup_created ids)]
      exact List.mem_append_left _ hcase
    · refine reviewNotes_note fun row hrow heq => ?_
      have hstream := stream_of_mem_draws (ids ▸ List.mem_map_of_mem hrow)
      rw [heq] at hstream
      exact absurd hstream (hpredates.cases case hcase).ne
  | review dataset stored other filed belongs request asked =>
    have hne : other ≠ case := by
      rintro rfl
      exact hnone ⟨dataset, stored, belongs.symm, request, asked⟩
    have hid : other.id ≠ case.id := fun heq => hne (Table.eq_of_key_eq filed hcase heq)
    exact ⟨Table.mem_put.mpr (Or.inr ⟨hcase, hid.symm⟩), reviewNotes_note (by simpa using hid)⟩
  | launch scope fits anchors owner runId created failed withinCreated withinFailed =>
    refine ⟨?_, rfl⟩
    change case ∈ (c.database.applyAll _).cases
    rw [cases_applyAll]
    exact hcase
  | evaluate scope fits anchors asked stored writes within =>
    refine ⟨?_, rfl⟩
    change case ∈ (c.database.applyAll _).cases
    rw [cases_applyAll]
    exact hcase
  | _ => exact ⟨hcase, rfl⟩

theorem Keeps.reviews (h : c.Keeps c') (hsound : c.database.Sound) {action : EvalAction K}
    {case : EvalCase} (hcase : case ∈ c.database.cases) (hreviews : c'.Reviews action case) :
    c.Reviews action case := by
  obtain ⟨dataset', hdataset', hid', request, rfl⟩ := hreviews
  obtain ⟨dataset, hdataset, hid⟩ := hsound.filed case hcase
  obtain ⟨kept, hkept, heq⟩ := h.database.datasets dataset hdataset
  have hsame : kept.id = dataset.id ∧ kept.userId = dataset.userId := by
    rw [← heq]
    exact ⟨rfl, rfl⟩
  cases Table.eq_of_key_eq hkept hdataset' (hsame.1.trans (hid.trans hid'.symm))
  exact ⟨dataset, hdataset, hid, request, by rw [hsame.2]⟩

section Histories

variable [Field K] [LinearOrder K]

theorem play_keeps (later : List (EvalEvent K)) (hsettled : c.Settled stream) :
    let c' := Projection.play EvalEvent.step stream (later.map some) c
    c.Keeps c' ∧ ∀ case ∈ c.database.cases, (∀ event ∈ later, ¬ c.Reviews event.action case) →
      case ∈ c'.database.cases ∧ c'.reviewNotes case.id = c.reviewNotes case.id := by
  induction later generalizing c stream with
  | nil => exact ⟨.refl c, fun case hcase _ => ⟨hcase, rfl⟩⟩
  | cons event later ih =>
    have hchanges := step_changes hsettled.1 hsettled.2 event
    have hkeeps := hchanges.keeps hsettled.2
    obtain ⟨hrest, hreviewed⟩ := ih (hsettled.step event)
    refine ⟨hkeeps.trans hrest, fun case hcase hnone => ?_⟩
    obtain ⟨hfirst, hlater⟩ := List.forall_mem_cons.mp hnone
    obtain ⟨hstays, hnote⟩ := hchanges.unreviewed hsettled.2 hcase hfirst
    obtain ⟨hends, hnote'⟩ := hreviewed case hstays fun other hother hreviews =>
      hlater other hother (hkeeps.reviews hsettled.1 hcase hreviews)
    exact ⟨hends, hnote'.trans hnote⟩

theorem trail_kept (knowledge : Database) (before later : List (EvalEvent K)) :
    let c := (empty knowledge).after before
    let c' := (empty knowledge).after (before ++ later)
    c.Keeps c' ∧ ∀ case ∈ c.database.cases, (∀ event ∈ later, ¬ c.Reviews event.action case) →
      case ∈ c'.database.cases ∧ c'.reviewNotes case.id = c.reviewNotes case.id := by
  have happend : (empty knowledge).after (before ++ later) =
      Projection.play EvalEvent.step before.length (later.map some)
        ((empty knowledge).after before) := by
    rw [after, List.map_append, Projection.play_append, List.length_map, Nat.zero_add, after]
  rw [happend]
  exact play_keeps later (settled_after knowledge before)

end Histories

end Corpus

end Trail

end YCStudio
