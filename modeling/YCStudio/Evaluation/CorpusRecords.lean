import Mathlib.Algebra.BigOperators.Group.List.Lemmas
import Mathlib.Algebra.GroupWithZero.Nat
import YCStudio.Evaluation.CorpusRoutes
import YCStudio.Evaluation.RunWrites
import YCStudio.Library.Projection

namespace YCStudio

theorem ofDigitChars_repr (n : Nat) : Nat.ofDigitChars 10 (Nat.repr n).toList 0 = n := by
  simp [Nat.repr]

theorem parseUuid_str (id : Uuid) : parseUuid id.str = some id := by
  have hdigits (n : Nat) : ∀ c ∈ (Nat.repr n).toList, c.isDigit = true := fun c hc =>
    Nat.isDigit_of_mem_toDigits (by decide : 0 < 10) (by decide : 10 ≤ 10) (by simpa [Nat.repr] using hc)
  have hdash (n : Nat) : ∀ c ∈ (Nat.repr n).toList, decide (c ≠ '-') = true := by
    intro c hc
    have hne : c ≠ '-' := fun h => not_mem_repr (by decide) n (h ▸ hc)
    exact decide_eq_true hne
  have hnonempty (n : Nat) : (Nat.repr n).toList ≠ [] := by
    simp [Nat.repr]
  rw [parseUuid, Uuid.str, List.dropWhile_append_of_pos (hdash _),
    List.takeWhile_append_of_pos (hdash _)]
  simp only [List.dropWhile_cons, List.takeWhile_cons, ne_eq, not_true_eq_false, decide_false,
    Bool.false_eq_true, if_false, List.append_nil]
  rw [if_pos]
  · rw [ofDigitChars_repr, ofDigitChars_repr]
  · refine ⟨?_, hnonempty _, hnonempty _⟩
    rw [List.all_append, Bool.and_eq_true, List.all_eq_true, List.all_eq_true]
    exact ⟨hdigits _, hdigits _⟩

theorem mapM_parseUuid (ids : List Uuid) : (ids.map Uuid.str).mapM parseUuid = some ids := by
  induction ids with
  | nil => rfl
  | cons id ids ih =>
    rw [List.map_cons, List.mapM_cons, parseUuid_str, ih]
    rfl

theorem EvalCaseSource.ofText_value (source : EvalCaseSource) :
    EvalCaseSource.ofText source.value = some source := by
  cases source <;> decide

structure EvalCase.Legible (case : EvalCase) : Prop where
  normalized : Str.join [' '] case.query.words = case.query
  asking : case.source = EvalCaseSource.manual.value → case.query ≠ []
  expecting : case.expectedChunkIds ≠ []
  expected : ∃ ids : List Uuid, ids.map Uuid.str = case.expectedChunkIds
  source : ∃ source : EvalCaseSource, source.value = case.source

structure EvalCaseResponse.Shows (response : EvalCaseResponse) (row : ReviewedCase) : Prop where
  id : response.id = row.id
  datasetId : response.datasetId = row.datasetId
  query : response.query = row.query
  expectedChunkIds : response.expectedChunkIds.map Uuid.str = row.expectedChunkIds
  source : response.source.value = row.source
  isActive : response.isActive = row.isActive
  reviewNote : response.reviewNote = row.reviewNote
  createdAt : response.createdAt = row.createdAt

theorem EvalCase.Legible.shown {row : ReviewedCase} (h : row.Legible) :
    ∃ response, caseResponse row = .ok response ∧ response.Shows row := by
  obtain ⟨ids, hids⟩ := h.expected
  obtain ⟨source, hsource⟩ := h.source
  have hparsed : row.expectedChunkIds.mapM parseUuid = some ids := hids ▸ mapM_parseUuid ids
  have hread : EvalCaseSource.ofText row.source = some source :=
    hsource ▸ EvalCaseSource.ofText_value source
  let response : EvalCaseResponse := {
    id := row.id
    datasetId := row.datasetId
    query := row.query
    expectedChunkIds := ids
    source
    isActive := row.isActive
    reviewNote := row.reviewNote
    createdAt := row.createdAt }
  refine ⟨response, ?_, ⟨rfl, rfl, rfl, hids, hsource, rfl, rfl, rfl⟩⟩
  simp only [caseResponse, hparsed, hread]
  rfl

section Tally

def DatasetStats.tally (responses : List EvalCaseResponse) : DatasetStats where
  total := responses.length
  active := responses.countP (·.isActive)
  syntheticTotal := responses.countP (·.source = .synthetic)
  syntheticActive := responses.countP fun row => row.source = .synthetic ∧ row.isActive
  manualActive := responses.countP fun row => row.source = .manual ∧ row.isActive

theorem sum_filter_groupCount {α : Type} [DecidableEq α] (keys : List α) (p : α → Bool) :
    (((groupCount keys).filter fun group => p group.1).map Prod.snd).sum = keys.countP p := by
  rw [← List.sum_map_count_dedup_filter_eq_countP p keys, groupCount, List.filter_map, List.map_map]
  rfl

theorem lookup_groupCount_lawful {α : Type} [DecidableEq α] [lookups : BEq α] [LawfulBEq α]
    (keys : List α) (key : α) : ((groupCount keys).lookup key).getD 0 = keys.countP (· = key) := by
  have hbeq : lookups = instBEqOfDecidableEq := lawful_beq_subsingleton _ _
  rw [hbeq, lookup_groupCount]
  rfl

variable {K : Type} {db : EvalDatabase K} {datasetId : Uuid}

theorem EvalDatabase.activeCases_eq : db.activeCases datasetId =
    ((db.casesOf datasetId).filter (·.isActive)).insertionSort fun a b =>
      a.createdAt < b.createdAt ∨ (a.createdAt = b.createdAt ∧ a.id.le b.id = true) := by
  rw [activeCases, casesOf, List.filter_filter]
  congr 1
  refine List.filter_congr fun row _ => ?_
  rw [Bool.decide_and, Bool.decide_eq_true, Bool.and_comm]

theorem EvalDatabase.length_activeCases :
    (db.activeCases datasetId).length = (db.casesOf datasetId).countP (·.isActive) := by
  rw [activeCases_eq, List.length_insertionSort, List.countP_eq_length_filter]

theorem EvalDatabase.datasetStats_active :
    (db.datasetStats datasetId).active = (db.activeCases datasetId).length := by
  rw [length_activeCases]
  refine (sum_filter_groupCount _ fun key : Str × Bool => key.2).trans ?_
  rw [List.countP_map]
  rfl

theorem EvalDatabase.datasetStats_eq_tally {responses : List EvalCaseResponse}
    (h : ((db.casesOf datasetId).map fun row => (row.source, row.isActive)).Perm
      (responses.map fun response => (response.source.value, response.isActive))) :
    db.datasetStats datasetId = DatasetStats.tally responses := by
  have hvalue {a b : EvalCaseSource} : a.value = b.value ↔ a = b := by
    cases a <;> cases b <;> decide
  rw [datasetStats, caseCounts, sum_groupCount, h.length_eq, List.length_map,
    sum_filter_groupCount _ fun key : Str × Bool => key.2,
    sum_filter_groupCount _ fun key : Str × Bool => decide (key.1 = EvalCaseSource.synthetic.value)]
  simp only [lookup_groupCount_lawful, h.countP_eq]
  simp only [List.countP_map, Function.comp_def, Prod.mk.injEq, hvalue]
  rfl

end Tally

section Soundness

variable {K : Type} {db : EvalDatabase K}

structure EvalDatabase.Sound (db : EvalDatabase K) : Prop where
  owned : ∀ dataset ∈ db.datasets, dataset.userId ∈ db.knowledge.users
  counted : ∀ dataset ∈ db.datasets, dataset.caseCount = (db.activeCases dataset.id).length
  filed : ∀ case ∈ db.cases, ∃ dataset ∈ db.datasets, dataset.id = case.datasetId
  legible : ∀ case ∈ db.cases, case.Legible
  launched : ∀ run ∈ db.runs, ∃ dataset ∈ db.datasets,
    dataset.id = run.datasetId ∧ dataset.userId = run.userId
  recorded : ∀ row ∈ db.results, ∃ run ∈ db.runs, run.id = row.runId ∧
    ∃ case ∈ db.cases, case.id = row.caseId ∧ case.datasetId = run.datasetId

structure EvalDatabase.Predates (db : EvalDatabase K) (stream : Nat) : Prop where
  datasets : ∀ dataset ∈ db.datasets, dataset.id.stream < stream
  cases : ∀ case ∈ db.cases, case.id.stream < stream
  runs : ∀ run ∈ db.runs, run.id.stream < stream

namespace EvalDatabase

theorem mem_setCaseCount {datasetId : Uuid} {caseCount : Nat} {dataset : EvalDataset} :
    dataset ∈ (db.apply (.setCaseCount datasetId caseCount)).datasets ↔
      ∃ old ∈ db.datasets,
        (if old.id = datasetId then { old with caseCount } else old) = dataset := by
  rw [apply, Table.mem_def, Table.rows_modify, List.mem_map]
  exact Iff.rfl

theorem exists_setCaseCount {datasetId : Uuid} {caseCount : Nat} {p : Uuid → Uuid → Prop}
    (h : ∃ dataset ∈ db.datasets, p dataset.id dataset.userId) :
    ∃ dataset ∈ (db.apply (.setCaseCount datasetId caseCount)).datasets,
      p dataset.id dataset.userId := by
  obtain ⟨dataset, hdataset, hp⟩ := h
  refine ⟨_, mem_setCaseCount.mpr ⟨dataset, hdataset, rfl⟩, ?_⟩
  split <;> exact hp

theorem Predates.mono {stream stream' : Nat} (h : db.Predates stream) (hle : stream ≤ stream') :
    db.Predates stream' where
  datasets dataset hdataset := (h.datasets dataset hdataset).trans_le hle
  cases case hcase := (h.cases case hcase).trans_le hle
  runs run hrun := (h.runs run hrun).trans_le hle

theorem Sound.casesOf_new (h : db.Sound) {datasetId : Uuid}
    (hnew : ∀ dataset ∈ db.datasets, dataset.id ≠ datasetId) : db.casesOf datasetId = [] := by
  refine List.filter_eq_nil_iff.mpr fun case hcase => ?_
  obtain ⟨dataset, hdataset, hid⟩ := h.filed case hcase
  have hne := hnew dataset hdataset
  rw [hid] at hne
  simpa using hne

theorem Sound.insertDataset (h : db.Sound) {dataset : EvalDataset}
    (hfresh : db.datasets.Fresh dataset.id) (hcount : dataset.caseCount = 0)
    (howned : dataset.userId ∈ db.knowledge.users) :
    { db with datasets := db.datasets.insert dataset }.Sound where
  owned other hother := by
    rcases (Table.mem_insert hfresh).mp hother with hold | rfl
    · exact h.owned other hold
    · exact howned
  counted other hother := by
    rcases (Table.mem_insert hfresh).mp hother with hold | rfl
    · exact h.counted other hold
    · have hnone : db.casesOf other.id = [] := h.casesOf_new hfresh
      have hempty : (db.activeCases other.id).length = 0 := by
        rw [length_activeCases, hnone]
        rfl
      exact hcount.trans hempty.symm
  filed case hcase := by
    obtain ⟨other, hother, hid⟩ := h.filed case hcase
    exact ⟨other, Table.subset_insert _ _ hother, hid⟩
  legible := h.legible
  launched run hrun := by
    obtain ⟨other, hother, hbelongs⟩ := h.launched run hrun
    exact ⟨other, Table.subset_insert _ _ hother, hbelongs⟩
  recorded := h.recorded

theorem Sound.revise (h : db.Sound) {cases : Table EvalCase.id} {datasetId : Uuid}
    (hdataset : ∃ dataset ∈ db.datasets, dataset.id = datasetId)
    (hothers : ∀ other, other ≠ datasetId → { db with cases }.casesOf other = db.casesOf other)
    (hlegible : ∀ case ∈ cases, case.datasetId = datasetId → case.Legible)
    (hkept : ∀ case ∈ db.cases, ∃ kept ∈ cases, kept.id = case.id ∧
      kept.datasetId = case.datasetId) :
    ({ db with cases }.refreshDatasetCaseCount datasetId).Sound := by
  have hcases : ∀ case ∈ cases, case.datasetId = datasetId ∨ case ∈ db.cases := by
    intro case hcase
    by_cases hmine : case.datasetId = datasetId
    · exact Or.inl hmine
    · have hmem : case ∈ { db with cases }.casesOf case.datasetId :=
        List.mem_filter.mpr ⟨hcase, by simp⟩
      rw [hothers _ hmine] at hmem
      exact Or.inr (List.mem_filter.mp hmem).1
  refine ⟨?_, ?_, ?_, ?_, ?_, ?_⟩
  · intro dataset hdataset
    obtain ⟨old, hold, rfl⟩ := mem_setCaseCount.mp hdataset
    have howned := h.owned old hold
    split <;> exact howned
  · intro dataset hdataset
    obtain ⟨old, hold, rfl⟩ := mem_setCaseCount.mp hdataset
    by_cases hmine : old.id = datasetId
    · rw [if_pos hmine]
      change _ = ({ db with cases }.activeCases old.id).length
      rw [hmine]
    · rw [if_neg hmine]
      change _ = ({ db with cases }.activeCases old.id).length
      rw [h.counted old hold, length_activeCases, length_activeCases, hothers _ hmine]
  · intro case hcase
    apply exists_setCaseCount (p := fun id _ => id = case.datasetId)
    rcases hcases case hcase with hmine | hold
    · obtain ⟨dataset, hmem, hid⟩ := hdataset
      exact ⟨dataset, hmem, hid.trans hmine.symm⟩
    · exact h.filed case hold
  · intro case hcase
    rcases hcases case hcase with hmine | hold
    · exact hlegible case hcase hmine
    · exact h.legible case hold
  · intro run hrun
    exact exists_setCaseCount (p := fun id userId => id = run.datasetId ∧ userId = run.userId)
      (h.launched run hrun)
  · intro row hrow
    obtain ⟨run, hrun, hrunId, case, hcase, hcaseId, hsame⟩ := h.recorded row hrow
    obtain ⟨kept, hmem, hid, hdatasetId⟩ := hkept case hcase
    exact ⟨run, hrun, hrunId, kept, hmem, hid.trans hcaseId, hdatasetId.trans hsame⟩

theorem Sound.insertCases (h : db.Sound) {created : List EvalCase} {datasetId : Uuid}
    (hdataset : ∃ dataset ∈ db.datasets, dataset.id = datasetId)
    (hfresh : ∀ case ∈ created, db.cases.Fresh case.id) (hnodup : (created.map EvalCase.id).Nodup)
    (hcreated : ∀ case ∈ created, case.datasetId = datasetId ∧ case.Legible) :
    ({ db with cases := db.cases.insertAll created }.refreshDatasetCaseCount datasetId).Sound := by
  have hrows := Table.rows_insertAll hfresh hnodup
  refine h.revise hdataset ?_ ?_ ?_
  · intro other hother
    refine Table.filter_insertAll_of_not _ fun case hcase => ?_
    rw [(hcreated case hcase).1]
    simpa using Ne.symm hother
  · intro case hcase _
    rw [Table.mem_def, hrows, List.mem_append] at hcase
    rcases hcase with hold | hnew
    · exact h.legible case hold
    · exact (hcreated case hnew).2
  · intro case hcase
    refine ⟨case, ?_, rfl, rfl⟩
    rw [Table.mem_def, hrows]
    exact List.mem_append_left _ hcase

theorem Sound.putCase (h : db.Sound) {old : EvalCase} (case : EvalCase) (hold : old ∈ db.cases)
    (hid : old.id = case.id) (hsame : old.datasetId = case.datasetId) (hlegible : case.Legible) :
    ({ db with cases := db.cases.put case }.refreshDatasetCaseCount case.datasetId).Sound := by
  have hmem {other : EvalCase} : other ∈ db.cases.put case ↔
      other = case ∨ (other ∈ db.cases ∧ other ≠ old) := Table.mem_put_of_mem hold hid
  refine h.revise ?_ ?_ ?_ ?_
  · obtain ⟨dataset, hdataset, heq⟩ := h.filed old hold
    exact ⟨dataset, hdataset, heq.trans hsame⟩
  · intro other hother
    refine Table.filter_put_of_not ?_ (by simpa using Ne.symm hother)
    intro row hrow hkey
    cases Table.eq_of_key_eq hrow hold (hkey.trans hid.symm)
    simpa [hsame] using Ne.symm hother
  · intro other hother _
    rcases hmem.mp hother with rfl | ⟨hmem, _⟩
    · exact hlegible
    · exact h.legible other hmem
  · intro other hother
    by_cases hmine : other = old
    · exact ⟨case, hmem.mpr (Or.inl rfl), hmine ▸ hid.symm, hmine ▸ hsame.symm⟩
    · exact ⟨other, hmem.mpr (Or.inr ⟨hother, hmine⟩), rfl, rfl⟩

section Scope

variable {scope : RunScope}

def Anchors (db : EvalDatabase K) (scope : RunScope) : Prop :=
  ∃ dataset ∈ db.datasets, dataset.id = scope.datasetId ∧ dataset.userId = scope.userId

theorem Anchors.apply (h : db.Anchors scope) (write : EvalWrite K) :
    (db.apply write).Anchors scope := by
  cases write with
  | setCaseCount datasetId caseCount =>
    exact exists_setCaseCount (p := fun id userId => id = scope.datasetId ∧ userId = scope.userId) h
  | _ => exact h

theorem Sound.apply (h : db.Sound) (hfits : scope.Fits db) (hanchors : db.Anchors scope)
    {write : EvalWrite K} (hwithin : scope.Within write) : (db.apply write).Sound := by
  cases write with
  | insertRun created =>
    refine ⟨h.owned, h.counted, h.filed, h.legible, ?_, ?_⟩
    · intro run hrun
      rcases Table.mem_of_mem_insert hrun with hold | rfl
      · exact h.launched run hold
      · obtain ⟨dataset, hdataset, hid, howner⟩ := hanchors
        exact ⟨dataset, hdataset, hid.trans hwithin.datasetId.symm,
          howner.trans hwithin.userId.symm⟩
    · intro row hrow
      obtain ⟨run, hrun, hrest⟩ := h.recorded row hrow
      exact ⟨run, Table.subset_insert _ _ hrun, hrest⟩
  | updateRun id changes =>
    have hpatched (old : EvalRun K) : (if old.id = id then old.patch changes else old).id = old.id ∧
        (if old.id = id then old.patch changes else old).datasetId = old.datasetId ∧
          (if old.id = id then old.patch changes else old).userId = old.userId := by
      split <;> exact ⟨rfl, rfl, rfl⟩
    refine ⟨h.owned, h.counted, h.filed, h.legible, ?_, ?_⟩
    · intro run hrun
      obtain ⟨old, hold, rfl⟩ := RunScope.mem_runs_updateRun.mp hrun
      rw [(hpatched old).2.1, (hpatched old).2.2]
      exact h.launched old hold
    · intro row hrow
      obtain ⟨old, hold, hid, case, hcase, hcaseId, hsame⟩ := h.recorded row hrow
      refine ⟨_, RunScope.mem_runs_updateRun.mpr ⟨old, hold, rfl⟩, (hpatched old).1.trans hid, case,
        hcase, hcaseId, ?_⟩
      rw [(hpatched old).2.1]
      exact hsame
  | insertResult created =>
    obtain ⟨hstored, hrunId, case, hcase, hcaseId⟩ := hwithin
    refine ⟨h.owned, h.counted, h.filed, h.legible, h.launched, ?_⟩
    intro row hrow
    rcases Table.mem_of_mem_insert hrow with hold | rfl
    · exact h.recorded row hold
    · obtain ⟨run, hrun, hid⟩ := hfits.stored hstored
      rw [← hfits.cases, activeCases, List.mem_insertionSort, List.mem_filter] at hcase
      have hfiled := (of_decide_eq_true hcase.2).1
      exact ⟨run, hrun, hid.trans hrunId.symm, case, hcase.1, hcaseId,
        hfiled.trans (hfits.runs run hrun hid).datasetId.symm⟩
  | setCaseCount datasetId caseCount =>
    obtain ⟨rfl, rfl⟩ := hwithin
    refine ⟨?_, ?_, ?_, h.legible, ?_, h.recorded⟩
    · intro dataset hdataset
      obtain ⟨old, hold, rfl⟩ := mem_setCaseCount.mp hdataset
      have howned := h.owned old hold
      split <;> exact howned
    · intro dataset hdataset
      obtain ⟨old, hold, rfl⟩ := mem_setCaseCount.mp hdataset
      by_cases hmine : old.id = scope.datasetId
      · rw [if_pos hmine, ← hfits.cases]
        change (db.activeCases scope.datasetId).length = (db.activeCases old.id).length
        rw [hmine]
      · rw [if_neg hmine]
        exact h.counted old hold
    · intro case hcase
      exact exists_setCaseCount (p := fun id _ => id = case.datasetId) (h.filed case hcase)
    · intro run hrun
      exact exists_setCaseCount (p := fun id userId => id = run.datasetId ∧ userId = run.userId)
        (h.launched run hrun)

theorem Predates.apply {stream : Nat} (h : db.Predates stream) (hrun : scope.runId.stream < stream)
    {write : EvalWrite K} (hwithin : scope.Within write) : (db.apply write).Predates stream := by
  cases write with
  | insertRun created =>
    refine ⟨h.datasets, h.cases, fun run hmem => ?_⟩
    rcases Table.mem_of_mem_insert hmem with hold | rfl
    · exact h.runs run hold
    · rw [hwithin.id]
      exact hrun
  | updateRun id changes =>
    refine ⟨h.datasets, h.cases, fun run hmem => ?_⟩
    obtain ⟨old, hold, rfl⟩ := RunScope.mem_runs_updateRun.mp hmem
    have hold := h.runs old hold
    split <;> exact hold
  | insertResult created => exact ⟨h.datasets, h.cases, h.runs⟩
  | setCaseCount datasetId caseCount =>
    refine ⟨fun dataset hdataset => ?_, h.cases, h.runs⟩
    obtain ⟨old, hold, rfl⟩ := mem_setCaseCount.mp hdataset
    have hold := h.datasets old hold
    split <;> exact hold

theorem Sound.applyAll {stream : Nat} (h : db.Sound) (hpredates : db.Predates stream)
    (hfits : scope.Fits db) (hanchors : db.Anchors scope) (hrun : scope.runId.stream < stream)
    {writes : List (EvalWrite K)} (hwithin : ∀ write ∈ writes, scope.Within write) :
    (db.applyAll writes).Sound ∧ (db.applyAll writes).Predates stream := by
  induction writes generalizing db with
  | nil => exact ⟨h, hpredates⟩
  | cons write writes ih =>
    obtain ⟨hwrite, hrest⟩ := List.forall_mem_cons.mp hwithin
    exact ih (h.apply hfits hanchors hwrite) (hpredates.apply hrun hwrite) (hfits.apply hwrite)
      (hanchors.apply write) hrest

end Scope

end EvalDatabase

end Soundness

end YCStudio
