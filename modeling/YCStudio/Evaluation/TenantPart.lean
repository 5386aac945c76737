import YCStudio.Evaluation.CorpusHistory
import YCStudio.Library.Parts

namespace YCStudio

namespace EvalDatabase

variable {K : Type} (db : EvalDatabase K) (user : Uuid)

def OwnsDataset (id : Uuid) : Prop :=
  ∃ dataset ∈ db.datasets.rows, dataset.userId = user ∧ dataset.id = id

instance (id : Uuid) : Decidable (db.OwnsDataset user id) :=
  inferInstanceAs (Decidable (∃ dataset ∈ db.datasets.rows, _))

def OwnsCase (id : Uuid) : Prop :=
  ∃ case ∈ db.cases.rows, db.OwnsDataset user case.datasetId ∧ case.id = id

instance (id : Uuid) : Decidable (db.OwnsCase user id) :=
  inferInstanceAs (Decidable (∃ case ∈ db.cases.rows, _))

def OwnsRun (id : Uuid) : Prop := ∃ run ∈ db.runs.rows, run.userId = user ∧ run.id = id

instance (id : Uuid) : Decidable (db.OwnsRun user id) :=
  inferInstanceAs (Decidable (∃ run ∈ db.runs.rows, _))

def ownPart : EvalDatabase K where
  knowledge := db.knowledge
  datasets := db.datasets.erase (·.userId ≠ user)
  cases := db.cases.erase (¬ db.OwnsDataset user ·.datasetId)
  runs := db.runs.erase (·.userId ≠ user)
  results := db.results.erase (¬ db.OwnsRun user ·.runId)

variable {db user}

theorem ownsDataset_iff {dataset : EvalDataset} (h : dataset ∈ db.datasets) :
    db.OwnsDataset user dataset.id ↔ dataset.userId = user := by
  constructor
  · rintro ⟨other, hother, howner, hid⟩
    cases Table.eq_of_key_eq hother h hid
    exact howner
  · exact fun howner => ⟨dataset, h, howner, rfl⟩

theorem ownsCase_iff {case : EvalCase} (h : case ∈ db.cases) :
    db.OwnsCase user case.id ↔ db.OwnsDataset user case.datasetId := by
  constructor
  · rintro ⟨other, hother, howner, hid⟩
    cases Table.eq_of_key_eq hother h hid
    exact howner
  · exact fun howner => ⟨case, h, howner, rfl⟩

theorem ownsRun_iff {run : EvalRun K} (h : run ∈ db.runs) :
    db.OwnsRun user run.id ↔ run.userId = user := by
  constructor
  · rintro ⟨other, hother, howner, hid⟩
    cases Table.eq_of_key_eq hother h hid
    exact howner
  · exact fun howner => ⟨run, h, howner, rfl⟩

section Reads

theorem mem_datasets_ownPart {dataset : EvalDataset} :
    dataset ∈ (db.ownPart user).datasets ↔ dataset ∈ db.datasets ∧ dataset.userId = user :=
  Table.mem_erase.trans (and_congr_right fun _ => not_not)

theorem mem_cases_ownPart {case : EvalCase} :
    case ∈ (db.ownPart user).cases ↔ case ∈ db.cases ∧ db.OwnsDataset user case.datasetId :=
  Table.mem_erase.trans (and_congr_right fun _ => not_not)

theorem mem_runs_ownPart {run : EvalRun K} :
    run ∈ (db.ownPart user).runs ↔ run ∈ db.runs ∧ run.userId = user :=
  Table.mem_erase.trans (and_congr_right fun _ => not_not)

theorem mem_results_ownPart {row : EvalResult K} :
    row ∈ (db.ownPart user).results ↔ row ∈ db.results ∧ db.OwnsRun user row.runId :=
  Table.mem_erase.trans (and_congr_right fun _ => not_not)

theorem ownsDataset_ownPart {id : Uuid} :
    (db.ownPart user).OwnsDataset user id ↔ db.OwnsDataset user id := by
  constructor
  · rintro ⟨dataset, hdataset, howns⟩
    exact ⟨dataset, (mem_datasets_ownPart.mp hdataset).1, howns⟩
  · rintro ⟨dataset, hdataset, howner, hid⟩
    exact ⟨dataset, mem_datasets_ownPart.mpr ⟨hdataset, howner⟩, howner, hid⟩

theorem ownsRun_ownPart {id : Uuid} :
    (db.ownPart user).OwnsRun user id ↔ db.OwnsRun user id := by
  constructor
  · rintro ⟨run, hrun, howns⟩
    exact ⟨run, (mem_runs_ownPart.mp hrun).1, howns⟩
  · rintro ⟨run, hrun, howner, hid⟩
    exact ⟨run, mem_runs_ownPart.mpr ⟨hrun, howner⟩, howner, hid⟩

theorem get?_datasets_ownPart (id : Uuid) :
    (db.ownPart user).datasets.get? id = (db.datasets.get? id).filter (·.userId = user) := by
  refine (Table.get?_erase _ _ id).trans (congrArg (Option.filter · _) (funext fun dataset => ?_))
  exact decide_eq_decide.mpr not_not

theorem get?_cases_ownPart (id : Uuid) :
    (db.ownPart user).cases.get? id =
      (db.cases.get? id).filter (db.OwnsDataset user ·.datasetId) := by
  refine (Table.get?_erase _ _ id).trans (congrArg (Option.filter · _) (funext fun case => ?_))
  exact decide_eq_decide.mpr not_not

theorem get?_runs_ownPart (id : Uuid) :
    (db.ownPart user).runs.get? id = (db.runs.get? id).filter (·.userId = user) := by
  refine (Table.get?_erase _ _ id).trans (congrArg (Option.filter · _) (funext fun run => ?_))
  exact decide_eq_decide.mpr not_not

theorem casesOf_ownPart {id : Uuid} (h : db.OwnsDataset user id) :
    (db.ownPart user).casesOf id = db.casesOf id := by
  refine Table.filter_erase fun case _ hcase => not_not.mpr ?_
  rw [of_decide_eq_true hcase]
  exact h

theorem activeCases_ownPart {id : Uuid} (h : db.OwnsDataset user id) :
    (db.ownPart user).activeCases id = db.activeCases id := by
  rw [activeCases_eq, activeCases_eq, casesOf_ownPart h]

theorem datasetStats_ownPart {id : Uuid} (h : db.OwnsDataset user id) :
    (db.ownPart user).datasetStats id = db.datasetStats id := by
  unfold datasetStats caseCounts
  rw [casesOf_ownPart h]

theorem resultRows_ownPart {id : Uuid} (h : db.OwnsRun user id) :
    resultRows (db.ownPart user) id = resultRows db id := by
  refine congrArg (List.map _) (Table.filter_erase fun row _ hrow => not_not.mpr ?_)
  rw [of_decide_eq_true hrow]
  exact h

end Reads

section Kept

variable {db' : EvalDatabase K}

theorem Keeps.ownsDataset_iff (h : db.Keeps db') {dataset : EvalDataset}
    (hdataset : dataset ∈ db.datasets) :
    db'.OwnsDataset user dataset.id ↔ db.OwnsDataset user dataset.id := by
  obtain ⟨kept, hkept, heq⟩ := h.datasets dataset hdataset
  have hsame : kept.id = dataset.id ∧ kept.userId = dataset.userId := by
    rw [← heq]
    exact ⟨rfl, rfl⟩
  rw [← hsame.1, EvalDatabase.ownsDataset_iff hkept, hsame.1, EvalDatabase.ownsDataset_iff hdataset,
    hsame.2]

theorem Keeps.ownsRun_iff (h : db.Keeps db') {run : EvalRun K} (hrun : run ∈ db.runs) :
    db'.OwnsRun user run.id ↔ db.OwnsRun user run.id := by
  obtain ⟨kept, hkept, hid, _, huser, _⟩ := h.runs run hrun
  rw [← hid, EvalDatabase.ownsRun_iff hkept, hid, EvalDatabase.ownsRun_iff hrun, huser]

theorem Keeps.cases_erase (h : db.Keeps db') (hsound : db.Sound) (user : Uuid) :
    db.cases.erase (¬ db'.OwnsDataset user ·.datasetId) = (db.ownPart user).cases := by
  refine Table.erase_congr fun case hcase => not_congr ?_
  obtain ⟨dataset, hdataset, hid⟩ := hsound.filed case hcase
  rw [← hid]
  exact h.ownsDataset_iff hdataset

theorem Keeps.results_erase (h : db.Keeps db') (hsound : db.Sound) (user : Uuid) :
    db.results.erase (¬ db'.OwnsRun user ·.runId) = (db.ownPart user).results := by
  refine Table.erase_congr fun row hrow => not_congr ?_
  obtain ⟨run, hrun, hid, _⟩ := hsound.recorded row hrow
  rw [← hid]
  exact h.ownsRun_iff hrun

end Kept

section Writes

attribute [ext] EvalDatabase

variable {scope : RunScope} {write : EvalWrite K} {writes : List (EvalWrite K)}

structure Hosts (db : EvalDatabase K) (scope : RunScope) : Prop where
  sound : db.Sound
  fits : scope.Fits db
  anchors : db.Anchors scope

theorem Hosts.apply (h : db.Hosts scope) (hwithin : scope.Within write) :
    (db.apply write).Hosts scope :=
  ⟨h.sound.apply h.fits h.anchors hwithin, h.fits.apply hwithin, h.anchors.apply write⟩

theorem Hosts.applyAll (h : db.Hosts scope) (hwithin : ∀ write ∈ writes, scope.Within write) :
    (db.applyAll writes).Hosts scope := by
  induction writes generalizing db with
  | nil => exact h
  | cons write writes ih =>
    obtain ⟨hwrite, hrest⟩ := List.forall_mem_cons.mp hwithin
    exact ih (h.apply hwrite) hrest

theorem Hosts.ownsDataset (h : db.Hosts scope) : db.OwnsDataset scope.userId scope.datasetId := by
  obtain ⟨dataset, hdataset, hid, howner⟩ := h.anchors
  exact ⟨dataset, hdataset, howner, hid⟩

theorem Hosts.ownsRun_iff (h : db.Hosts scope) (hstored : scope.stored) :
    db.OwnsRun user scope.runId ↔ scope.userId = user := by
  obtain ⟨run, hrun, hid⟩ := h.fits.stored hstored
  have hholds := h.fits.runs run hrun hid
  rw [← hid, EvalDatabase.ownsRun_iff hrun, hholds.userId]

theorem Hosts.ownPart_apply (h : db.Hosts scope) (hwithin : scope.Within write) :
    (db.apply write).ownPart scope.userId = (db.ownPart scope.userId).apply write := by
  have hkeeps := keeps_apply db write
  have hcases := hkeeps.cases_erase h.sound scope.userId
  have hresults := hkeeps.results_erase h.sound scope.userId
  cases write with
  | insertRun run =>
    refine EvalDatabase.ext rfl rfl hcases ?_ hresults
    refine Table.erase_insert (not_not.mpr hwithin.userId) fun old hold hid => not_not.mpr ?_
    exact (h.fits.runs old hold (hid.trans hwithin.id)).userId
  | updateRun id changes =>
    refine EvalDatabase.ext rfl rfl hcases ?_ hresults
    refine Table.erase_modify (fun run => by split <;> rfl) fun run _ => ?_
    split <;> exact Iff.rfl
  | insertResult row =>
    obtain ⟨hstored, hrunId, _⟩ := hwithin
    have howns : db.OwnsRun scope.userId row.runId := by
      rw [hrunId]
      exact (h.ownsRun_iff hstored).mpr rfl
    refine EvalDatabase.ext rfl rfl hcases rfl ?_
    refine Table.erase_insert (not_not.mpr howns) fun old _ hkey => not_not.mpr ?_
    have hsame : old.runId = row.runId := congrArg Prod.fst hkey
    rw [hsame]
    exact howns
  | setCaseCount datasetId caseCount =>
    refine EvalDatabase.ext rfl ?_ hcases rfl hresults
    refine Table.erase_modify (fun dataset => by split <;> rfl) fun dataset _ => ?_
    split <;> exact Iff.rfl

theorem Hosts.ownPart_apply_other (h : db.Hosts scope) (hother : scope.userId ≠ user)
    (hwithin : scope.Within write) : (db.apply write).ownPart user = db.ownPart user := by
  have hkeeps := keeps_apply db write
  have hcases := hkeeps.cases_erase h.sound user
  have hresults := hkeeps.results_erase h.sound user
  cases write with
  | insertRun run =>
    refine EvalDatabase.ext rfl rfl hcases ?_ hresults
    exact Table.erase_insert_of (hwithin.userId ▸ hother)
  | updateRun id changes =>
    refine EvalDatabase.ext rfl rfl hcases ?_ hresults
    refine Table.erase_modify_of (fun run => by split <;> rfl) (fun run _ => ?_)
      fun run hrun hmine => if_neg fun hid => ?_
    · split <;> exact Iff.rfl
    · have hholds := h.fits.runs run hrun (hid.trans hwithin)
      exact hother (hholds.userId.symm.trans (of_not_not hmine))
  | insertResult row =>
    obtain ⟨hstored, hrunId, _⟩ := hwithin
    refine EvalDatabase.ext rfl rfl hcases rfl ?_
    refine Table.erase_insert_of fun howns => hother ?_
    rw [hrunId] at howns
    exact (h.ownsRun_iff hstored).mp howns
  | setCaseCount datasetId caseCount =>
    obtain ⟨hdatasetId, _⟩ := hwithin
    refine EvalDatabase.ext rfl ?_ hcases rfl hresults
    refine Table.erase_modify_of (fun dataset => by split <;> rfl) (fun dataset _ => ?_)
      fun dataset hdataset hmine => if_neg fun hid => ?_
    · split <;> exact Iff.rfl
    · obtain ⟨anchor, hanchor, hanchorId, howner⟩ := h.anchors
      cases Table.eq_of_key_eq hdataset hanchor ((hid.trans hdatasetId).trans hanchorId.symm)
      exact hother (howner.symm.trans (of_not_not hmine))

theorem Hosts.ownPart_applyAll (h : db.Hosts scope) (hwithin : ∀ write ∈ writes, scope.Within write) :
    (db.applyAll writes).ownPart scope.userId = (db.ownPart scope.userId).applyAll writes := by
  induction writes generalizing db with
  | nil => rfl
  | cons write writes ih =>
    obtain ⟨hwrite, hrest⟩ := List.forall_mem_cons.mp hwithin
    rw [applyAll_cons, applyAll_cons, ih (h.apply hwrite) hrest, h.ownPart_apply hwrite]

theorem Hosts.ownPart_applyAll_other (h : db.Hosts scope) (hother : scope.userId ≠ user)
    (hwithin : ∀ write ∈ writes, scope.Within write) :
    (db.applyAll writes).ownPart user = db.ownPart user := by
  induction writes generalizing db with
  | nil => rfl
  | cons write writes ih =>
    obtain ⟨hwrite, hrest⟩ := List.forall_mem_cons.mp hwithin
    rw [applyAll_cons, ih (h.apply hwrite) hrest, h.ownPart_apply_other hother hwrite]

theorem Hosts.accepts_ownPart (h : db.Hosts scope) (hwithin : scope.Within write) :
    (db.ownPart scope.userId).Accepts write ↔ db.Accepts write := by
  cases write with
  | insertRun run =>
    change (db.ownPart scope.userId).runs.get? run.id = none ↔ db.runs.get? run.id = none
    rw [get?_runs_ownPart]
    cases hget : db.runs.get? run.id with
    | none => exact Iff.rfl
    | some old =>
      obtain ⟨hold, hid⟩ := Table.get?_eq_some_iff.mp hget
      have hholds := h.fits.runs old hold (hid.trans hwithin.id)
      simp [hholds.userId]
  | updateRun id changes => exact Iff.rfl
  | insertResult row =>
    obtain ⟨hstored, hrunId, _⟩ := hwithin
    refine and_congr_left fun _ => ?_
    rw [Table.get?_eq_none_iff, Table.get?_eq_none_iff]
    refine ⟨fun hfree old hold hkey => hfree old (mem_results_ownPart.mpr ⟨hold, ?_⟩) hkey,
      fun hfree old hold => hfree old (mem_results_ownPart.mp hold).1⟩
    have hsame : old.runId = row.runId := congrArg Prod.fst hkey
    rw [hsame, hrunId]
    exact (h.ownsRun_iff hstored).mpr rfl
  | setCaseCount datasetId caseCount => exact Iff.rfl

theorem Hosts.acceptsAll_ownPart (h : db.Hosts scope)
    (hwithin : ∀ write ∈ writes, scope.Within write) :
    (db.ownPart scope.userId).AcceptsAll writes ↔ db.AcceptsAll writes := by
  induction writes generalizing db with
  | nil => exact Iff.rfl
  | cons write writes ih =>
    obtain ⟨hwrite, hrest⟩ := List.forall_mem_cons.mp hwithin
    refine and_congr (h.accepts_ownPart hwrite) ?_
    rw [← h.ownPart_apply hwrite]
    exact ih (h.apply hwrite) hrest

end Writes

end EvalDatabase

section Sessions

variable {K : Type} {scope : RunScope} {db : EvalDatabase K} {w : EvalWorld K}

open EvalDatabase

def EvalWorld.ownPart (user : Uuid) (w : EvalWorld K) : EvalWorld K :=
  { w with database := w.database.ownPart user }

@[simp] theorem EvalWorld.session_ownPart (user : Uuid) (w : EvalWorld K) :
    (w.ownPart user).session = w.session := rfl

namespace RunScope

theorem Serves.hosts (h : scope.Serves db w) (hhosts : db.Hosts scope) :
    w.database.Hosts scope := by
  obtain ⟨writes, hwithin, hdatabase⟩ := h.committed
  rw [hdatabase]
  exact hhosts.applyAll hwithin

theorem Serves.hosts_view (h : scope.Serves db w) (hhosts : db.Hosts scope) :
    w.view.Hosts scope := (h.hosts hhosts).applyAll h.flushed

theorem Serves.view_ownPart (h : scope.Serves db w) (hhosts : db.Hosts scope) :
    (w.ownPart scope.userId).view = w.view.ownPart scope.userId :=
  ((h.hosts hhosts).ownPart_applyAll h.flushed).symm

variable [DecidableEq K]

theorem flushUnsent_ownPart (hhosts : db.Hosts scope) (h : scope.Serves db w)
    (fault : Option PyException) :
    flushUnsent fault (w.ownPart scope.userId) =
      ((flushUnsent fault w).1, (flushUnsent fault w).2.ownPart scope.userId) := by
  have haccepts : (w.ownPart scope.userId).view.AcceptsAll w.session.unsent ↔
      w.view.AcceptsAll w.session.unsent := by
    rw [h.view_ownPart hhosts]
    exact (h.hosts_view hhosts).acceptsAll_ownPart h.unsent
  unfold flushUnsent
  rw [EvalWorld.session_ownPart]
  split
  · rfl
  · cases w.session.health with
    | inactive => rfl
    | aborted => rfl
    | active =>
      cases fault with
      | some e => rfl
      | none =>
        by_cases hall : w.view.AcceptsAll w.session.unsent
        · simp only [if_pos hall, if_pos (haccepts.mpr hall)]
          rfl
        · simp only [if_neg hall, if_neg (mt haccepts.mp hall)]
          rfl

omit [DecidableEq K] in
theorem answer_ownPart (hhosts : db.Hosts scope) {fault : Option PyException} {query : EvalQuery}
    (hasks : scope.asks (.select fault query : EvalOp K)) :
    query.answer (db.ownPart scope.userId) = query.answer db := by
  cases query with
  | dataset id =>
    obtain rfl : id = scope.datasetId := hasks
    obtain ⟨dataset, hdataset, hid, howner⟩ := hhosts.anchors
    change (db.ownPart scope.userId).datasets.get? scope.datasetId = db.datasets.get? scope.datasetId
    rw [get?_datasets_ownPart, ← hid, Table.get?_key hdataset]
    simp [howner]
  | activeCount id =>
    obtain rfl : id = scope.datasetId := hasks
    exact congrArg List.length (activeCases_ownPart hhosts.ownsDataset)
  | activeCases id =>
    obtain rfl : id = scope.datasetId := hasks
    exact activeCases_ownPart hhosts.ownsDataset
  | knowledge => rfl

omit [DecidableEq K] in
theorem selectRows_ownPart (hhosts : db.Hosts scope) (h : scope.Serves db w)
    {fault : Option PyException} {query : EvalQuery}
    (hasks : scope.asks (.select fault query : EvalOp K)) :
    selectRows fault query (w.ownPart scope.userId) =
      ((selectRows fault query w).1, (selectRows fault query w).2.ownPart scope.userId) := by
  have hanswer : query.answer (w.ownPart scope.userId).view = query.answer w.view := by
    rw [h.view_ownPart hhosts]
    exact answer_ownPart (h.hosts_view hhosts) hasks
  unfold selectRows
  rw [hanswer, EvalWorld.session_ownPart]
  cases w.session.health.usable with
  | error e => rfl
  | ok _ => cases fault <;> rfl

theorem serveEval_ownPart (hhosts : db.Hosts scope) (op : EvalOp K) (hasks : scope.asks op)
    (h : scope.Serves db w) :
    serveEval op (w.ownPart scope.userId) =
      ((serveEval op w).1, (serveEval op w).2.ownPart scope.userId) := by
  cases op with
  | getRun fault id =>
    have hget : (w.ownPart scope.userId).view.runs.get? id = w.view.runs.get? id := by
      rw [h.view_ownPart hhosts, get?_runs_ownPart]
      cases hfound : w.view.runs.get? id with
      | none => rfl
      | some run =>
        obtain ⟨hrun, hid⟩ := Table.get?_eq_some_iff.mp hfound
        have hholds := (h.hosts_view hhosts).fits.runs run hrun (hid.trans hasks)
        simp [hholds.userId]
    simp only [serveEval, hget, EvalWorld.session_ownPart]
    cases w.session.run with
    | some tracked => rfl
    | none =>
      cases w.session.health.usable with
      | error e => rfl
      | ok _ =>
        cases fault with
        | some e => rfl
        | none => cases w.view.runs.get? id <;> rfl
  | assign f => rfl
  | add write => rfl
  | track run => rfl
  | readAttributes =>
    simp only [serveEval, EvalWorld.session_ownPart]
    cases w.session.health <;> rfl
  | select fault query =>
    have hflush := flushUnsent_ownPart hhosts h none
    have hsent := h.flushUnsent none
    rcases hresult : flushUnsent none w with ⟨e | _, sent⟩
    · rw [hresult] at hflush
      simp only [serveEval, hresult, hflush]
    · rw [hresult] at hflush hsent
      simp only [serveEval, hresult, hflush]
      exact selectRows_ownPart hhosts hsent hasks
  | flush fault => exact flushUnsent_ownPart hhosts h fault
  | commit fault =>
    have hflush := flushUnsent_ownPart hhosts h fault
    have hsent := h.flushUnsent fault
    rcases hresult : flushUnsent fault w with ⟨e | _, sent⟩
    · rw [hresult] at hflush
      simp only [serveEval, hresult, hflush]
    · rw [hresult] at hflush hsent
      have hcommit : (sent.ownPart scope.userId).commit = sent.commit.ownPart scope.userId := by
        change EvalWorld.mk (sent.ownPart scope.userId).view sent.session.settled = _
        rw [hsent.view_ownPart hhosts]
        rfl
      simp only [serveEval, hresult, hflush, EvalWorld.session_ownPart]
      cases sent.session.health with
      | inactive => rfl
      | aborted => rfl
      | active =>
        cases fault with
        | none =>
          dsimp only
          rw [hcommit]
        | some e => rfl
  | rollback => rfl

theorem execEval_ownPart {α : Type} (hhosts : db.Hosts scope) {program : EvalProgram K α}
    {returns : α → Prop} (hprogram : program.Abides (scope.contract K) returns)
    (h : scope.Serves db w) :
    execEval program (w.ownPart scope.userId) =
      ((execEval program w).1, (execEval program w).2.ownPart scope.userId) := by
  have hran := hprogram.simulates serveEval serveEval
    (fun w w' => scope.Serves db w ∧ w' = w.ownPart scope.userId)
    (fun op w w' hasks hrel => by
      obtain ⟨hserves, rfl⟩ := hrel
      obtain ⟨hserved, hreplies⟩ := hserves.serve hhosts.fits op hasks
      rw [serveEval_ownPart hhosts op hasks hserves]
      exact ⟨rfl, ⟨hserved, rfl⟩, hreplies⟩)
    (s := w) (t := w.ownPart scope.userId) ⟨h, rfl⟩
  exact Prod.ext hran.1 hran.2.2

end RunScope

end Sessions

end YCStudio
