import YCStudio.Evaluation.TenantPart

namespace YCStudio

open EvalDatabase

namespace EvalDatabase

variable {K : Type} {db db' : EvalDatabase K} {user datasetId : Uuid}

theorem ownsCase_ownPart {id : Uuid} :
    (db.ownPart user).OwnsCase user id ↔ db.OwnsCase user id := by
  constructor
  · rintro ⟨case, hcase, _, hid⟩
    obtain ⟨hmem, howns⟩ := mem_cases_ownPart.mp hcase
    exact ⟨case, hmem, howns, hid⟩
  · rintro ⟨case, hcase, howns, hid⟩
    exact ⟨case, mem_cases_ownPart.mpr ⟨hcase, howns⟩, ownsDataset_ownPart.mpr howns, hid⟩

variable (db) in
theorem ownsDataset_setCaseCount {caseCount : Nat} {id : Uuid} :
    (db.apply (.setCaseCount datasetId caseCount)).OwnsDataset user id ↔
      db.OwnsDataset user id := by
  constructor
  · rintro ⟨dataset, hdataset, hboth⟩
    obtain ⟨old, hold, rfl⟩ := mem_setCaseCount.mp hdataset
    refine ⟨old, hold, ?_⟩
    split at hboth <;> exact hboth
  · rintro ⟨dataset, hdataset, howner, hid⟩
    exact exists_setCaseCount (p := fun id' userId => userId = user ∧ id' = id)
      ⟨dataset, hdataset, howner, hid⟩

theorem ownPart_setCaseCount {caseCount : Nat} :
    (db.apply (.setCaseCount datasetId caseCount)).ownPart user =
      (db.ownPart user).apply (.setCaseCount datasetId caseCount) := by
  refine EvalDatabase.ext rfl ?_ ?_ rfl rfl
  · refine Table.erase_modify (fun dataset => by split <;> rfl) fun dataset _ => ?_
    split <;> exact Iff.rfl
  · exact Table.erase_congr fun case _ => not_congr (ownsDataset_setCaseCount db)

theorem ownPart_revise (cases : Table EvalCase.id) (h : db.OwnsDataset user datasetId) :
    ({ db with cases }.refreshDatasetCaseCount datasetId).ownPart user =
      { db.ownPart user with
        cases := cases.erase (¬ db.OwnsDataset user ·.datasetId)
        }.refreshDatasetCaseCount datasetId := by
  have hactive : ({ db with cases }.ownPart user).activeCases datasetId =
      { db with cases }.activeCases datasetId := activeCases_ownPart h
  rw [refreshDatasetCaseCount, ownPart_setCaseCount, ← hactive]
  rfl

theorem ownPart_revise_other {cases : Table EvalCase.id} (h : ¬ db.OwnsDataset user datasetId)
    (hcases : cases.erase (¬ db.OwnsDataset user ·.datasetId) = (db.ownPart user).cases) :
    ({ db with cases }.refreshDatasetCaseCount datasetId).ownPart user = db.ownPart user := by
  refine EvalDatabase.ext rfl ?_ ?_ rfl rfl
  · refine Table.erase_modify_of (fun dataset => by split <;> rfl) (fun dataset _ => ?_)
      fun dataset hdataset hmine => if_neg fun hid => h ⟨dataset, hdataset, of_not_not hmine, hid⟩
    split <;> exact Iff.rfl
  · refine Eq.trans (Table.erase_congr fun case _ => not_congr ?_) hcases
    exact ownsDataset_setCaseCount { db with cases }

end EvalDatabase

namespace Corpus

attribute [ext] Corpus

variable {K : Type} {c c' : Corpus K} {user : Uuid} {stream : Nat} {event : EvalEvent K}

def ownPart (user : Uuid) (c : Corpus K) : Corpus K where
  database := c.database.ownPart user
  details id := if c.database.OwnsDataset user id then c.details id else default
  reviewNotes id := if c.database.OwnsCase user id then c.reviewNotes id else none
  runCreatedAt id := if c.database.OwnsRun user id then c.runCreatedAt id else 0

section Foreign

theorem ownPart_eq (hdatabase : c'.database.ownPart user = c.database.ownPart user)
    (hdetails : ∀ id, c.database.OwnsDataset user id → c'.details id = c.details id)
    (hnotes : ∀ id, c.database.OwnsCase user id → c'.reviewNotes id = c.reviewNotes id)
    (hcreated : ∀ id, c.database.OwnsRun user id → c'.runCreatedAt id = c.runCreatedAt id) :
    c'.ownPart user = c.ownPart user := by
  refine Corpus.ext hdatabase ?_ ?_ ?_
  · funext id
    have howns : c'.database.OwnsDataset user id ↔ c.database.OwnsDataset user id := by
      rw [← ownsDataset_ownPart, hdatabase, ownsDataset_ownPart]
    exact ite_congr (propext howns) (hdetails id) fun _ => rfl
  · funext id
    have howns : c'.database.OwnsCase user id ↔ c.database.OwnsCase user id := by
      rw [← ownsCase_ownPart, hdatabase, ownsCase_ownPart]
    exact ite_congr (propext howns) (hnotes id) fun _ => rfl
  · funext id
    have howns : c'.database.OwnsRun user id ↔ c.database.OwnsRun user id := by
      rw [← ownsRun_ownPart, hdatabase, ownsRun_ownPart]
    exact ite_congr (propext howns) (hcreated id) fun _ => rfl

def Foreign (c : Corpus K) (user : Uuid) : EvalAction K → Prop
  | .request userId _ => userId ≠ user
  | .knowledge _ => False
  | .generateEvalDataset _ _ datasetId _ _ => ¬ c.database.OwnsDataset user datasetId
  | .evaluateRun _ runId => ¬ c.database.OwnsRun user runId

theorem details_commit_own {database : EvalDatabase K} {now : Timestamp}
    (h : database.ownPart user = c.database.ownPart user) {id : Uuid}
    (hown : c.database.OwnsDataset user id) : (c.commit now database).details id = c.details id := by
  refine if_neg ?_
  rintro ⟨old, hold, new, hnew, hne⟩
  have howner {dataset : EvalDataset} {db : EvalDatabase K} (hget : dataset ∈ db.datasets.get? id)
      (hown : db.OwnsDataset user id) : (db.ownPart user).datasets.get? id = some dataset := by
    obtain ⟨hmem, hid⟩ := Table.get?_eq_some_iff.mp hget
    rw [← hid] at hown
    rw [get?_datasets_ownPart, Option.mem_def.mp hget]
    simp [(ownsDataset_iff hmem).mp hown]
  have hown' : database.OwnsDataset user id := by
    rw [← ownsDataset_ownPart, h, ownsDataset_ownPart]
    exact hown
  have hsame := howner hnew hown'
  rw [h, howner hold hown] at hsame
  cases hsame
  exact hne rfl

theorem Foreign.actor {action : EvalAction K} (h : c.Foreign user action) {userId : Uuid}
    (hactor : action.actor = some userId) : userId ≠ user := by
  cases action with
  | request requester request =>
    cases hactor
    exact h
  | _ => cases hactor

theorem Changes.foreign (h : c.Changes stream event c') (hsettled : c.Settled stream)
    (hforeign : c.Foreign user event.action) : c'.ownPart user = c.ownPart user := by
  obtain ⟨hsound, hpredates⟩ := hsettled
  have hkeeps := (h.keeps hpredates).database
  cases h with
  | nothing => rfl
  | knowledge change asked =>
    rw [asked] at hforeign
    exact hforeign.elim
  | dataset dataset details id caseCount owner known =>
    have hother : dataset.userId ≠ user := hforeign.actor owner
    refine ownPart_eq ?_ (fun other hown => ?_) (fun _ _ => rfl) fun _ _ => rfl
    · exact EvalDatabase.ext rfl (Table.erase_insert_of hother) (hkeeps.cases_erase hsound user) rfl rfl
    · obtain ⟨mine, hmine, _, rfl⟩ := hown
      refine if_neg fun heq => ?_
      have hstream := hpredates.datasets mine hmine
      rw [heq, id] at hstream
      exact Nat.lt_irrefl stream hstream
  | cases dataset stored fills owner created ids rows =>
    have hother : ¬ c.database.OwnsDataset user dataset.id := by
      cases haction : event.action with
      | request userId request =>
        rw [haction] at hforeign owner
        rw [ownsDataset_iff stored, owner userId rfl]
        exact hforeign
      | generateEvalDataset shuffler generate datasetId count seed =>
        rw [haction] at hforeign fills
        obtain rfl : datasetId = dataset.id := fills
        exact hforeign
      | _ =>
        rw [haction] at fills
        exact fills.elim
    have hdatabase : ({ c.database with
        cases := c.database.cases.insertAll (created.map ReviewedCase.toEvalCase)
        }.refreshDatasetCaseCount dataset.id).ownPart user = c.database.ownPart user := by
      refine ownPart_revise_other hother (Table.erase_insertAll_of fun case hcase => ?_)
      obtain ⟨row, hrow, rfl⟩ := List.mem_map.mp hcase
      rw [(rows row hrow).datasetId]
      exact hother
    refine ownPart_eq hdatabase (fun id hown => details_commit_own hdatabase hown)
      (fun id hown => reviewNotes_note fun row hrow heq => ?_) fun _ _ => rfl
    obtain ⟨case, hcase, _, rfl⟩ := hown
    have hstream := stream_of_mem_draws (ids ▸ List.mem_map_of_mem hrow)
    rw [heq] at hstream
    exact absurd hstream (hpredates.cases case hcase).ne
  | review dataset stored case filed belongs request asked =>
    rw [asked] at hforeign
    have hother : ¬ c.database.OwnsDataset user case.datasetId := by
      rw [belongs, ownsDataset_iff stored]
      exact hforeign
    have hdatabase : ({ c.database with
        cases := c.database.cases.put { case with isActive := request.isActive }
        }.refreshDatasetCaseCount case.datasetId).ownPart user = c.database.ownPart user := by
      refine ownPart_revise_other hother (Table.erase_put_of hother fun old hold hid => ?_)
      cases Table.eq_of_key_eq hold filed hid
      exact hother
    refine ownPart_eq hdatabase (fun id hown => details_commit_own hdatabase hown)
      (fun id hown => reviewNotes_note ?_) fun _ _ => rfl
    obtain ⟨mine, hmine, howns, rfl⟩ := hown
    rintro row hrow heq
    cases List.mem_singleton.mp hrow
    cases Table.eq_of_key_eq filed hmine heq
    exact hother howns
  | launch scope fits anchors owner runId created failed withinCreated withinFailed =>
    have hother : scope.userId ≠ user := hforeign.actor owner
    have hhosts : c.database.Hosts scope := ⟨hsound, fits, anchors⟩
    have hall : ∀ write ∈ created ++ failed, scope.Within write := fun write hwrite =>
      (List.mem_append.mp hwrite).elim (withinCreated write) (withinFailed write)
    refine ownPart_eq (hhosts.ownPart_applyAll_other hother hall) (fun id hown => ?_)
      (fun _ _ => rfl) fun id hown => ?_
    · exact details_commit_own (hhosts.ownPart_applyAll_other hother withinCreated) hown
    · obtain ⟨mine, hmine, _, rfl⟩ := hown
      refine if_neg fun heq => ?_
      have hstream := hpredates.runs mine hmine
      rw [heq, runId] at hstream
      exact Nat.lt_irrefl stream hstream
  | evaluate scope fits anchors asked stored writes within =>
    obtain ⟨rt, haction⟩ := asked
    rw [haction] at hforeign
    obtain ⟨run, hrun, hid⟩ := stored
    have hother : scope.userId ≠ user := by
      rintro rfl
      exact hforeign ⟨run, hrun, (fits.runs run hrun hid).userId, hid⟩
    have hdatabase : (c.database.applyAll writes).ownPart user = c.database.ownPart user :=
      Hosts.ownPart_applyAll_other ⟨hsound, fits, anchors⟩ hother within
    exact ownPart_eq hdatabase (fun id hown => details_commit_own hdatabase hown) (fun _ _ => rfl)
      fun _ _ => rfl

end Foreign

section Own

variable {now : Timestamp} {datasetId : Uuid}

theorem get?_own {db : EvalDatabase K} {id : Uuid} (h : db.OwnsDataset user id) :
    (db.ownPart user).datasets.get? id = db.datasets.get? id := by
  obtain ⟨dataset, hdataset, howner, rfl⟩ := h
  rw [get?_datasets_ownPart, Table.get?_key hdataset]
  simp [howner]

theorem get?_not_own {db : EvalDatabase K} {id : Uuid} (h : ¬ db.OwnsDataset user id) :
    (db.ownPart user).datasets.get? id = none := by
  rw [get?_datasets_ownPart, Option.filter_eq_none_iff]
  intro dataset hget howner
  obtain ⟨hdataset, hid⟩ := Table.get?_eq_some_iff.mp hget
  exact h ⟨dataset, hdataset, of_decide_eq_true howner, hid⟩

theorem details_commit_ownPart (now : Timestamp) {database : EvalDatabase K}
    (hsame : ∀ id, database.OwnsDataset user id ↔ c.database.OwnsDataset user id) :
    ((c.ownPart user).commit now (database.ownPart user)).details =
      fun id => if database.OwnsDataset user id then (c.commit now database).details id
        else default := by
  funext id
  by_cases hown : c.database.OwnsDataset user id
  · have hrecounts : (c.ownPart user).recounts (database.ownPart user) id ↔
        c.recounts database id := by
      unfold recounts
      rw [get?_own ((hsame id).mpr hown)]
      change (∃ old ∈ (c.database.ownPart user).datasets.get? id, _) ↔ _
      rw [get?_own hown]
    have hdetails : (c.ownPart user).details id = c.details id := if_pos hown
    rw [if_pos ((hsame id).mpr hown)]
    simp only [commit, hrecounts, hdetails]
  · have hnone : ¬ (c.ownPart user).recounts (database.ownPart user) id := by
      rintro ⟨old, hold, _⟩
      cases (get?_not_own hown).symm.trans hold
    have hdetails : (c.ownPart user).details id = default := if_neg hown
    rw [if_neg (mt (hsame id).mp hown)]
    simp only [commit, if_neg hnone, hdetails]

theorem revise_ownPart {cases : Table EvalCase.id} {noted : List ReviewedCase}
    (hown : c.database.OwnsDataset user datasetId)
    (hnoted : ∀ row ∈ noted, { c.database with cases }.OwnsCase user row.id)
    (hothers : ∀ id, (∀ row ∈ noted, row.id ≠ id) →
      ({ c.database with cases }.OwnsCase user id ↔ c.database.OwnsCase user id)) :
    ((c.commit now ({ c.database with cases }.refreshDatasetCaseCount datasetId)).note
        noted).ownPart user =
      ((c.ownPart user).commit now ({ c.database.ownPart user with
        cases := cases.erase (¬ c.database.OwnsDataset user ·.datasetId)
        }.refreshDatasetCaseCount datasetId)).note noted := by
  have hdatabase := ownPart_revise cases hown
  have howns (id : Uuid) :
      ({ c.database with cases }.refreshDatasetCaseCount datasetId).OwnsDataset user id ↔
        c.database.OwnsDataset user id :=
    ownsDataset_setCaseCount { c.database with cases }
  refine Corpus.ext hdatabase ?_ ?_ rfl
  · have hdetails := details_commit_ownPart (c := c) now howns
    rw [hdatabase] at hdetails
    exact hdetails.symm
  · funext id
    have hcase : ({ c.database with cases }.refreshDatasetCaseCount datasetId).OwnsCase user id ↔
        { c.database with cases }.OwnsCase user id :=
      exists_congr fun case => and_congr_right fun _ => and_congr_left fun _ => howns case.datasetId
    by_cases hnew : ∃ row ∈ noted, row.id = id
    · obtain ⟨row, hrow, rfl⟩ := hnew
      have hfound : (noted.find? (·.id = row.id)).isSome :=
        List.find?_isSome.mpr ⟨row, hrow, decide_eq_true rfl⟩
      obtain ⟨found, hfind⟩ := Option.isSome_iff_exists.mp hfound
      refine (if_pos (hcase.mpr (hnoted row hrow))).trans ?_
      simp only [note, hfind]
      rfl
    · have hnone : ∀ row ∈ noted, row.id ≠ id := fun row hrow heq => hnew ⟨row, hrow, heq⟩
      rw [reviewNotes_note hnone]
      exact ite_congr (propext (hcase.trans (hothers id hnone))) (fun _ => reviewNotes_note hnone)
        fun _ => rfl

variable (now) in
theorem insertCases_ownPart (hsettled : c.Settled stream)
    (hown : c.database.OwnsDataset user datasetId) {created : List ReviewedCase}
    (ids : created.map (·.id) = draws stream created.length)
    (rows : ∀ row ∈ created, row.Created datasetId) :
    ((c.ownPart user).commit now ({ (c.ownPart user).database with
        cases := (c.ownPart user).database.cases.insertAll (created.map ReviewedCase.toEvalCase)
        }.refreshDatasetCaseCount datasetId)).note created =
      ((c.commit now ({ c.database with
        cases := c.database.cases.insertAll (created.map ReviewedCase.toEvalCase)
        }.refreshDatasetCaseCount datasetId)).note created).ownPart user := by
  have hfresh := fresh_created hsettled.2 ids
  have hnodup := nodup_created ids
  have hmem {case : EvalCase} :
      case ∈ c.database.cases.insertAll (created.map ReviewedCase.toEvalCase) ↔
        case ∈ c.database.cases ∨ case ∈ created.map ReviewedCase.toEvalCase := by
    rw [Table.mem_def, Table.rows_insertAll hfresh hnodup]
    exact List.mem_append
  have hmine : ∀ row ∈ created, c.database.OwnsDataset user row.datasetId := fun row hrow => by
    rw [(rows row hrow).datasetId]
    exact hown
  have herase : (c.database.cases.insertAll (created.map ReviewedCase.toEvalCase)).erase
        (¬ c.database.OwnsDataset user ·.datasetId) =
      (c.database.ownPart user).cases.insertAll (created.map ReviewedCase.toEvalCase) := by
    refine Table.erase_insertAll (fun case hcase => not_not.mpr ?_) hfresh hnodup
    obtain ⟨row, hrow, rfl⟩ := List.mem_map.mp hcase
    exact hmine row hrow
  rw [revise_ownPart hown, herase]
  · rfl
  · exact fun row hrow =>
      ⟨row.toEvalCase, hmem.mpr (Or.inr (List.mem_map_of_mem hrow)), hmine row hrow, rfl⟩
  · intro id hother
    constructor
    · rintro ⟨case, hcase, howns, hid⟩
      rcases hmem.mp hcase with hold | hnew
      · exact ⟨case, hold, howns, hid⟩
      · obtain ⟨row, hrow, rfl⟩ := List.mem_map.mp hnew
        exact absurd hid (hother row hrow)
    · rintro ⟨case, hcase, howns, hid⟩
      exact ⟨case, hmem.mpr (Or.inl hcase), howns, hid⟩

theorem putCase_ownPart {case : EvalCase} (hfiled : case ∈ c.database.cases)
    (hown : c.database.OwnsDataset user case.datasetId) (reviewed : ReviewedCase)
    (hid : reviewed.id = case.id) (hsame : reviewed.datasetId = case.datasetId) :
    ((c.ownPart user).commit now ({ (c.ownPart user).database with
        cases := (c.ownPart user).database.cases.put reviewed.toEvalCase
        }.refreshDatasetCaseCount case.datasetId)).note [reviewed] =
      ((c.commit now ({ c.database with cases := c.database.cases.put reviewed.toEvalCase
        }.refreshDatasetCaseCount case.datasetId)).note [reviewed]).ownPart user := by
  have hmem {x : EvalCase} : x ∈ c.database.cases.put reviewed.toEvalCase ↔
      x = reviewed.toEvalCase ∨ (x ∈ c.database.cases ∧ x ≠ case) :=
    Table.mem_put_of_mem hfiled hid.symm
  have hmine : c.database.OwnsDataset user reviewed.datasetId := hsame ▸ hown
  have herase : (c.database.cases.put reviewed.toEvalCase).erase
        (¬ c.database.OwnsDataset user ·.datasetId) =
      (c.database.ownPart user).cases.put reviewed.toEvalCase := by
    refine Table.erase_put (not_not.mpr hmine) fun old hold hkey => not_not.mpr ?_
    cases Table.eq_of_key_eq hold hfiled (hkey.trans hid)
    exact hown
  rw [revise_ownPart hown, herase]
  · rfl
  · intro row hrow
    cases List.mem_singleton.mp hrow
    exact ⟨reviewed.toEvalCase, hmem.mpr (Or.inl rfl), hmine, rfl⟩
  · intro id hother
    have hne : reviewed.id ≠ id := hother reviewed (List.mem_singleton_self _)
    constructor
    · rintro ⟨x, hx, howns, hxid⟩
      rcases hmem.mp hx with rfl | ⟨hold, _⟩
      · exact absurd hxid hne
      · exact ⟨x, hold, howns, hxid⟩
    · rintro ⟨x, hx, howns, hxid⟩
      refine ⟨x, hmem.mpr (Or.inr ⟨hx, ?_⟩), howns, hxid⟩
      rintro rfl
      exact hne (hid.trans hxid)

theorem fresh_dataset (hsettled : c.Settled stream) {dataset : EvalDataset}
    (hid : dataset.id = ⟨stream, 0⟩) : c.database.datasets.Fresh dataset.id := by
  intro other hother heq
  have hstream := hsettled.2.datasets other hother
  rw [heq, hid] at hstream
  exact Nat.lt_irrefl stream hstream

theorem insertDataset_ownPart (hsettled : c.Settled stream) (dataset : EvalDataset)
    (hid : dataset.id = ⟨stream, 0⟩) (howner : dataset.userId = user) (details : DatasetDetails) :
    { c.ownPart user with
      database := { (c.ownPart user).database with
        datasets := (c.ownPart user).database.datasets.insert dataset }
      details := fun id => if id = dataset.id then details else (c.ownPart user).details id } =
    ({ c with
      database := { c.database with datasets := c.database.datasets.insert dataset }
      details := fun id => if id = dataset.id then details else c.details id }).ownPart user := by
  have hsound := hsettled.1
  have hnew := fresh_dataset hsettled hid
  have hmem {other : EvalDataset} : other ∈ c.database.datasets.insert dataset ↔
      other ∈ c.database.datasets ∨ other = dataset := Table.mem_insert hnew
  have hkeeps : c.database.Keeps
      { c.database with datasets := c.database.datasets.insert dataset } :=
    ⟨fun other h => ⟨other, Table.subset_insert _ _ h, rfl⟩, fun case h => ⟨case, h, rfl⟩,
      fun run h => ⟨run, h, rfl, rfl, rfl, rfl⟩, fun _ h => h⟩
  have howns (id : Uuid) (hne : id ≠ dataset.id) :
      { c.database with datasets := c.database.datasets.insert dataset }.OwnsDataset user id ↔
        c.database.OwnsDataset user id := by
    constructor
    · rintro ⟨other, hother, hboth⟩
      rcases hmem.mp hother with hold | rfl
      · exact ⟨other, hold, hboth⟩
      · exact absurd hboth.2.symm hne
    · rintro ⟨other, hother, hboth⟩
      exact ⟨other, hmem.mpr (Or.inl hother), hboth⟩
  refine Corpus.ext (EvalDatabase.ext rfl ?_ (hkeeps.cases_erase hsound user).symm rfl rfl) ?_ ?_ rfl
  · exact (Table.erase_insert (p := fun dataset => dataset.userId ≠ user) (not_not.mpr howner)
      fun other hother heq => absurd heq (hnew other hother)).symm
  · funext id
    by_cases heq : id = dataset.id
    · have hown : { c.database with
          datasets := c.database.datasets.insert dataset }.OwnsDataset user id :=
        ⟨dataset, hmem.mpr (Or.inr rfl), howner, heq.symm⟩
      exact (if_pos heq).trans ((if_pos hown).trans (if_pos heq)).symm
    · refine (if_neg heq).trans ?_
      exact ite_congr (propext (howns id heq).symm) (fun _ => (if_neg heq).symm) fun _ => rfl
  · funext id
    refine ite_congr (propext (exists_congr fun case => and_congr_right fun hcase =>
      and_congr_left fun _ => ?_)) (fun _ => rfl) fun _ => rfl
    obtain ⟨other, hother, hother'⟩ := hsound.filed case hcase
    exact (howns case.datasetId (hother' ▸ hnew other hother)).symm

end Own

end Corpus

def HttpException.veiled (e : HttpException) : HttpException :=
  if e.statusCode = 403 ∨ e.statusCode = 404 then { statusCode := 404, detail := [] } else e

namespace Corpus

section Requests

variable {K : Type} {c : Corpus K} {user : Uuid} {stream : Nat} {now : Timestamp}

structure Mirrors (user : Uuid) (served own : Except HttpException (EvalReply K) × Corpus K) :
    Prop where
  reply : own.1.mapError HttpException.veiled = served.1.mapError HttpException.veiled
  state : own.2 = served.2.ownPart user

theorem ownedDataset_ownPart (c : Corpus K) (user id : Uuid) :
    (∃ dataset, c.database.OwnsDataset user dataset.id ∧
      ownedDataset c.database.datasets id user = .ok dataset ∧
        ownedDataset (c.ownPart user).database.datasets id user = .ok dataset) ∨
      ∃ e e', ownedDataset c.database.datasets id user = .error e ∧
        ownedDataset (c.ownPart user).database.datasets id user = .error e' ∧
          e'.veiled = e.veiled := by
  have hown : (c.ownPart user).database.datasets.get? id =
      (c.database.datasets.get? id).filter (·.userId = user) := get?_datasets_ownPart id
  unfold ownedDataset
  rw [hown]
  cases hget : c.database.datasets.get? id with
  | none => exact Or.inr ⟨_, _, rfl, rfl, rfl⟩
  | some dataset =>
    by_cases howner : dataset.userId = user
    · have hkept : (some dataset).filter (·.userId = user) = some dataset := by simp [howner]
      rw [hkept]
      refine Or.inl ⟨dataset, ?_, if_neg (not_not.mpr howner), if_neg (not_not.mpr howner)⟩
      exact (ownsDataset_iff (Table.get?_eq_some_iff.mp hget).1).mpr howner
    · have hhidden : (some dataset).filter (·.userId = user) = none := by simp [howner]
      rw [hhidden]
      exact Or.inr ⟨_, _, if_pos howner, rfl, rfl⟩

theorem ownedDataset_stranger {id : Uuid} (h : ¬ c.database.OwnsDataset user id) :
    ∃ e, ownedDataset c.database.datasets id user = .error e ∧
      e.veiled = { statusCode := 404, detail := [] } := by
  unfold ownedDataset
  cases hget : c.database.datasets.get? id with
  | none => exact ⟨_, rfl, rfl⟩
  | some dataset =>
    obtain ⟨hdataset, hid⟩ := Table.get?_eq_some_iff.mp hget
    exact ⟨_, if_pos fun howner => h ⟨dataset, hdataset, howner, hid⟩, rfl⟩

theorem datasetResponse_ownPart {dataset : EvalDataset}
    (h : c.database.OwnsDataset user dataset.id) :
    (c.ownPart user).datasetResponse dataset = c.datasetResponse dataset := by
  have hstats : (c.ownPart user).database.datasetStats dataset.id =
      c.database.datasetStats dataset.id := datasetStats_ownPart h
  have hdetails : (c.ownPart user).details dataset.id = c.details dataset.id := if_pos h
  simp only [datasetResponse, refreshDatasetCaseCount, hstats, hdetails]

theorem reviewed_ownPart {case : EvalCase} (h : c.database.OwnsCase user case.id) :
    (c.ownPart user).reviewed case = c.reviewed case := by
  have hnotes : (c.ownPart user).reviewNotes case.id = c.reviewNotes case.id := if_pos h
  rw [reviewed, reviewed, hnotes]

theorem runResponse_ownPart {run : EvalRun K} (h : c.database.OwnsRun user run.id) :
    (c.ownPart user).runResponse run = c.runResponse run := by
  have hcreated : (c.ownPart user).runCreatedAt run.id = c.runCreatedAt run.id := if_pos h
  rw [runResponse, runResponse, hcreated]

theorem mirrors_createEvalDataset (hsettled : c.Settled stream) (request : DatasetCreateRequest) :
    Mirrors user (c.createEvalDataset stream now user request)
      ((c.ownPart user).createEvalDataset stream now user request) := by
  have hknown : (c.ownPart user).database.knowledge = c.database.knowledge := rfl
  unfold createEvalDataset createDataset
  rw [hknown]
  by_cases hnul : NulFree [request.name, request.version, request.constructionMethod]
  · rw [if_neg (not_not.mpr hnul), if_neg (not_not.mpr hnul)]
    by_cases huser : user ∈ c.database.knowledge.users
    · rw [if_neg (not_not.mpr huser), if_neg (not_not.mpr huser)]
      let dataset : EvalDataset := {
        id := ⟨stream, 0⟩
        userId := user
        version := request.version
        caseCount := 0 }
      let stored : Corpus K := { c with
        database := { c.database with datasets := c.database.datasets.insert dataset }
        details := fun id =>
          if id = dataset.id then
            { name := request.name
              constructionMethod := request.constructionMethod
              createdAt := now
              updatedAt := now }
          else c.details id }
      have hstate := insertDataset_ownPart hsettled dataset rfl rfl
        { name := request.name
          constructionMethod := request.constructionMethod
          createdAt := now
          updatedAt := now }
      have hown : stored.database.OwnsDataset user dataset.id :=
        ⟨dataset, (Table.mem_insert (fresh_dataset hsettled rfl)).mpr (Or.inr rfl), rfl, rfl⟩
      refine ⟨?_, hstate⟩
      rw [hstate]
      exact congrArg (fun response => Except.ok (EvalReply.dataset response))
        (datasetResponse_ownPart (c := stored) hown)
    · rw [if_pos huser, if_pos huser]
      exact ⟨rfl, rfl⟩
  · rw [if_pos hnul, if_pos hnul]
    exact ⟨rfl, rfl⟩

theorem addManualCases_ownPart (hsettled : c.Settled stream) {datasetId : Uuid}
    (hown : c.database.OwnsDataset user datasetId) (cases : List ManualCase) :
    (c.ownPart user).addManualCases stream now datasetId cases =
      (c.addManualCases stream now datasetId cases).map
        fun added => (added.1, added.2.ownPart user) := by
  unfold addManualCases
  cases hcreated : manualCases stream now datasetId cases with
  | error e => rfl
  | ok created =>
    obtain ⟨hids, hrows⟩ := manualCases_ok hcreated
    change (if _ then _ else _) = Except.map _ (if _ then _ else _)
    split
    · rfl
    · rw [refreshDatasetCaseCount_eq, refreshDatasetCaseCount_eq]
      exact congrArg (fun state => Except.ok (created, state))
        (insertCases_ownPart now hsettled hown hids hrows)

theorem mirrors_addManualEvalCases (hsettled : c.Settled stream) (datasetId : Uuid)
    (request : ManualCasesRequest) :
    Mirrors user (c.addManualEvalCases stream now user datasetId request)
      ((c.ownPart user).addManualEvalCases stream now user datasetId request) := by
  unfold addManualEvalCases
  obtain ⟨dataset, hown, hok, hok'⟩ | ⟨e, e', herror, herror', hveiled⟩ :=
    ownedDataset_ownPart c user datasetId
  · rw [hok, hok']
    dsimp only
    rw [addManualCases_ownPart hsettled hown]
    cases c.addManualCases stream now dataset.id (request.cases.map ManualCaseInput.tuple) with
    | error e => exact ⟨rfl, rfl⟩
    | ok added => exact ⟨rfl, rfl⟩
  · rw [herror, herror']
    exact ⟨congrArg Except.error hveiled, rfl⟩

theorem reviewCase_ownPart {caseId : Uuid} {case : EvalCase}
    (hget : c.database.cases.get? caseId = some case)
    (hown : c.database.OwnsDataset user case.datasetId) (isActive : Bool)
    (reviewNote : Option Str) :
    (c.ownPart user).reviewCase now caseId isActive reviewNote =
      (c.reviewCase now caseId isActive reviewNote).map
        fun reviewed => (reviewed.1, reviewed.2.ownPart user) := by
  have hfiled := (Table.get?_eq_some_iff.mp hget).1
  have hget' : (c.ownPart user).database.cases.get? caseId = some case := by
    refine (get?_cases_ownPart caseId).trans ?_
    rw [hget]
    simp [hown]
  unfold reviewCase
  rw [hget, hget']
  dsimp only
  split
  · rfl
  · rw [refreshDatasetCaseCount_eq, refreshDatasetCaseCount_eq]
    exact congrArg (fun state => Except.ok (_, state)) (putCase_ownPart hfiled hown
      { case with isActive, reviewNote } rfl rfl)

theorem mirrors_reviewEvalCase (caseId : Uuid) (request : ReviewCaseRequest) :
    Mirrors user (c.reviewEvalCase now user caseId request)
      ((c.ownPart user).reviewEvalCase now user caseId request) := by
  have hget' : (c.ownPart user).database.cases.get? caseId =
      (c.database.cases.get? caseId).filter (c.database.OwnsDataset user ·.datasetId) :=
    get?_cases_ownPart caseId
  unfold reviewEvalCase
  rw [hget']
  cases hget : c.database.cases.get? caseId with
  | none => exact ⟨rfl, rfl⟩
  | some case =>
    by_cases hown : c.database.OwnsDataset user case.datasetId
    · have hkept : (some case).filter (c.database.OwnsDataset user ·.datasetId) = some case := by
        simp [hown]
      rw [hkept]
      dsimp only
      obtain ⟨dataset, _, hok, hok'⟩ | ⟨e, e', herror, herror', hveiled⟩ :=
        ownedDataset_ownPart c user case.datasetId
      · rw [hok, hok']
        dsimp only
        rw [reviewCase_ownPart hget hown]
        cases c.reviewCase now caseId request.isActive request.reviewNote with
        | error e => exact ⟨rfl, rfl⟩
        | ok reviewed => exact ⟨rfl, rfl⟩
      · rw [herror, herror']
        exact ⟨congrArg Except.error hveiled, rfl⟩
    · have hhidden : (some case).filter (c.database.OwnsDataset user ·.datasetId) = none := by
        simp [hown]
      obtain ⟨e, herror, hveiled⟩ := ownedDataset_stranger hown
      rw [hhidden]
      dsimp only
      rw [herror]
      exact ⟨congrArg Except.error hveiled.symm, rfl⟩

theorem mirrors_enqueueSyntheticGeneration (datasetId : Uuid) (request : SyntheticGenerationRequest)
    (fault : Option RedisFault) :
    Mirrors user (c.enqueueSyntheticGeneration user datasetId request fault, c)
      ((c.ownPart user).enqueueSyntheticGeneration user datasetId request fault, c.ownPart user) := by
  refine ⟨?_, rfl⟩
  unfold enqueueSyntheticGeneration
  obtain ⟨dataset, _, hok, hok'⟩ | ⟨e, e', herror, herror', hveiled⟩ :=
    ownedDataset_ownPart c user datasetId
  · rw [hok, hok']
  · rw [herror, herror']
    exact congrArg Except.error hveiled

theorem casesInOrder_ownPart {datasetId : Uuid} (hown : c.database.OwnsDataset user datasetId) :
    (c.ownPart user).casesInOrder datasetId = c.casesInOrder datasetId := by
  have hcases : (c.ownPart user).database.casesOf datasetId = c.database.casesOf datasetId :=
    casesOf_ownPart hown
  unfold casesInOrder
  rw [hcases]
  refine List.map_congr_left fun case hcase => reviewed_ownPart ?_
  rw [List.mem_insertionSort] at hcase
  obtain ⟨hmem, hfiled⟩ := List.mem_filter.mp hcase
  exact ⟨case, hmem, (of_decide_eq_true hfiled) ▸ hown, rfl⟩

theorem mirrors_listEvalCases (datasetId : Uuid) :
    Mirrors user (c.listEvalCases user datasetId, c)
      ((c.ownPart user).listEvalCases user datasetId, c.ownPart user) := by
  refine ⟨?_, rfl⟩
  obtain ⟨dataset, hown, hok, hok'⟩ | ⟨e, e', herror, herror', hveiled⟩ :=
    ownedDataset_ownPart c user datasetId
  · rw [(ownedDataset_ok hok).2.1] at hown
    dsimp only
    rw [listEvalCases_owned hok, listEvalCases_owned hok', casesInOrder_ownPart hown]
  · unfold listEvalCases
    rw [herror, herror']
    exact congrArg Except.error hveiled

theorem insertionSort_congr {α : Type} {r s : α → α → Prop} [DecidableRel r] [DecidableRel s]
    {l : List α} (h : ∀ a ∈ l, ∀ b ∈ l, r a b ↔ s a b) : l.insertionSort r = l.insertionSort s := by
  have hmap := List.map_insertionSort r s id l h
  rwa [List.map_id, List.map_id] at hmap

theorem mirrors_listEvalDatasets :
    Mirrors user (.ok (c.listEvalDatasets user), c)
      (.ok ((c.ownPart user).listEvalDatasets user), c.ownPart user) := by
  refine ⟨congrArg (fun reply => Except.ok reply) ?_, rfl⟩
  have hrows : (c.ownPart user).database.datasets.rows.filter (·.userId = user) =
      c.database.datasets.rows.filter (·.userId = user) :=
    Table.filter_erase fun dataset _ howner => not_not.mpr (of_decide_eq_true howner)
  have howned : ∀ dataset ∈ c.database.datasets.rows.filter (·.userId = user),
      c.database.OwnsDataset user dataset.id := fun dataset hdataset =>
    (ownsDataset_iff (List.mem_filter.mp hdataset).1).mpr
      (of_decide_eq_true (List.mem_filter.mp hdataset).2)
  have hdetails : ∀ dataset ∈ c.database.datasets.rows.filter (·.userId = user),
      (c.ownPart user).details dataset.id = c.details dataset.id :=
    fun dataset hdataset => if_pos (howned dataset hdataset)
  unfold listEvalDatasets
  rw [hrows]
  refine congrArg EvalReply.datasets ?_
  rw [insertionSort_congr (s := fun a b => (c.details b.id).createdAt ≤ (c.details a.id).createdAt)
    fun a ha b hb => by rw [hdetails a ha, hdetails b hb]]
  exact List.map_congr_left fun dataset hdataset =>
    datasetResponse_ownPart (howned dataset ((List.mem_insertionSort _).mp hdataset))

theorem listRuns_ownPart (limit : Nat) : (c.ownPart user).listRuns user limit = c.listRuns user limit := by
  have hrows : (c.ownPart user).database.runs.rows.filter (·.userId = user) =
      c.database.runs.rows.filter (·.userId = user) :=
    Table.filter_erase fun run _ howner => not_not.mpr (of_decide_eq_true howner)
  have hcreated : ∀ run ∈ c.database.runs.rows.filter (·.userId = user),
      (c.ownPart user).runCreatedAt run.id = c.runCreatedAt run.id := fun run hrun =>
    if_pos ((ownsRun_iff (List.mem_filter.mp hrun).1).mpr
      (of_decide_eq_true (List.mem_filter.mp hrun).2))
  unfold listRuns
  rw [hrows]
  refine congrArg (List.take limit) (insertionSort_congr fun a ha b hb => ?_)
  rw [hcreated a ha, hcreated b hb]

theorem mirrors_getEvalRuns (limit : Nat) :
    Mirrors user (.ok (.runs ((c.listRuns user limit).map c.runResponse)), c)
      (.ok (.runs (((c.ownPart user).listRuns user limit).map (c.ownPart user).runResponse)),
        c.ownPart user) := by
  refine ⟨congrArg (fun reply => Except.ok (EvalReply.runs reply)) ?_, rfl⟩
  rw [listRuns_ownPart]
  refine List.map_congr_left fun run hrun => runResponse_ownPart ?_
  have hmem := (List.mem_insertionSort _).mp (List.mem_of_mem_take hrun)
  exact (ownsRun_iff (List.mem_filter.mp hmem).1).mpr (of_decide_eq_true (List.mem_filter.mp hmem).2)

theorem mirrors_getEvalRun (runId : Uuid) :
    Mirrors user (c.getEvalRun user runId, c)
      ((c.ownPart user).getEvalRun user runId, c.ownPart user) := by
  have hget' : (c.ownPart user).database.runs.get? runId =
      (c.database.runs.get? runId).filter (·.userId = user) := get?_runs_ownPart runId
  refine ⟨?_, rfl⟩
  unfold getEvalRun
  rw [hget']
  cases hget : c.database.runs.get? runId with
  | none => rfl
  | some run =>
    by_cases howner : run.userId = user
    · have hkept : (some run).filter (·.userId = user) = some run := by simp [howner]
      have hown := (ownsRun_iff (Table.get?_eq_some_iff.mp hget).1).mpr howner
      rw [hkept]
      dsimp only
      rw [if_neg (not_not.mpr howner), if_neg (not_not.mpr howner), runResponse_ownPart hown]
    · have hhidden : (some run).filter (·.userId = user) = none := by simp [howner]
      rw [hhidden]
      dsimp only
      rw [if_pos howner]
      rfl

section Compared

variable [Field K] [LinearOrder K]

omit [Field K] [LinearOrder K] in
theorem ownsCase_of_result (hsound : c.database.Sound) {run : EvalRun K} (hrun : run ∈ c.database.runs)
    (howner : run.userId = user) {caseId : Uuid}
    (hcase : caseId ∈ (resultRows c.database run.id).map Prod.fst) :
    c.database.OwnsCase user caseId := by
  obtain ⟨row, hrow, hrunId, rfl⟩ := mem_map_resultRows.mp hcase
  obtain ⟨ran, hran, hranId, case, hfiled, hcaseId, hsame⟩ := hsound.recorded row hrow
  cases Table.eq_of_key_eq hran hrun (hranId.trans hrunId)
  obtain ⟨dataset, hdataset, hdatasetId, hdatasetOwner⟩ := hsound.launched run hrun
  exact ⟨case, hfiled, ⟨dataset, hdataset, hdatasetOwner.trans howner, hdatasetId.trans hsame.symm⟩,
    hcaseId⟩

theorem caseDiffs_ownPart {rows rows' : List (Uuid × EvalResult K)}
    (howned : ∀ caseId ∈ comparedCaseIds rows rows', c.database.OwnsCase user caseId) :
    caseDiffs (c.database.ownPart user) rows rows' = caseDiffs c.database rows rows' := by
  have hcases : (c.database.ownPart user).cases.rows.filter (·.id ∈ comparedCaseIds rows rows') =
      c.database.cases.rows.filter (·.id ∈ comparedCaseIds rows rows') :=
    Table.filter_erase fun case hcase hid => not_not.mpr
      ((ownsCase_iff hcase).mp (howned case.id (of_decide_eq_true hid)))
  simp only [caseDiffs, hcases]

theorem compareRuns_ownPart (hsound : c.database.Sound) (runId baseline : Uuid) :
    compareRuns (c.database.ownPart user) runId baseline user =
        compareRuns c.database runId baseline user ∨
      (compareRuns (c.database.ownPart user) runId baseline user = .error evaluationRunsNotFound ∧
        compareRuns c.database runId baseline user = .error comparisonForbidden) := by
  unfold compareRuns
  rw [get?_runs_ownPart, get?_runs_ownPart]
  cases hcurrent : c.database.runs.get? runId with
  | none => exact Or.inl rfl
  | some current =>
    have hcurrentMem := (Table.get?_eq_some_iff.mp hcurrent).1
    cases hbaseline : c.database.runs.get? baseline with
    | none =>
      refine Or.inl ?_
      dsimp only
      cases (some current).filter (·.userId = user) <;> rfl
    | some other =>
      have hotherMem := (Table.get?_eq_some_iff.mp hbaseline).1
      by_cases hmine : current.userId = user
      · have hkept : (some current).filter (·.userId = user) = some current := by simp [hmine]
        rw [hkept]
        by_cases hmine' : other.userId = user
        · have hkept' : (some other).filter (·.userId = user) = some other := by simp [hmine']
          have howned : ∀ caseId ∈ comparedCaseIds (resultRows c.database other.id)
              (resultRows c.database current.id), c.database.OwnsCase user caseId := by
            intro caseId hcase
            rcases mem_comparedCaseIds.mp hcase with hcase | hcase
            · exact ownsCase_of_result hsound hotherMem hmine' hcase
            · exact ownsCase_of_result hsound hcurrentMem hmine hcase
          rw [hkept']
          dsimp only
          rw [resultRows_ownPart ((ownsRun_iff hcurrentMem).mpr hmine),
            resultRows_ownPart ((ownsRun_iff hotherMem).mpr hmine'), caseDiffs_ownPart howned]
          exact Or.inl rfl
        · have hhidden : (some other).filter (·.userId = user) = none := by simp [hmine']
          rw [hhidden]
          exact Or.inr ⟨rfl, if_pos (Or.inr hmine')⟩
      · have hhidden : (some current).filter (·.userId = user) = none := by simp [hmine]
        rw [hhidden]
        exact Or.inr ⟨rfl, if_pos (Or.inl hmine)⟩

theorem mirrors_compareEvalRuns (hsound : c.database.Sound) (runId baseline : Uuid) :
    Mirrors user (c.compareEvalRuns user runId baseline, c)
      ((c.ownPart user).compareEvalRuns user runId baseline, c.ownPart user) := by
  refine ⟨?_, rfl⟩
  unfold compareEvalRuns
  rcases compareRuns_ownPart hsound runId baseline with hsame | ⟨hnone, hforbidden⟩
  · exact congrArg (fun compared => Except.mapError HttpException.veiled
      ((Except.map EvalReply.comparison compared).mapError httpException)) hsame
  · have hown : compareRuns (c.ownPart user).database runId baseline user =
        .error evaluationRunsNotFound := hnone
    rw [hown, hforbidden]
    rfl

end Compared

end Requests

end Corpus

end YCStudio
