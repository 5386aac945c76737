import Mathlib.Data.List.Basic
import YCStudio.Store.Schema

namespace YCStudio

structure ApiError where
  message : Str
  code : Str
  deriving DecidableEq, Repr

inductive Demo where
  | off
  | empty
  | loading
  | error
  deriving DecidableEq, Repr

namespace KnowledgeBasePage

def mkErr : ApiError where
  message := "演示错误：无法连接到知识库服务（HTTP 503）。".toList
  code := "SERVICE_UNAVAILABLE".toList

structure ListRequest (κ : Type) where
  ticket : Nat
  collectionId : κ
  empty : Bool

structure Listing (κ σ : Type) where
  origin : Option κ
  items : List σ

structure Failure (κ : Type) where
  collectionId : κ
  error : ApiError

structure Arrival (κ : Type) where
  collectionId : κ
  failed : Bool
  deriving DecidableEq, Repr

structure State (κ σ : Type) where
  selectedId : Option κ
  sLoading : Bool
  sError : Option (Failure κ)
  sources : Listing κ σ
  outstanding : List (ListRequest κ)
  issued : Nat
  -- Deletions of collections after which the lists are still to be loaded again.
  refreshing : Nat
  -- What the sources were last asked for, and the responses that have arrived since.
  asked : Option κ
  arrived : List (Arrival κ)

inductive Event (κ σ : Type) where
  | select (id : κ)
  | reload
  | collectionsArrived (ids : List κ)
  | collectionDeleted (id : κ)
  | refreshed (ids : Option (List κ))
  | respond (ticket : Nat) (outcome : Except ApiError (List σ))

variable {κ σ : Type}

def initial : State κ σ where
  selectedId := none
  sLoading := false
  sError := none
  sources := { origin := none, items := [] }
  outstanding := []
  issued := 0
  refreshing := 0
  asked := none
  arrived := []

variable (demo : Demo)

def reloadSrc (state : State κ σ) : State κ σ :=
  let cleared := { state with
    sLoading := true
    sError := none
    asked := state.selectedId
    arrived := [] }
  match state.selectedId with
  | none => { cleared with sources := { origin := none, items := [] }, sLoading := false }
  | some id =>
      if demo = .loading then cleared
      else if demo = .error then
        { cleared with sError := some { collectionId := id, error := mkErr }, sLoading := false }
      else
        { cleared with
          outstanding := state.outstanding ++
            [{ ticket := state.issued, collectionId := id, empty := demo = .empty }]
          issued := state.issued + 1 }

def receive (state : State κ σ) (request : ListRequest κ) (outcome : Except ApiError (List σ)) :
    State κ σ :=
  let settled : State κ σ := { state with
    outstanding := state.outstanding.filter fun other => other.ticket ≠ request.ticket
    sLoading := if demo = .loading then state.sLoading else false }
  match outcome with
  | .ok items =>
      { settled with
        sources := { origin := some request.collectionId, items }
        arrived := state.arrived ++ [{ collectionId := request.collectionId, failed := false }] }
  | .error error =>
      { settled with
        sError := some { collectionId := request.collectionId, error }
        arrived := state.arrived ++ [{ collectionId := request.collectionId, failed := true }] }

variable [DecidableEq κ]

-- The watcher of the selected collection, which runs before anything else can happen.
def watchSelected (before : Option κ) (state : State κ σ) : State κ σ :=
  if state.selectedId ≠ before ∧ state.selectedId.isSome then reloadSrc demo state else state

def watchCollections (ids : List κ) (state : State κ σ) : State κ σ :=
  if state.selectedId = none then
    watchSelected demo state.selectedId { state with selectedId := ids.head? }
  else state

def step (state : State κ σ) : Event κ σ → State κ σ
  | .select id =>
      watchSelected demo state.selectedId (reloadSrc demo { state with selectedId := some id })
  | .reload => reloadSrc demo state
  | .collectionsArrived ids => watchCollections demo ids state
  | .collectionDeleted id =>
      { state with
        selectedId := state.selectedId.filter (· ≠ id)
        refreshing := state.refreshing + 1 }
  | .refreshed ids =>
      let watched := (ids.map fun ids => watchCollections demo ids state).getD state
      reloadSrc demo { watched with refreshing := state.refreshing - 1 }
  | .respond ticket outcome =>
      match state.outstanding.find? fun request => request.ticket = ticket with
      | none => state
      | some request => receive demo state request outcome

def run (events : List (Event κ σ)) : State κ σ := events.foldl (step demo) initial

inductive Display (κ σ : Type) where
  | error (failure : Failure κ)
  | loading
  | rows (listing : Listing κ σ)

omit [DecidableEq κ] in
-- The table shows an error first, then that it is loading, then rows.
def State.display (state : State κ σ) : Display κ σ :=
  match state.sError with
  | some failure => .error failure
  | none => if state.sLoading then .loading else .rows state.sources

def State.Quiescent (state : State κ σ) : Prop := state.outstanding = [] ∧ state.refreshing = 0

def State.ShowsSelected (state : State κ σ) : Prop :=
  match state.display with
  | .error failure => some failure.collectionId = state.selectedId
  | .loading => demo = .loading
  | .rows listing => listing.origin = state.selectedId

def decisive (arrived : List (Arrival κ)) : Option (Arrival κ) :=
  (arrived.filter Arrival.failed).getLast?.or arrived.getLast?

def State.LastArrivalSelected (state : State κ σ) : Prop :=
  ∀ arrival ∈ decisive state.arrived, some arrival.collectionId = state.selectedId

section Invariants

variable {demo} {state : State κ σ}

inductive Unanswered (demo : Demo) (state : State κ σ) : Prop
  | nothingAsked (hasked : state.asked = none) (herror : state.sError = none)
      (hloading : state.sLoading = false) (horigin : state.sources.origin = none)
  | demoLoading (hdemo : demo = .loading) (herror : state.sError = none)
      (hloading : state.sLoading = true)
  | demoError (hdemo : demo = .error) (failure : Failure κ)
      (herror : state.sError = some failure) (hasked : state.asked = some failure.collectionId)
  | waiting (herror : state.sError = none) (hwaiting : state.outstanding ≠ [])

structure Answered (state : State κ σ) : Prop where
  loading : state.sLoading = false
  error : state.sError.map Failure.collectionId =
    (state.arrived.filter Arrival.failed).getLast?.map Arrival.collectionId
  rows : state.arrived.filter Arrival.failed = [] →
    state.sources.origin = state.arrived.getLast?.map Arrival.collectionId

def Silent (demo : Demo) (state : State κ σ) : Prop :=
  demo = .loading ∨ demo = .error → state.outstanding = []

structure Consistent (demo : Demo) (state : State κ σ) : Prop where
  silent : Silent demo state
  aligned : state.refreshing = 0 → state.asked = state.selectedId
  unanswered : state.arrived = [] → Unanswered demo state
  answered : state.arrived ≠ [] → Answered state

omit [DecidableEq κ] in
theorem consistent_reloadSrc (h : Silent demo state) : Consistent demo (reloadSrc demo state) := by
  rw [reloadSrc]
  cases hselected : state.selectedId with
  | none =>
    exact ⟨h, fun _ => rfl, fun _ => .nothingAsked rfl rfl rfl rfl, fun hne => absurd rfl hne⟩
  | some id =>
    dsimp only
    split
    · next hdemo =>
        exact ⟨h, fun _ => rfl, fun _ => .demoLoading hdemo rfl rfl, fun hne => absurd rfl hne⟩
    split
    · next hdemo =>
        exact ⟨h, fun _ => rfl, fun _ => .demoError hdemo _ rfl rfl, fun hne => absurd rfl hne⟩
    · next hloading herror =>
        refine ⟨fun hdemo => ?_, fun _ => rfl, fun _ => .waiting rfl (by simp), fun hne =>
          absurd rfl hne⟩
        exact absurd hdemo (not_or.mpr ⟨hloading, herror⟩)

inductive Stepped (demo : Demo) (state : State κ σ) : Event κ σ → State κ σ → Prop
  | still (event : Event κ σ) : Stepped demo state event state
  | asked (event : Event κ σ) (source : State κ σ)
      (hsilent : Silent demo state → Silent demo source) :
      Stepped demo state event (reloadSrc demo source)
  | deleted (id : κ) : Stepped demo state (.collectionDeleted id)
      { state with
        selectedId := state.selectedId.filter (· ≠ id)
        refreshing := state.refreshing + 1 }
  | answered (request : ListRequest κ) (hmem : request ∈ state.outstanding)
      (outcome : Except ApiError (List σ)) :
      Stepped demo state (.respond request.ticket outcome) (receive demo state request outcome)

theorem watchSelected_cases (demo : Demo) (before : Option κ) (state : State κ σ) :
    watchSelected demo before state = state ∨
      watchSelected demo before state = reloadSrc demo state := by
  rw [watchSelected]
  split
  · exact Or.inr rfl
  · exact Or.inl rfl

theorem watchCollections_cases (demo : Demo) (ids : List κ) (state : State κ σ) :
    watchCollections demo ids state = state ∨ ∃ id,
      watchCollections demo ids state = reloadSrc demo { state with selectedId := some id } := by
  rw [watchCollections]
  split
  · next hnone =>
      cases ids with
      | nil =>
        rw [List.head?_nil, ← hnone, watchSelected, if_neg fun hchanged => hchanged.1 rfl]
        exact Or.inl rfl
      | cons id ids =>
        rw [watchSelected, hnone, if_pos ⟨by simp, rfl⟩]
        exact Or.inr ⟨id, rfl⟩
  · exact Or.inl rfl

theorem stepped (demo : Demo) (state : State κ σ) (event : Event κ σ) :
    Stepped demo state event (step demo state event) := by
  cases event with
  | select id =>
    rw [step]
    rcases watchSelected_cases demo state.selectedId
        (reloadSrc demo { state with selectedId := some id }) with hsame | hagain
    · rw [hsame]
      exact .asked _ _ fun h => h
    · rw [hagain]
      refine .asked _ _ fun h => ?_
      have hsource : Silent demo { state with selectedId := some id } := h
      exact (consistent_reloadSrc hsource).silent
  | reload => exact .asked _ state fun h => h
  | collectionsArrived ids =>
    rw [step]
    rcases watchCollections_cases demo ids state with hsame | ⟨id, hloaded⟩
    · rw [hsame]
      exact .still _
    · rw [hloaded]
      exact .asked _ _ fun h => h
  | collectionDeleted id => exact .deleted id
  | refreshed ids =>
    rw [step]
    cases ids with
    | none => exact .asked _ _ fun h => h
    | some ids =>
      refine .asked _ _ fun h => ?_
      rw [Option.map_some, Option.getD_some]
      rcases watchCollections_cases demo ids state with hsame | ⟨id, hloaded⟩
      · rw [hsame]
        exact h
      · have hsource : Silent demo { state with selectedId := some id } := h
        rw [hloaded]
        exact (consistent_reloadSrc hsource).silent
  | respond ticket outcome =>
    rw [step]
    cases hfound : state.outstanding.find? fun request => request.ticket = ticket with
    | none => exact .still _
    | some request =>
      have hticket := List.find?_some hfound
      rw [← of_decide_eq_true hticket]
      exact .answered request (List.mem_of_find?_eq_some hfound) outcome

omit [DecidableEq κ] in
theorem Unanswered.error_eq_none (h : Unanswered demo state) (hdemo : demo ≠ .error) :
    state.sError = none := by
  cases h with
  | nothingAsked hasked herror hloading horigin => exact herror
  | demoLoading hdemo herror hloading => exact herror
  | demoError herror => exact absurd herror hdemo
  | waiting herror hwaiting => exact herror

omit [DecidableEq κ] in
theorem Consistent.error_eq (h : Consistent demo state) (hdemo : demo ≠ .error) :
    state.sError.map Failure.collectionId =
      (state.arrived.filter Arrival.failed).getLast?.map Arrival.collectionId := by
  by_cases harrived : state.arrived = []
  · rw [(h.unanswered harrived).error_eq_none hdemo, harrived]
    rfl
  · exact (h.answered harrived).error

omit [DecidableEq κ] in
theorem Consistent.receive (h : Consistent demo state) (hwaiting : state.outstanding ≠ [])
    (request : ListRequest κ) (outcome : Except ApiError (List σ)) :
    Consistent demo (receive demo state request outcome) := by
  have hloading : demo ≠ .loading := fun hdemo => hwaiting (h.silent (Or.inl hdemo))
  have hdemoError : demo ≠ .error := fun hdemo => hwaiting (h.silent (Or.inr hdemo))
  have hsilent : ∀ outstanding : List (ListRequest κ), demo = .loading ∨ demo = .error →
      outstanding = [] :=
    fun _ hdemo => absurd hdemo (not_or.mpr ⟨hloading, hdemoError⟩)
  cases outcome with
  | ok items =>
    refine ⟨hsilent _, h.aligned, fun hnone => ?_, fun _ => ⟨if_neg hloading, ?_, ?_⟩⟩
    · exact absurd hnone (by simp [KnowledgeBasePage.receive])
    · simpa [KnowledgeBasePage.receive] using h.error_eq hdemoError
    · intro _
      simp [KnowledgeBasePage.receive]
  | error error =>
    refine ⟨hsilent _, h.aligned, fun hnone => ?_, fun _ => ⟨if_neg hloading, ?_, ?_⟩⟩
    · exact absurd hnone (by simp [KnowledgeBasePage.receive])
    · simp [KnowledgeBasePage.receive]
    · intro hnone
      exact absurd hnone (by simp [KnowledgeBasePage.receive])

theorem Consistent.step (h : Consistent demo state) (event : Event κ σ) :
    Consistent demo (step demo state event) := by
  have hstepped := stepped demo state event
  generalize KnowledgeBasePage.step demo state event = next at hstepped
  cases hstepped with
  | still => exact h
  | asked _ source hsilent => exact consistent_reloadSrc (hsilent h.silent)
  | answered request hmem outcome => exact h.receive (List.ne_nil_of_mem hmem) request outcome
  | deleted id =>
    refine ⟨h.silent, fun hnone => absurd hnone (Nat.succ_ne_zero _), fun harrived => ?_,
      fun harrived => ?_⟩
    · cases h.unanswered harrived with
      | nothingAsked hasked herror hloading horigin =>
        exact .nothingAsked hasked herror hloading horigin
      | demoLoading hdemo herror hloading => exact .demoLoading hdemo herror hloading
      | demoError hdemo failure herror hasked => exact .demoError hdemo failure herror hasked
      | waiting herror hwaiting => exact .waiting herror hwaiting
    · have hanswered := h.answered harrived
      exact ⟨hanswered.loading, hanswered.error, hanswered.rows⟩

theorem consistent_run (demo : Demo) (events : List (Event κ σ)) :
    Consistent demo (run demo events) := by
  induction events using List.reverseRecOn with
  | nil =>
    exact ⟨fun _ => rfl, fun _ => rfl, fun _ => .nothingAsked rfl rfl rfl rfl, fun hne =>
      absurd rfl hne⟩
  | append_singleton before event ih =>
    rw [run, List.foldl_concat]
    exact ih.step event

omit [DecidableEq κ] in
theorem Consistent.showsSelected_of_unanswered (h : Consistent demo state)
    (hquiet : state.Quiescent) (harrived : state.arrived = []) : state.ShowsSelected demo := by
  have haligned := h.aligned hquiet.2
  cases h.unanswered harrived with
  | nothingAsked hasked herror hloading horigin =>
    rw [State.ShowsSelected, State.display, herror, hloading]
    exact horigin.trans (hasked.symm.trans haligned)
  | demoLoading hdemo herror hloading =>
    rw [State.ShowsSelected, State.display, herror, hloading]
    exact hdemo
  | demoError hdemo failure herror hasked =>
    rw [State.ShowsSelected, State.display, herror]
    exact hasked.symm.trans haligned
  | waiting herror hwaiting => exact absurd hquiet.1 hwaiting

omit [DecidableEq κ] in
theorem Answered.showsSelected_iff (h : Answered state) (harrived : state.arrived ≠ []) :
    state.ShowsSelected demo ↔ state.LastArrivalSelected := by
  have herror := h.error
  rw [State.ShowsSelected, State.display, State.LastArrivalSelected, decisive]
  cases hfailed : (state.arrived.filter Arrival.failed).getLast? with
  | some arrival =>
    rw [hfailed] at herror
    obtain ⟨failure, hfailure, hid⟩ := Option.map_eq_some_iff.mp herror
    simp [hfailure, hid]
  | none =>
    rw [hfailed, Option.map_none, Option.map_eq_none_iff] at herror
    have hrows := h.rows (List.getLast?_eq_none_iff.mp hfailed)
    rw [List.getLast?_eq_some_getLast harrived] at hrows ⊢
    simp [herror, h.loading, hrows]

omit [DecidableEq κ] in
theorem Consistent.showsSelected_iff (h : Consistent demo state) (hquiet : state.Quiescent) :
    state.ShowsSelected demo ↔ state.LastArrivalSelected := by
  by_cases harrived : state.arrived = []
  · refine iff_of_true (h.showsSelected_of_unanswered hquiet harrived) ?_
    rw [State.LastArrivalSelected, harrived]
    exact fun arrival hmem => nomatch hmem
  · exact (h.answered harrived).showsSelected_iff harrived

end Invariants

def ShowsSelectedCollection (events : List (Event κ σ)) : Prop :=
  ∀ before, before <+: events → (run demo before).Quiescent →
    (run demo before).ShowsSelected demo

theorem showsSelectedCollection_iff (events : List (Event κ σ)) :
    ShowsSelectedCollection demo events ↔ ∀ before, before <+: events →
      (run demo before).Quiescent → (run demo before).LastArrivalSelected := by
  constructor
  · intro h before hpart hquiet
    exact ((consistent_run demo before).showsSelected_iff hquiet).mp (h before hpart hquiet)
  · intro h before hpart hquiet
    exact ((consistent_run demo before).showsSelected_iff hquiet).mpr (h before hpart hquiet)

def overtaken : List (Event Nat Nat) :=
  [.select 0, .select 1, .respond 2 (.ok [10]), .respond 3 (.ok [10]), .respond 0 (.ok [7]),
    .respond 1 (.ok [7])]

theorem overtaken_shows_other : ¬ ShowsSelectedCollection .off overtaken := by
  intro h
  have hshows := h overtaken List.prefix_rfl ⟨by decide, by decide⟩
  have hwrong : (some 0 : Option Nat) = some 1 := hshows
  exact absurd hwrong (by decide)

end KnowledgeBasePage

end YCStudio
