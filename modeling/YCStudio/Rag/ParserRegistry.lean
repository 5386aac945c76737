import YCStudio.Library.Registry
import YCStudio.Library.Traverse
import YCStudio.Rag.Parsers

namespace YCStudio

-- A class object: each class statement that is run makes one of its own.
structure ParserType where
  definition : Nat
  name : Str
  deriving DecidableEq, Repr

abbrev ParserRegistry := Registry Str ParserType

structure ParserDefinition where
  name : Str
  isAbstract : Bool
  supportedSuffixes : List Str
  -- The order in which the set of the normalised suffixes is gone through.
  iterate : List Str → List Str
  iterate_perm : ∀ suffixes, (iterate suffixes).Perm suffixes

namespace BaseParser

def nothingDeclared (cls : ParserType) : Exn :=
  Exn.valueError (cls.name ++ " must declare at least one supported suffix".toList)

def alreadyRegistered (suffix : Str) (registered : ParserType) : Exn :=
  Exn.valueError ("Suffix ".toList ++ pyRepr suffix ++ " is already registered by ".toList ++
    registered.name)

variable (libs : ParserLibraries)

def normalizedSuffixes (supportedSuffixes : List Str) : Except Exn (List Str) := do
  let normalized ← supportedSuffixes.mapM (normalizeSuffix libs)
  return normalized.dedup

def initSubclass (cls : ParserType) (d : ParserDefinition) (registry : ParserRegistry) :
    Except Exn (List Str) × ParserRegistry :=
  if d.isAbstract then (.ok d.supportedSuffixes, registry)
  else
    match normalizedSuffixes libs d.supportedSuffixes with
    | .error e => (.error e, registry)
    | .ok suffixes =>
        if suffixes = [] then (.error (nothingDeclared cls), registry)
        else
          match registry.enroll cls (d.iterate suffixes) with
          | (.error (suffix, registered), registry) =>
              (.error (alreadyRegistered suffix registered), registry)
          | (.ok (), registry) => (.ok suffixes, registry)

def parserForSuffix (registry : ParserRegistry) (suffix : Str) :
    Except Exn (Option ParserType) := do
  if suffix = [] then return none
  else return registry.holder? (← normalizeSuffix libs suffix)

structure State where
  registry : ParserRegistry
  -- The concrete classes whose statement went through, with their supported suffixes.
  accepted : List (ParserType × List Str)
  defined : Nat

namespace State

def initial : State where
  registry := Table.empty
  accepted := []
  defined := 0

def define (state : State) (d : ParserDefinition) : Except Exn (List Str) × State :=
  let cls : ParserType := { definition := state.defined, name := d.name }
  match initSubclass libs cls d state.registry with
  | (.error e, registry) => (.error e, { state with registry, defined := state.defined + 1 })
  | (.ok suffixes, registry) =>
      (.ok suffixes, {
        registry
        accepted := if d.isAbstract then state.accepted else state.accepted ++ [(cls, suffixes)]
        defined := state.defined + 1 })

def defineAll (definitions : List ParserDefinition) : State :=
  definitions.foldl (fun state d => (state.define libs d).2) initial

def firstDeclared (state : State) (suffix : Str) : Option ParserType :=
  (state.accepted.find? fun entry => suffix ∈ entry.2).map Prod.fst

def LateConflict (state : State) (d : ParserDefinition) : Prop :=
  d.isAbstract = false ∧ ∃ suffixes first rest,
    normalizedSuffixes libs d.supportedSuffixes = .ok suffixes ∧
    d.iterate suffixes = first :: rest ∧ state.registry.holder? first = none ∧
    ∃ taken ∈ rest, state.registry.holder? taken ≠ none

end State

structure AllOrNothing (definitions : List ParserDefinition) : Prop where
  atomic : ∀ before d, before ++ [d] <+: definitions → ∀ e,
    ((State.defineAll libs before).define libs d).1 = .error e →
      ((State.defineAll libs before).define libs d).2.registry =
        (State.defineAll libs before).registry
  first : ∀ before, before <+: definitions → ∀ suffix,
    (State.defineAll libs before).registry.holder? suffix =
      (State.defineAll libs before).firstDeclared suffix
  neverRejected : ∀ before, before <+: definitions → ∀ suffix cls,
    parserForSuffix libs (State.defineAll libs before).registry suffix = .ok (some cls) →
      cls ∈ (State.defineAll libs before).accepted.map Prod.fst

section Registration

variable {libs : ParserLibraries} {cls : ParserType} {d : ParserDefinition}
  {registry : ParserRegistry}

inductive Registration (libs : ParserLibraries) (cls : ParserType) (d : ParserDefinition)
    (registry : ParserRegistry) : Except Exn (List Str) × ParserRegistry → Prop
  | skipped (habstract : d.isAbstract = true) :
      Registration libs cls d registry (.ok d.supportedSuffixes, registry)
  | refused (hconcrete : d.isAbstract = false) (e : Exn) :
      Registration libs cls d registry (.error e, registry)
  | registered (hconcrete : d.isAbstract = false) (suffixes : List Str)
      (hfree : ∀ suffix ∈ suffixes, registry.rival? cls suffix = none) :
      Registration libs cls d registry (.ok suffixes, registry.enrolled cls (d.iterate suffixes))
  | interrupted (hconcrete : d.isAbstract = false) (suffixes free : List Str) (taken : Str)
      (rest : List Str) (other : ParserType)
      (hsuffixes : normalizedSuffixes libs d.supportedSuffixes = .ok suffixes)
      (hiterate : d.iterate suffixes = free ++ taken :: rest)
      (hfree : ∀ suffix ∈ free, registry.rival? cls suffix = none)
      (htaken : registry.rival? cls taken = some other) :
      Registration libs cls d registry
        (.error (alreadyRegistered taken other), registry.enrolled cls free)

theorem initSubclass_of_valid (hconcrete : d.isAbstract = false) {suffixes : List Str}
    (hsuffixes : normalizedSuffixes libs d.supportedSuffixes = .ok suffixes) (hne : suffixes ≠ []) :
    initSubclass libs cls d registry =
      match registry.enroll cls (d.iterate suffixes) with
      | (.error (suffix, registered), registry) =>
          (.error (alreadyRegistered suffix registered), registry)
      | (.ok (), registry) => (.ok suffixes, registry) := by
  have hnot : ¬ d.isAbstract = true := by simp [hconcrete]
  rw [initSubclass, if_neg hnot, hsuffixes]
  exact if_neg hne

theorem initSubclass_free (hconcrete : d.isAbstract = false) {suffixes : List Str}
    (hsuffixes : normalizedSuffixes libs d.supportedSuffixes = .ok suffixes) (hne : suffixes ≠ [])
    (hfree : ∀ suffix ∈ d.iterate suffixes, registry.rival? cls suffix = none) :
    initSubclass libs cls d registry =
      (.ok suffixes, registry.enrolled cls (d.iterate suffixes)) := by
  rw [initSubclass_of_valid hconcrete hsuffixes hne, Registry.enroll_free hfree]

theorem initSubclass_interrupted (hconcrete : d.isAbstract = false) {suffixes free rest : List Str}
    {taken : Str} {other : ParserType}
    (hsuffixes : normalizedSuffixes libs d.supportedSuffixes = .ok suffixes)
    (hiterate : d.iterate suffixes = free ++ taken :: rest)
    (hfree : ∀ suffix ∈ free, registry.rival? cls suffix = none)
    (htaken : registry.rival? cls taken = some other) :
    initSubclass libs cls d registry =
      (.error (alreadyRegistered taken other), registry.enrolled cls free) := by
  have hne : suffixes ≠ [] := by
    rintro rfl
    have hperm := d.iterate_perm []
    rw [hiterate] at hperm
    exact absurd hperm.eq_nil (by simp)
  rw [initSubclass_of_valid hconcrete hsuffixes hne, hiterate, Registry.enroll_rival hfree htaken]

theorem initSubclass_registration (libs : ParserLibraries) (cls : ParserType) (d : ParserDefinition)
    (registry : ParserRegistry) :
    Registration libs cls d registry (initSubclass libs cls d registry) := by
  cases habstract : d.isAbstract with
  | true =>
    rw [initSubclass, if_pos habstract]
    exact .skipped habstract
  | false =>
    have hconcrete : ¬ d.isAbstract = true := by simp [habstract]
    cases hsuffixes : normalizedSuffixes libs d.supportedSuffixes with
    | error e =>
      rw [initSubclass, if_neg hconcrete, hsuffixes]
      exact .refused habstract e
    | ok suffixes =>
      by_cases hempty : suffixes = []
      · rw [initSubclass, if_neg hconcrete, hsuffixes]
        dsimp only
        rw [if_pos hempty]
        exact .refused habstract _
      rcases Registry.free_or_rival cls registry (d.iterate suffixes) with
        hfree | ⟨free, taken, rest, other, hiterate, hfree, htaken⟩
      · rw [initSubclass_free habstract hsuffixes hempty hfree]
        refine .registered habstract suffixes fun suffix hsuffix => ?_
        exact hfree suffix ((d.iterate_perm suffixes).mem_iff.mpr hsuffix)
      · rw [initSubclass_interrupted habstract hsuffixes hiterate hfree htaken]
        exact .interrupted habstract suffixes free taken rest other hsuffixes hiterate hfree htaken

end Registration

namespace State

variable {libs : ParserLibraries} {state : State} {d : ParserDefinition}

def Fresh (state : State) : Prop :=
  ∀ suffix cls, state.registry.holder? suffix = some cls → cls.definition < state.defined

theorem Fresh.rival? (h : state.Fresh) (name suffix : Str) :
    state.registry.rival? { definition := state.defined, name } suffix =
      state.registry.holder? suffix := by
  apply Registry.rival?_of_forall_ne
  intro suffix' hholder
  exact Nat.lt_irrefl _ (h suffix' _ hholder)

theorem registry_define :
    (state.define libs d).2.registry =
      (initSubclass libs { definition := state.defined, name := d.name } d state.registry).2 := by
  rw [define]
  split
  all_goals next h => rw [h]

theorem result_define :
    (state.define libs d).1 =
      (initSubclass libs { definition := state.defined, name := d.name } d state.registry).1 := by
  rw [define]
  split
  all_goals next h => rw [h]

theorem defined_define : (state.define libs d).2.defined = state.defined + 1 := by
  rw [define]
  split <;> rfl

theorem Fresh.define (h : state.Fresh) : (state.define libs d).2.Fresh := by
  intro suffix cls hholder
  rw [registry_define] at hholder
  rw [defined_define]
  have hreg := initSubclass_registration libs { definition := state.defined, name := d.name } d
    state.registry
  generalize initSubclass libs _ d state.registry = outcome at hholder hreg
  have hold : ∀ keys : List Str, (state.registry.enrolled
      { definition := state.defined, name := d.name } keys).holder? suffix = some cls →
        cls.definition < state.defined + 1 := by
    intro keys hkeys
    rw [Registry.holder?_enrolled] at hkeys
    split at hkeys
    · cases hkeys
      exact Nat.lt_succ_self _
    · exact Nat.lt_succ_of_lt (h suffix cls hkeys)
  cases hreg with
  | skipped => exact hold [] hholder
  | refused => exact hold [] hholder
  | registered => exact hold _ hholder
  | interrupted => exact hold _ hholder

theorem defineAll_concat (libs : ParserLibraries) (before : List ParserDefinition)
    (d : ParserDefinition) :
    defineAll libs (before ++ [d]) = ((defineAll libs before).define libs d).2 := by
  rw [defineAll, List.foldl_concat]
  rfl

theorem fresh_defineAll (libs : ParserLibraries) (definitions : List ParserDefinition) :
    (defineAll libs definitions).Fresh := by
  induction definitions using List.reverseRecOn with
  | nil =>
    intro suffix cls hholder
    cases hholder
  | append_singleton before d ih =>
    rw [defineAll_concat]
    exact ih.define

theorem registry_of_error (hfresh : state.Fresh) (hquiet : ¬ state.LateConflict libs d) {e : Exn}
    (herror : (state.define libs d).1 = .error e) :
    (state.define libs d).2.registry = state.registry := by
  rw [result_define] at herror
  rw [registry_define]
  have hreg := initSubclass_registration libs { definition := state.defined, name := d.name } d
    state.registry
  generalize initSubclass libs _ d state.registry = outcome at herror hreg
  cases hreg with
  | skipped => rfl
  | refused => rfl
  | registered => cases herror
  | interrupted hconcrete suffixes free taken rest other hsuffixes hiterate hfree htaken =>
    rw [hfresh.rival?] at htaken
    cases free with
    | nil => rfl
    | cons first free =>
      have hfirst := hfree first List.mem_cons_self
      rw [hfresh.rival?] at hfirst
      refine absurd ⟨hconcrete, suffixes, first, free ++ taken :: rest, hsuffixes, hiterate, hfirst,
        taken, List.mem_append_right _ List.mem_cons_self, ?_⟩ hquiet
      simp [htaken]

theorem LateConflict.registry_ne (hfresh : state.Fresh) (h : state.LateConflict libs d) :
    (∃ e, (state.define libs d).1 = .error e) ∧
      (state.define libs d).2.registry ≠ state.registry := by
  obtain ⟨hconcrete, suffixes, first, rest, hsuffixes, hiterate, hfirst, taken, htaken, hheld⟩ := h
  rcases Registry.free_or_rival { definition := state.defined, name := d.name } state.registry
      (d.iterate suffixes) with hfree | ⟨free, stop, left, other, hsplit, hfree, hstop⟩
  · have hnone := hfree taken (by simp [hiterate, htaken])
    rw [hfresh.rival?] at hnone
    exact absurd hnone hheld
  · rw [result_define, registry_define,
      initSubclass_interrupted hconcrete hsuffixes hsplit hfree hstop]
    refine ⟨⟨_, rfl⟩, fun hsame => ?_⟩
    rw [hiterate] at hsplit
    cases free with
    | nil =>
      cases hsplit
      rw [hfresh.rival?, hfirst] at hstop
      cases hstop
    | cons first' free =>
      cases hsplit
      have hstored : (state.registry.enrolled { definition := state.defined, name := d.name }
          (first :: free)).holder? first ≠ none := by simp [Registry.holder?_enrolled]
      dsimp only at hsame
      rw [hsame] at hstored
      exact hstored hfirst

theorem accepted_define_of_error {e : Exn} (h : (state.define libs d).1 = .error e) :
    (state.define libs d).2.accepted = state.accepted := by
  rw [result_define] at h
  rw [define]
  split
  · rfl
  · next hresult =>
      rw [hresult] at h
      cases h

theorem accepted_define_of_ok {suffixes : List Str} (h : (state.define libs d).1 = .ok suffixes) :
    (state.define libs d).2.accepted =
      if d.isAbstract then state.accepted
      else state.accepted ++ [({ definition := state.defined, name := d.name }, suffixes)] := by
  rw [result_define] at h
  rw [define]
  split
  · next hresult =>
      rw [hresult] at h
      cases h
  · next hresult =>
      rw [hresult] at h
      cases h
      rfl

def Declared (state : State) : Prop :=
  ∀ suffix, state.registry.holder? suffix = state.firstDeclared suffix

theorem firstDeclared_congr {state' : State} (h : state'.accepted = state.accepted) (suffix : Str) :
    state'.firstDeclared suffix = state.firstDeclared suffix := by
  rw [firstDeclared, h, firstDeclared]

theorem firstDeclared_append {state' : State} {entry : ParserType × List Str}
    (h : state'.accepted = state.accepted ++ [entry]) (suffix : Str) :
    state'.firstDeclared suffix =
      (state.firstDeclared suffix).or (if suffix ∈ entry.2 then some entry.1 else none) := by
  rw [firstDeclared, h, List.find?_append, firstDeclared]
  cases state.accepted.find? fun entry => suffix ∈ entry.2 with
  | some found => rfl
  | none =>
    by_cases hmem : suffix ∈ entry.2
    · simp [hmem]
    · simp [hmem]

theorem Declared.define (hfresh : state.Fresh) (hdeclared : state.Declared)
    (hquiet : ¬ state.LateConflict libs d) : (state.define libs d).2.Declared := by
  intro suffix
  have hreg := initSubclass_registration libs { definition := state.defined, name := d.name } d
    state.registry
  cases hresult : (state.define libs d).1 with
  | error e =>
    rw [registry_of_error hfresh hquiet hresult, hdeclared suffix,
      firstDeclared_congr (accepted_define_of_error hresult)]
  | ok suffixes =>
    have haccepted := accepted_define_of_ok hresult
    rw [registry_define]
    rw [result_define] at hresult
    generalize initSubclass libs _ d state.registry = outcome at hresult hreg
    cases hreg with
    | skipped habstract =>
      rw [if_pos habstract] at haccepted
      rw [firstDeclared_congr haccepted]
      exact hdeclared suffix
    | refused => cases hresult
    | interrupted => cases hresult
    | registered hconcrete _ hfree =>
      cases hresult
      rw [hconcrete] at haccepted
      rw [firstDeclared_append haccepted, ← hdeclared suffix, Registry.holder?_enrolled]
      by_cases hmem : suffix ∈ suffixes
      · have hnone := hfree suffix hmem
        rw [hfresh.rival?] at hnone
        rw [if_pos ((d.iterate_perm suffixes).mem_iff.mpr hmem), if_pos hmem, hnone]
        rfl
      · rw [if_neg (mt (d.iterate_perm suffixes).mem_iff.mp hmem), if_neg hmem, Option.or_none]

theorem declared_defineAll {definitions : List ParserDefinition}
    (h : ∀ before d, before ++ [d] <+: definitions →
      ¬ (defineAll libs before).LateConflict libs d) :
    (defineAll libs definitions).Declared := by
  induction definitions using List.reverseRecOn with
  | nil => exact fun _ => rfl
  | append_singleton before d ih =>
    have hbefore := ih fun earlier d' hpart =>
      h earlier d' (hpart.trans (List.prefix_append before [d]))
    rw [defineAll_concat]
    exact hbefore.define (fresh_defineAll libs before) (h before d List.prefix_rfl)

theorem Declared.accepted (h : state.Declared) {suffix : Str} {cls : ParserType}
    (hholder : state.registry.holder? suffix = some cls) : cls ∈ state.accepted.map Prod.fst := by
  rw [h suffix, firstDeclared] at hholder
  obtain ⟨entry, hentry, rfl⟩ := Option.map_eq_some_iff.mp hholder
  exact List.mem_map_of_mem (List.mem_of_find?_eq_some hentry)

end State

theorem holder?_of_parserForSuffix {libs : ParserLibraries} {registry : ParserRegistry}
    {suffix : Str} {cls : ParserType} (h : parserForSuffix libs registry suffix = .ok (some cls)) :
    ∃ normalized, registry.holder? normalized = some cls := by
  rw [parserForSuffix] at h
  split at h
  · cases h
  obtain ⟨normalized, _, h⟩ := Except.bind_eq_ok h
  cases hholder : registry.holder? normalized with
  | none =>
    rw [hholder] at h
    cases h
  | some other =>
    rw [hholder] at h
    cases h
    exact ⟨normalized, hholder⟩

theorem registrations_allOrNothing (libs : ParserLibraries) (definitions : List ParserDefinition) :
    AllOrNothing libs definitions ↔ ∀ before d, before ++ [d] <+: definitions →
      ¬ (State.defineAll libs before).LateConflict libs d := by
  constructor
  · intro h before d hpart hlate
    obtain ⟨⟨e, herror⟩, hne⟩ := hlate.registry_ne (State.fresh_defineAll libs before)
    exact hne (h.atomic before d hpart e herror)
  · intro h
    have hdeclared : ∀ before, before <+: definitions → (State.defineAll libs before).Declared := by
      intro before hpart
      exact State.declared_defineAll fun earlier d hearlier => h earlier d (hearlier.trans hpart)
    refine ⟨?_, hdeclared, ?_⟩
    · intro before d hpart e herror
      exact State.registry_of_error (State.fresh_defineAll libs before) (h before d hpart) herror
    · intro before hpart suffix cls hfound
      obtain ⟨normalized, hholder⟩ := holder?_of_parserForSuffix hfound
      exact (hdeclared before hpart).accepted hholder

def firstParser : ParserDefinition where
  name := "FirstParser".toList
  isAbstract := false
  supportedSuffixes := [".collision".toList]
  iterate := id
  iterate_perm := fun _ => .rfl

def secondParser : ParserDefinition where
  name := "SecondParser".toList
  isAbstract := false
  supportedSuffixes := ["new".toList, "collision".toList]
  iterate := id
  iterate_perm := fun _ => .rfl

theorem secondParser_leaves_new :
    ¬ AllOrNothing asciiLibraries [firstParser, secondParser] := by
  intro h
  have hsame := h.atomic [firstParser] secondParser List.prefix_rfl _ rfl
  revert hsame
  decide +kernel

theorem normalizeSuffix_of_normal {libs : ParserLibraries} {suffix : Str}
    (hstrip : suffix.strip = suffix) (hdot : suffix.head? = some '.')
    (hcasefold : libs.casefold suffix = suffix) : normalizeSuffix libs suffix = .ok suffix := by
  have hne : suffix ≠ [] := by
    rintro rfl
    cases hdot
  rw [normalizeSuffix, hstrip, hcasefold, if_neg hne, if_pos hdot]

end BaseParser

end YCStudio
