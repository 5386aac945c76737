import YCStudio.Library.Words
import YCStudio.Rag.Cleaner
import YCStudio.Services.Runtime

namespace YCStudio

-- str.split() without a separator.
def Str.words (s : Str) : List Str := Words.words isSpace s

def forbiddenReferenceWords : List Str :=
  ["这段".toList, "本文".toList, "上述".toList, "该段".toList, "这篇".toList, "这个内容".toList,
    "其中".toList]

def broadQuestions : List Str := ["这是什么？".toList, "这是什么?".toList]

def broadPhrase : Str := "讲了什么".toList

-- One entry of a pydantic ValidationError.
structure FieldError where
  field : Str
  kind : Str
  limit : Nat
  deriving DecidableEq, Repr

def lengthErrors (field : String) (minLength maxLength : Nat) (value : Str) : List FieldError :=
  if value.length < minLength then
    [{ field := field.toList, kind := "string_too_short".toList, limit := minLength }]
  else if maxLength < value.length then
    [{ field := field.toList, kind := "string_too_long".toList, limit := maxLength }]
  else []

structure GeneratedQuestion where
  query : Str
  rationale : Option Str
  deriving DecidableEq, Repr

def GeneratedQuestion.errors (question : GeneratedQuestion) : List FieldError :=
  lengthErrors "query" 8 500 question.query ++
    (question.rationale.map (lengthErrors "rationale" 0 1000)).getD []

-- What the constructor of the pydantic model lets through; model_copy asks for none of it.
def GeneratedQuestion.WithinBounds (question : GeneratedQuestion) : Prop := question.errors = []

instance (question : GeneratedQuestion) : Decidable question.WithinBounds :=
  inferInstanceAs (Decidable (question.errors = []))

inductive GenerationError where
  | validation (errors : List FieldError)
  | lookupError (message : Str)
  | raised (e : Exn)
  deriving DecidableEq, Repr

def GeneratedQuestion.construct (query : Str) (rationale : Option Str) :
    Except GenerationError GeneratedQuestion :=
  let question : GeneratedQuestion := { query, rationale }
  if question.errors = [] then .ok question else .error (.validation question.errors)

def forbiddenReference : GenerationError :=
  .raised (Exn.valueError "synthetic question contains a forbidden reference word".toList)

def tooBroad : GenerationError := .raised (Exn.valueError "synthetic question is too broad".toList)

def GeneratedQuestion.normalized (question : GeneratedQuestion) : Str :=
  Str.join [' '] question.query.words

def validateGeneratedQuestion (question : GeneratedQuestion) : Except GenerationError GeneratedQuestion :=
  if ∃ word ∈ forbiddenReferenceWords, word <:+: question.normalized then .error forbiddenReference
  else if question.normalized ∈ broadQuestions ∨ broadPhrase <:+: question.normalized then
    .error tooBroad
  else .ok { question with query := question.normalized }

structure AcceptedShape (question accepted : GeneratedQuestion) : Prop where
  blanks : ∀ c ∈ accepted.query, isSpace c = true → c = ' '
  single : accepted.query.IsChain fun a b => ¬ (isSpace a = true ∧ isSpace b = true)
  trimmed : accepted.query.strip = accepted.query
  long : 8 ≤ accepted.query.length
  short : accepted.query.length ≤ 500
  unreferenced : ∀ word ∈ forbiddenReferenceWords, ¬ word <:+: accepted.query
  specific : accepted.query ∉ broadQuestions ∧ ¬ broadPhrase <:+: accepted.query
  rationale : accepted.rationale = question.rationale
  again : validateGeneratedQuestion accepted = .ok accepted

section Bounds

theorem lengthErrors_eq_nil_iff {field : String} {minLength maxLength : Nat} {value : Str} :
    lengthErrors field minLength maxLength value = [] ↔
      minLength ≤ value.length ∧ value.length ≤ maxLength := by
  rw [lengthErrors]
  split
  · simp
    omega
  · split
    · simp
      omega
    · simp
      omega

theorem GeneratedQuestion.withinBounds_iff {question : GeneratedQuestion} :
    question.WithinBounds ↔ (8 ≤ question.query.length ∧ question.query.length ≤ 500) ∧
      ∀ rationale, question.rationale = some rationale → rationale.length ≤ 1000 := by
  rw [WithinBounds, errors, List.append_eq_nil_iff, lengthErrors_eq_nil_iff]
  cases question.rationale with
  | none => simp
  | some rationale => simp [lengthErrors_eq_nil_iff]

theorem GeneratedQuestion.construct_eq_ok_iff {query : Str} {rationale : Option Str}
    {question : GeneratedQuestion} :
    construct query rationale = .ok question ↔
      question = { query, rationale } ∧ question.WithinBounds := by
  rw [construct]
  split
  · next h =>
    constructor
    · rintro ⟨⟩
      exact ⟨rfl, h⟩
    · rintro ⟨rfl, _⟩
      rfl
  · next h =>
    constructor
    · rintro ⟨⟩
    · rintro ⟨rfl, hbounds⟩
      exact absurd hbounds h

end Bounds

section Validate

variable {question accepted : GeneratedQuestion}

theorem GeneratedQuestion.normalized_eq :
    question.normalized = Words.normalize isSpace ' ' question.query := rfl

theorem validateGeneratedQuestion_eq_ok_iff :
    validateGeneratedQuestion question = .ok accepted ↔
      (∀ word ∈ forbiddenReferenceWords, ¬ word <:+: question.normalized) ∧
      (question.normalized ∉ broadQuestions ∧ ¬ broadPhrase <:+: question.normalized) ∧
      accepted = { question with query := question.normalized } := by
  rw [validateGeneratedQuestion]
  by_cases hreference : ∃ word ∈ forbiddenReferenceWords, word <:+: question.normalized
  · rw [if_pos hreference]
    constructor
    · intro h
      cases h
    · rintro ⟨hnone, _⟩
      obtain ⟨word, hword, hoccurs⟩ := hreference
      exact absurd hoccurs (hnone word hword)
  · rw [if_neg hreference]
    by_cases hbroad : question.normalized ∈ broadQuestions ∨ broadPhrase <:+: question.normalized
    · rw [if_pos hbroad]
      constructor
      · intro h
        cases h
      · rintro ⟨_, hspecific, _⟩
        exact absurd hbroad (not_or.mpr hspecific)
    · rw [if_neg hbroad]
      constructor
      · intro h
        cases h
        exact ⟨fun word hword hoccurs => hreference ⟨word, hword, hoccurs⟩, not_or.mp hbroad, rfl⟩
      · rintro ⟨_, _, rfl⟩
        rfl

theorem validateGeneratedQuestion_again (h : validateGeneratedQuestion question = .ok accepted) :
    validateGeneratedQuestion accepted = .ok accepted := by
  obtain ⟨hreference, hspecific, rfl⟩ := validateGeneratedQuestion_eq_ok_iff.mp h
  have hnormal : GeneratedQuestion.normalized { question with query := question.normalized } =
      question.normalized := Words.normalize_normalize (by decide) question.query
  refine validateGeneratedQuestion_eq_ok_iff.mpr ?_
  rw [hnormal]
  exact ⟨hreference, hspecific, rfl⟩

theorem validated_acceptedShape_iff (hbounds : question.WithinBounds)
    (h : validateGeneratedQuestion question = .ok accepted) :
    AcceptedShape question accepted ↔ 8 ≤ Words.normalLength isSpace question.query := by
  have hagain := validateGeneratedQuestion_again h
  obtain ⟨⟨_, hshort⟩, _⟩ := GeneratedQuestion.withinBounds_iff.mp hbounds
  obtain ⟨hreference, hspecific, rfl⟩ := validateGeneratedQuestion_eq_ok_iff.mp h
  rw [← Words.length_normalize ' ', ← GeneratedQuestion.normalized_eq]
  constructor
  · exact AcceptedShape.long
  · intro hlong
    exact {
      blanks := fun c hc hblank => Words.eq_gap_of_mem_normalize hc hblank
      single := Words.isChain_normalize ' ' question.query
      trimmed := Words.strip_normalize ' ' question.query
      long := hlong
      short := (Words.length_normalize_le ' ' question.query).trans hshort
      unreferenced := hreference
      specific := hspecific
      rationale := rfl
      again := hagain }

def plainQuestion : GeneratedQuestion where
  query := "  索引重建  失败时 如何回滚？".toList
  rationale := some "回滚步骤".toList

theorem validated_acceptedShape_plainQuestion :
    AcceptedShape plainQuestion { plainQuestion with query := "索引重建 失败时 如何回滚？".toList } ↔
      8 ≤ Words.normalLength isSpace plainQuestion.query :=
  validated_acceptedShape_iff (by decide +kernel) (by decide +kernel)

def blankPaddedQuestion : GeneratedQuestion where
  query := "为什么？    ".toList
  rationale := none

theorem not_acceptedShape_blankPaddedQuestion :
    ¬ ∀ question accepted : GeneratedQuestion, question.WithinBounds →
      validateGeneratedQuestion question = .ok accepted → AcceptedShape question accepted := by
  intro h
  have hshape := h blankPaddedQuestion { blankPaddedQuestion with query := "为什么？".toList }
    (by decide +kernel) (by decide +kernel)
  exact absurd hshape.long (by decide +kernel)

end Validate

end YCStudio
