import YCStudio.Evaluation.Questions
import YCStudio.Library.Deletion

namespace YCStudio.DeterministicQuestionGenerator

def sentenceEnds : List Char := "。！？!?\n".toList

def outerMarks : List Char := " ，、:：;；".toList

def firstSentence (chunkText : Str) : Str := chunkText.strip.takeWhile (· ∉ sentenceEnds)

def fallbackAnchor : Str := "知识库中的工程事实".toList

def cutAnchor (chunkText : Str) : Str :=
  (Trim.strip (· ∈ outerMarks) (Deletion.delete forbiddenReferenceWords
    (Str.join [' '] (firstSentence chunkText).words))).take 120

def anchor (chunkText : Str) : Str :=
  if (cutAnchor chunkText).length < 8 then fallbackAnchor else cutAnchor chunkText

def question (anchor : Str) : GeneratedQuestion where
  query := "关于".toList ++ anchor ++ "，最关键的工程结论或操作条件是什么？".toList
  rationale := some "offline deterministic smoke generator".toList

def generate (chunkText : Str) : Except GenerationError GeneratedQuestion :=
  GeneratedQuestion.construct (question (anchor chunkText)).query (question (anchor chunkText)).rationale

def PassesItsGate (chunkText : Str) : Prop :=
  ∃ question accepted, generate chunkText = .ok question ∧ question.WithinBounds ∧
    validateGeneratedQuestion question = .ok accepted

def leftOver (chunkText : Str) : Str :=
  Trim.strip (· ∈ outerMarks) (Deletion.uncovered forbiddenReferenceWords
    (Words.normalize isSpace ' ' (firstSentence chunkText)))

def Acceptable (chunkText : Str) : Prop :=
  (leftOver chunkText).length < 8 ∨
    ∀ phrase ∈ broadPhrase :: forbiddenReferenceWords, ¬ phrase <:+: (leftOver chunkText).take 120

instance (chunkText : Str) : Decidable (Acceptable chunkText) := inferInstanceAs (Decidable (_ ∨ _))

theorem separate_forbiddenReferenceWords : Deletion.Separate forbiddenReferenceWords := by decide

theorem cutAnchor_eq (chunkText : Str) : cutAnchor chunkText = (leftOver chunkText).take 120 := by
  rw [cutAnchor, Deletion.delete_eq_uncovered separate_forbiddenReferenceWords]
  rfl

theorem length_anchor (chunkText : Str) :
    8 ≤ (anchor chunkText).length ∧ (anchor chunkText).length ≤ 120 := by
  rw [anchor]
  split
  · decide
  · next h => exact ⟨Nat.le_of_not_lt h, List.length_take_le _ _⟩

theorem withinBounds_question {anchor : Str} (h : anchor.length ≤ 120) :
    (question anchor).WithinBounds := by
  have hquery : (question anchor).query.length = 2 + anchor.length + 18 := by
    simp [question]
    omega
  refine GeneratedQuestion.withinBounds_iff.mpr ⟨by omega, ?_⟩
  rintro _ ⟨⟩
  decide

theorem generate_eq (chunkText : Str) : generate chunkText = .ok (question (anchor chunkText)) :=
  GeneratedQuestion.construct_eq_ok_iff.mpr ⟨rfl, withinBounds_question (length_anchor chunkText).2⟩

section Gate

variable {anchor phrase : Str}

theorem infix_question_iff (h : phrase ∈ broadPhrase :: forbiddenReferenceWords) :
    phrase <:+: (question anchor).normalized ↔ phrase <:+: anchor := by
  have hword : ∀ phrase ∈ broadPhrase :: forbiddenReferenceWords, Words.IsWord isSpace phrase := by
    decide
  have hborders : ∀ phrase ∈ broadPhrase :: forbiddenReferenceWords, '于' ∉ phrase ∧ '，' ∉ phrase := by
    decide
  have hparts : ∀ phrase ∈ broadPhrase :: forbiddenReferenceWords, ¬ phrase <:+: "关".toList ∧
      ¬ phrase <:+: "最关键的工程结论或操作条件是什么？".toList := by
    decide
  have hquery : (question anchor).query =
      "关".toList ++ '于' :: (anchor ++ '，' :: "最关键的工程结论或操作条件是什么？".toList) := by
    simp [question]
  rw [GeneratedQuestion.normalized_eq, Words.infix_normalize_iff (by decide) (hword phrase h), hquery,
    Lines.infix_append_cons_iff (hborders phrase h).1, Lines.infix_append_cons_iff (hborders phrase h).2]
  simp only [hparts phrase h, false_or, or_false]

theorem normalized_not_mem_broadQuestions : (question anchor).normalized ∉ broadQuestions := by
  intro hmem
  have habsent : ∀ broad ∈ broadQuestions, ¬ "关于".toList <:+: broad := by decide
  have hquery : "关于".toList <:+: (question anchor).query :=
    ((List.prefix_append _ _).trans (List.prefix_append _ _)).isInfix
  have hnormalized : "关于".toList <:+: (question anchor).normalized :=
    (Words.infix_normalize_iff (by decide) (by decide)).mpr hquery
  exact habsent _ hmem hnormalized

theorem validate_question_iff :
    (∃ accepted, validateGeneratedQuestion (question anchor) = .ok accepted) ↔
      ∀ phrase ∈ broadPhrase :: forbiddenReferenceWords, ¬ phrase <:+: anchor := by
  have hreference : (∀ word ∈ forbiddenReferenceWords, ¬ word <:+: (question anchor).normalized) ↔
      ∀ word ∈ forbiddenReferenceWords, ¬ word <:+: anchor :=
    forall₂_congr fun word hword => not_congr (infix_question_iff (List.mem_cons_of_mem _ hword))
  have hbroad : ¬ broadPhrase <:+: (question anchor).normalized ↔ ¬ broadPhrase <:+: anchor :=
    not_congr (infix_question_iff List.mem_cons_self)
  rw [List.forall_mem_cons, ← hbroad, ← hreference]
  constructor
  · rintro ⟨accepted, h⟩
    obtain ⟨hreference, ⟨_, hbroad⟩, _⟩ := validateGeneratedQuestion_eq_ok_iff.mp h
    exact ⟨hbroad, hreference⟩
  · rintro ⟨hbroad, hreference⟩
    exact ⟨_, validateGeneratedQuestion_eq_ok_iff.mpr
      ⟨hreference, ⟨normalized_not_mem_broadQuestions, hbroad⟩, rfl⟩⟩

end Gate

theorem anchor_plain_iff (chunkText : Str) :
    (∀ phrase ∈ broadPhrase :: forbiddenReferenceWords, ¬ phrase <:+: anchor chunkText) ↔
      Acceptable chunkText := by
  have hlength : (cutAnchor chunkText).length < 8 ↔ (leftOver chunkText).length < 8 := by
    rw [cutAnchor_eq, List.length_take]
    omega
  rw [anchor, Acceptable, ← hlength, ← cutAnchor_eq]
  by_cases hshort : (cutAnchor chunkText).length < 8
  · rw [if_pos hshort]
    exact iff_of_true (by decide) (Or.inl hshort)
  · rw [if_neg hshort]
    exact (or_iff_right hshort).symm

theorem passesItsGate_iff (chunkText : Str) : PassesItsGate chunkText ↔ Acceptable chunkText := by
  rw [← anchor_plain_iff, ← validate_question_iff]
  constructor
  · rintro ⟨_, accepted, hgenerate, _, haccepted⟩
    rw [generate_eq] at hgenerate
    cases hgenerate
    exact ⟨accepted, haccepted⟩
  · rintro ⟨accepted, haccepted⟩
    exact ⟨_, accepted, generate_eq chunkText, withinBounds_question (length_anchor chunkText).2,
      haccepted⟩

end YCStudio.DeterministicQuestionGenerator
