import LectureQuiz.Text.Lowercase

namespace LectureQuiz.Text

/-- Whether a capital sigma between two texts is final. The text in front of it is
given backwards. -/
def isFinalSigma (before after : List Char) : Bool :=
  startsCased before && !startsCased after

/-- The lower-case form of a character between two texts, the one in front of it given
backwards. -/
def lowercaseCharBetween (before after : List Char) (character : Char) : List Char :=
  if character = 'Σ' then [if isFinalSigma before after then 'ς' else 'σ']
  else lowercaseChar character

/-- The lower-case form of a text between two others, the one in front of it given
backwards. -/
def lowercaseBetween (before after : List Char) : List Char → List Char
  | [] => []
  | character :: rest =>
      lowercaseCharBetween before (rest ++ after) character ++
        lowercaseBetween (character :: before) after rest

theorem lowercaseAfter_append (before text after : List Char) :
    lowercaseAfter before (text ++ after) =
      lowercaseBetween before after text ++
        lowercaseAfter (text.reverse ++ before) after := by
  induction text generalizing before with
  | nil => rfl
  | cons character rest inductionHypothesis =>
      rw [List.cons_append, lowercaseAfter, inductionHypothesis, lowercaseBetween,
        List.reverse_cons, List.append_assoc, List.append_assoc]
      rfl

theorem lowercase_eq_between (text : List Char) :
    lowercase text = lowercaseBetween [] [] text := by
  have whole := lowercaseAfter_append [] text []
  rwa [List.append_nil, List.append_nil, lowercaseAfter, List.append_nil] at whole

/-- Which of the capital sigmas of a text between two others are final, in order. The
text in front of it is given backwards. -/
def sigmaForms (before after : List Char) : List Char → List Bool
  | [] => []
  | character :: rest =>
      if character = 'Σ' then
        isFinalSigma before (rest ++ after) ::
          sigmaForms (character :: before) after rest
      else
        sigmaForms (character :: before) after rest

/-- Nothing but the forms of its sigmas tells where a text stands. -/
theorem lowercaseBetween_eq_iff
    {before after otherBefore otherAfter text : List Char} :
    lowercaseBetween before after text =
        lowercaseBetween otherBefore otherAfter text ↔
      sigmaForms before after text = sigmaForms otherBefore otherAfter text := by
  induction text generalizing before otherBefore with
  | nil => simp [lowercaseBetween, sigmaForms]
  | cons character text inductionHypothesis =>
      rw [lowercaseBetween, lowercaseBetween, sigmaForms, sigmaForms,
        lowercaseCharBetween, lowercaseCharBetween]
      by_cases isSigma : character = 'Σ'
      · have sameForm (first second : Bool) :
            (if first then 'ς' else 'σ') = (if second then 'ς' else 'σ') ↔
              first = second := by
          cases first <;> cases second <;> decide
        rw [if_pos isSigma, if_pos isSigma, if_pos isSigma, if_pos isSigma,
          List.singleton_append, List.singleton_append, List.cons.injEq,
          List.cons.injEq, sameForm, inductionHypothesis]
      · rw [if_neg isSigma, if_neg isSigma, if_neg isSigma, if_neg isSigma,
          List.append_right_inj, inductionHypothesis]

/-- Whether all capital sigmas of a text have the same form between two others as in
the text alone. -/
def KeepsSigmas (front text back : List Char) : Prop :=
  sigmaForms front.reverse back text = sigmaForms [] [] text

instance (front text back : List Char) : Decidable (KeepsSigmas front text back) :=
  inferInstanceAs (Decidable (_ = _))

/-- A part of a text that keeps its sigmas is found in lower case, too. -/
theorem isInfix_lowercase
    {front text back : List Char} (keeps : KeepsSigmas front text back) :
    lowercase text <:+: lowercase (front ++ (text ++ back)) := by
  have sameForm : lowercaseBetween front.reverse back text = lowercase text := by
    rw [lowercase_eq_between]
    exact lowercaseBetween_eq_iff.2 keeps
  have whole : lowercase (front ++ (text ++ back)) =
      lowercaseBetween [] (text ++ back) front ++
        (lowercase text ++ lowercaseAfter (text.reverse ++ front.reverse) back) := by
    rw [lowercase, lowercaseAfter_append, lowercaseAfter_append, List.append_nil,
      sameForm]
  rw [whole, ← List.append_assoc]
  exact List.infix_append _ _ _

theorem lowercaseChar_ne_nil (character : Char) : lowercaseChar character ≠ [] := by
  rw [lowercaseChar]
  split
  · simp
  · split
    · simp
    · split <;> simp

theorem lowercase_ne_nil {text : List Char} (notEmpty : text ≠ []) :
    lowercase text ≠ [] := by
  obtain ⟨character, rest, rfl⟩ := List.exists_cons_of_ne_nil notEmpty
  rw [lowercase, lowercaseAfter]
  split
  · simp
  · simp [lowercaseChar_ne_nil]

end LectureQuiz.Text
