import LectureQuiz.Item
import LectureQuiz.Segment
import LectureQuiz.Sha256
import LectureQuiz.Text.Lowercase

/-!
# Keyword rules

A rule drafts an item from every segment of its module in which one of its
keywords occurs. Keywords are compared in lower case, without blanks at their
ends.
-/

namespace LectureQuiz

open LectureQuiz.Text

/-- The template of the choices of a drafted item. -/
inductive AnswerTemplate where
  | trueFalse (answer : Bool)
  | multipleChoice (choices : List String) (correct : UInt64)
  deriving DecidableEq, Repr

namespace AnswerTemplate

def kind : AnswerTemplate → ItemKind
  | .trueFalse _ => .trueFalse
  | .multipleChoice _ _ => .multipleChoice

def choices : AnswerTemplate → List String
  | .trueFalse _ => trueFalseChoices
  | .multipleChoice choices _ => choices

def correctIndex : AnswerTemplate → UInt64
  | .trueFalse answer => if answer then 0 else 1
  | .multipleChoice _ correct => correct

end AnswerTemplate

structure Rule where
  module : UInt32
  tag : String
  keywords : List String
  question : String
  answer : AnswerTemplate
  explanation : String
  tags : List String
  deriving DecidableEq, Repr

/-- Why a rule cannot be used. -/
inductive RuleFault where
  | emptyTag
  | noKeywords (tag : String)
  | badChoices (tag : String) (count : Nat) (correct : UInt64)
  deriving DecidableEq, Repr

def RuleFault.message : RuleFault → String
  | .emptyTag => "rule tag must not be empty"
  | .noKeywords tag => s!"rule '{tag}' has no keywords"
  | .badChoices tag count correct =>
      s!"rule '{tag}': mcq needs >= 2 choices and correct < len " ++
        s!"(got {count} choices, correct {correct})"

/-- Whether a pattern occurs somewhere in a text. -/
def occursIn (pattern : List Char) : List Char → Bool
  | [] => pattern.isEmpty
  | character :: rest =>
      pattern.isPrefixOf (character :: rest) || occursIn pattern rest

namespace Rule

def validate (rule : Rule) : Except RuleFault Unit :=
  if isBlankText rule.tag then
    .error .emptyTag
  else if rule.keywords.all isBlankText then
    .error (.noKeywords rule.tag)
  else
    match rule.answer with
    | .trueFalse _ => .ok ()
    | .multipleChoice choices correct =>
        if choices.length < 2 ∨ choices.length ≤ correct.toNat then
          .error (.badChoices rule.tag choices.length correct)
        else
          .ok ()

/-- The form in which a keyword is looked for. -/
def searchForm (keyword : String) : List Char :=
  lowercase (trim keyword.toList)

/-- Whether a keyword occurs in a text that is in lower case already. -/
def fires (rule : Rule) (lowered : String) : Bool :=
  rule.keywords.any fun keyword =>
    !(searchForm keyword).isEmpty &&
      occursIn (searchForm keyword) lowered.toList

/-- The item that the rule drafts from a text. Its id is the tag followed by the
number that `fingerprint` gives to the text. -/
def draft (fingerprint : String → Nat) (rule : Rule) (text : String) : Item where
  id := rule.tag ++ toString (fingerprint text)
  module := rule.module
  kind := rule.answer.kind
  question := rule.question
  choices := rule.answer.choices
  answerIndex := rule.answer.correctIndex
  explanation := rule.explanation
  tags := TagSet.ofList rule.tags
  assets := Assets.none

end Rule

/-- The number of different id endings. -/
def fingerprintRange : Nat := 10000

/-- The number that tells the texts of one rule apart, short enough for an id.
It depends on the text alone, and different texts may share it. -/
def textFingerprint (text : String) : Nat :=
  Sha256.leadingNumber text % fingerprintRange

/-- The id of the item that a rule with the given tag drafts from a text. -/
def itemId (tag text : String) : String :=
  tag ++ toString (textFingerprint text)

/-- Rules in the order in which they are tried, each of them usable. -/
structure RuleSet where
  rules : List Rule
  valid : ∀ rule ∈ rules, rule.validate = .ok ()

namespace RuleSet

def empty : RuleSet := ⟨[], by simp⟩

/-- The set with one usable rule at its end. -/
def push (set : RuleSet) (rule : Rule) (usable : rule.validate = .ok ()) :
    RuleSet where
  rules := set.rules ++ [rule]
  valid := by
    intro member isMember
    rcases List.mem_append.1 isMember with inSet | isRule
    · exact set.valid member inSet
    · rw [List.mem_singleton.1 isRule]
      exact usable

/-- Adds rules at the end, up to the first that cannot be used. The set keeps the
rules in front of it, and the result tells its fault. -/
def extend (set : RuleSet) : List Rule → RuleSet × Option RuleFault
  | [] => (set, none)
  | rule :: rest =>
      match usable : rule.validate with
      | .error fault => (set, some fault)
      | .ok () => (set.push rule usable).extend rest

/-- The items drafted from one segment, in the order of the rules. -/
def apply (fingerprint : String → Nat) (set : RuleSet) (segment : Segment) :
    List Item :=
  if isBlankText segment.text then
    []
  else
    let lowered := lowercased segment.text
    (set.rules.filter fun rule =>
      rule.module == segment.module && rule.fires lowered).map
        (·.draft fingerprint segment.text)

end RuleSet

end LectureQuiz
