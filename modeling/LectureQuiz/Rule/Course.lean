import LectureQuiz.Rule

/-!
# The course rules

One rule for each of the course modules six to ten.
-/

namespace LectureQuiz

def inductionRule : Rule where
  module := 6
  tag := "M6-IND-BC-"
  keywords := ["induction", "base case", "inductive step", "assume"]
  question := "In mathematical induction, the base case verifies the statement for the first value in the domain."
  answer := .trueFalse true
  explanation := "Base case anchors the proof at the initial value."
  tags := ["induction", "base-case"]

def countingRule : Rule where
  module := 7
  tag := "M7-CNT-PR-"
  keywords :=
    ["product rule", "sum rule", "permutation", "combination", "counting"]
  question := "Which rule applies when counting outcomes from independent sequential choices?"
  answer := .multipleChoice
    ["Product rule", "Sum rule", "Inclusion–exclusion", "Pigeonhole principle"]
    0
  explanation := "Independent stages multiply the counts → product rule."
  tags := ["counting", "product-rule"]

def probabilityRule : Rule where
  module := 8
  tag := "M8-PROB-IND-"
  keywords := ["conditional", "independent", "bayes", "probability"]
  question := "Events A and B are independent iff:"
  answer := .multipleChoice
    ["P(A∩B) = P(A)P(B)", "P(A|B) = P(B)", "P(A∪B) = P(A)+P(B)",
      "P(A|B) = 1"]
    0
  explanation := "Independence is defined by P(A∩B) = P(A)P(B)."
  tags := ["probability", "independence"]

def relationRule : Rule where
  module := 9
  tag := "M9-REL-TF-"
  keywords := ["reflexive", "symmetric", "transitive", "relation"]
  question := "A relation R on a set S is reflexive if ∀x∈S, (x,x)∈R."
  answer := .trueFalse true
  explanation := "Reflexivity requires every element to relate to itself."
  tags := ["relations", "reflexive"]

def treeRule : Rule where
  module := 10
  tag := "M10-GRAPH-TREE-"
  keywords := ["graph", "euler", "hamilton", "tree", "degree"]
  question := "In any tree with V vertices, the number of edges E equals:"
  answer := .multipleChoice ["V−1", "V", "V+1", "2V−1"] 0
  explanation := "Trees are connected and acyclic ⇒ E = V − 1."
  tags := ["graphs", "trees"]

def courseRules : List Rule :=
  [inductionRule, countingRule, probabilityRule, relationRule, treeRule]

namespace RuleSet

/-- The rules that every configuration starts from. -/
def course : RuleSet where
  rules := courseRules
  valid := by
    intro rule isMember
    simp only [courseRules, List.mem_cons, List.not_mem_nil, or_false] at isMember
    rcases isMember with rfl | rfl | rfl | rfl | rfl <;> rfl

end RuleSet

end LectureQuiz
