import Mathlib.Data.List.Infix
import LectureQuiz.Timestamp

/-!
# Where stamps stand

A stamp is told by the characters that it is written with. The stamp of a line stands
in front of all others, and among the stamps at its place it is the one with hours. A
line has a stamp exactly if one is written anywhere in it, so no part of a line without
a stamp has one.
-/

namespace LectureQuiz

open LectureQuiz.Text

namespace Timestamp

/-- A field of one or two digits, of any script. -/
structure IsField (digits : List Char) : Prop where
  decimal : ∀ digit ∈ digits, isDecimalDigit digit = true
  notEmpty : 1 ≤ digits.length
  short : digits.length ≤ 2

/-- The fields of a stamp are fields, and the seconds have both digits. -/
structure IsProper (stamp : Timestamp) : Prop where
  hours : ∀ digits ∈ stamp.hours, IsField digits
  minutes : IsField stamp.minutes
  seconds : IsField stamp.seconds
  bothSeconds : stamp.seconds.length = 2

/-- The characters of a stamp: its fields with colons between them. -/
def written (stamp : Timestamp) : List Char :=
  match stamp.hours with
  | none => stamp.minutes ++ ':' :: stamp.seconds
  | some hours => hours ++ ':' :: (stamp.minutes ++ ':' :: stamp.seconds)

/-- The text starts with the stamp. -/
structure StandsAt (stamp : Timestamp) (text : List Char) : Prop where
  proper : stamp.IsProper
  written : stamp.written <+: text

variable {digits text rest line before : List Char} {stamp : Timestamp}

theorem IsField.colon_not_mem (field : IsField digits) : ':' ∉ digits := by
  intro member
  exact absurd (field.decimal ':' member) (by decide)

theorem isField_singleton {first : Char} (digit : isDecimalDigit first = true) :
    IsField [first] :=
  ⟨List.forall_mem_singleton.2 digit, le_rfl, by simp⟩

theorem isField_pair
    {first second : Char} (firstDigit : isDecimalDigit first = true)
    (secondDigit : isDecimalDigit second = true) : IsField [first, second] :=
  ⟨List.forall_mem_cons.2 ⟨firstDigit, List.forall_mem_singleton.2 secondDigit⟩,
    by simp, le_rfl⟩

theorem IsField.cases (field : IsField digits) :
    (∃ first, digits = [first] ∧ isDecimalDigit first = true) ∨
      ∃ first second, digits = [first, second] ∧
        isDecimalDigit first = true ∧ isDecimalDigit second = true := by
  obtain ⟨decimal, notEmpty, short⟩ := field
  match digits with
  | [] => exact absurd notEmpty (by simp)
  | [first] => exact Or.inl ⟨first, rfl, decimal first List.mem_cons_self⟩
  | [first, second] =>
      exact Or.inr ⟨first, second, rfl, decimal first List.mem_cons_self,
        decimal second (List.mem_cons_of_mem _ List.mem_cons_self)⟩
  | _ :: _ :: _ :: _ =>
      simp only [List.length_cons] at short
      omega

theorem leadingField?_eq_some_iff :
    leadingField? text = some (digits, rest) ↔
      IsField digits ∧ text = digits ++ ':' :: rest := by
  constructor
  · intro isRead
    fun_cases leadingField? text with
    | case1 first after digit =>
        rw [leadingField?, if_pos digit, Option.some.injEq, Prod.mk.injEq] at isRead
        obtain ⟨rfl, rfl⟩ := isRead
        exact ⟨isField_singleton digit, rfl⟩
    | case2 first after notDigit =>
        rw [leadingField?, if_neg notDigit] at isRead
        exact absurd isRead nofun
    | case3 first second after notColon both =>
        rw [leadingField?, if_pos both, Option.some.injEq, Prod.mk.injEq] at isRead
        · obtain ⟨rfl, rfl⟩ := isRead
          rw [Bool.and_eq_true] at both
          exact ⟨isField_pair both.1 both.2, rfl⟩
        · exact notColon
    | case4 first second after notColon notBoth =>
        rw [leadingField?, if_neg notBoth] at isRead
        · exact absurd isRead nofun
        · exact notColon
    | case5 other noShort noLong =>
        rw [leadingField?] at isRead
        · exact absurd isRead nofun
        · exact noShort
        · exact noLong
  · rintro ⟨field, rfl⟩
    rcases field.cases with ⟨first, rfl, digit⟩ | ⟨first, second, rfl, firstDigit, secondDigit⟩
    · exact if_pos digit
    · rw [List.cons_append, List.singleton_append, leadingField?, firstDigit, secondDigit]
      · rfl
      · intro isColon
        exact field.colon_not_mem (by simp [isColon])

theorem secondsField?_eq_some_iff :
    secondsField? text = some digits ↔
      IsField digits ∧ digits.length = 2 ∧ digits <+: text := by
  constructor
  · intro isRead
    fun_cases secondsField? text with
    | case1 first second after both =>
        rw [secondsField?, if_pos both, Option.some.injEq] at isRead
        subst isRead
        rw [Bool.and_eq_true] at both
        exact ⟨isField_pair both.1 both.2, rfl, ⟨after, rfl⟩⟩
    | case2 first second after notBoth =>
        rw [secondsField?, if_neg notBoth] at isRead
        exact absurd isRead nofun
    | case3 other noPair =>
        rw [secondsField?] at isRead
        · exact absurd isRead nofun
        · exact noPair
  · rintro ⟨field, both, after, rfl⟩
    rcases field.cases with ⟨first, rfl, _⟩ | ⟨first, second, rfl, firstDigit, secondDigit⟩
    · exact absurd both (by simp)
    · simp [secondsField?, firstDigit, secondDigit]

theorem shortAt?_eq_some_iff :
    shortAt? text = some stamp ↔ stamp.hours = none ∧ stamp.StandsAt text := by
  constructor
  · intro isRead
    obtain ⟨⟨minutes, behind⟩, minutesRead, others⟩ := Option.bind_eq_some_iff.1 isRead
    obtain ⟨seconds, secondsRead, made⟩ := Option.bind_eq_some_iff.1 others
    obtain ⟨minutesField, rfl⟩ := leadingField?_eq_some_iff.1 minutesRead
    obtain ⟨secondsField, both, after, rfl⟩ := secondsField?_eq_some_iff.1 secondsRead
    obtain rfl := Option.some.inj made
    refine ⟨rfl, ⟨nofun, minutesField, secondsField, both⟩, after, ?_⟩
    simp [written]
  · obtain ⟨hours, minutes, seconds⟩ := stamp
    rintro ⟨noHours, proper, after, rfl⟩
    dsimp only at noHours
    subst noHours
    have minutesRead :
        leadingField? (minutes ++ ':' :: (seconds ++ after)) =
          some (minutes, seconds ++ after) :=
      leadingField?_eq_some_iff.2 ⟨proper.minutes, rfl⟩
    have secondsRead : secondsField? (seconds ++ after) = some seconds :=
      secondsField?_eq_some_iff.2 ⟨proper.seconds, proper.bothSeconds, after, rfl⟩
    simp [shortAt?, written, minutesRead, secondsRead]

theorem longAt?_eq_some_iff :
    longAt? text = some stamp ↔ stamp.hours ≠ none ∧ stamp.StandsAt text := by
  constructor
  · intro isRead
    obtain ⟨⟨hours, behind⟩, hoursRead, others⟩ := Option.bind_eq_some_iff.1 isRead
    obtain ⟨short, shortRead, made⟩ := Option.bind_eq_some_iff.1 others
    obtain ⟨hoursField, rfl⟩ := leadingField?_eq_some_iff.1 hoursRead
    obtain ⟨noHours, proper, after, rfl⟩ := shortAt?_eq_some_iff.1 shortRead
    obtain rfl := Option.some.inj made
    refine ⟨Option.some_ne_none hours, ⟨?_, proper.minutes, proper.seconds,
      proper.bothSeconds⟩, after, ?_⟩
    · rintro digits isHours
      rw [← Option.some.inj isHours]
      exact hoursField
    · simp [written, noHours]
  · obtain ⟨hours, minutes, seconds⟩ := stamp
    rintro ⟨hasHours, proper, after, rfl⟩
    cases hours with
    | none => exact absurd rfl hasHours
    | some hours =>
        have hoursRead :
            leadingField? (hours ++ ':' :: (minutes ++ ':' :: seconds ++ after)) =
              some (hours, minutes ++ ':' :: seconds ++ after) :=
          leadingField?_eq_some_iff.2 ⟨proper.hours hours rfl, rfl⟩
        have shortRead :
            shortAt? (minutes ++ ':' :: seconds ++ after) = some ⟨none, minutes, seconds⟩ :=
          shortAt?_eq_some_iff.2
            ⟨rfl, ⟨nofun, proper.minutes, proper.seconds, proper.bothSeconds⟩, after, rfl⟩
        rw [longAt?, written]
        simp only [List.append_assoc, List.cons_append] at hoursRead shortRead ⊢
        rw [hoursRead]
        simp [shortRead]

/-- Of the stamps at the start of a text one with hours is read, if there is any. -/
theorem startsAt?_eq_some_iff :
    startsAt? text = some stamp ↔
      stamp.StandsAt text ∧
        ∀ other : Timestamp, other.StandsAt text → other.hours ≠ none →
          stamp.hours ≠ none := by
  rw [startsAt?, Option.or_eq_some_iff, longAt?_eq_some_iff, shortAt?_eq_some_iff]
  constructor
  · rintro (⟨hasHours, stands⟩ | ⟨noLong, _, stands⟩)
    · exact ⟨stands, fun _ _ _ => hasHours⟩
    · refine ⟨stands, fun other otherStands otherHours => ?_⟩
      have isRead := longAt?_eq_some_iff.2 ⟨otherHours, otherStands⟩
      exact absurd (isRead.symm.trans noLong) (Option.some_ne_none other)
  · rintro ⟨stands, withHours⟩
    by_cases hasHours : stamp.hours = none
    · refine Or.inr ⟨Option.eq_none_iff_forall_ne_some.2 fun other isRead => ?_, hasHours,
        stands⟩
      obtain ⟨otherHours, otherStands⟩ := longAt?_eq_some_iff.1 isRead
      exact withHours other otherStands otherHours hasHours
    · exact Or.inl ⟨hasHours, stands⟩

theorem startsAt?_eq_none_iff :
    startsAt? text = none ↔ ∀ stamp : Timestamp, ¬stamp.StandsAt text := by
  rw [startsAt?, Option.or_eq_none_iff, Option.eq_none_iff_forall_ne_some,
    Option.eq_none_iff_forall_ne_some]
  simp only [ne_eq, longAt?_eq_some_iff, shortAt?_eq_some_iff]
  constructor
  · rintro ⟨noLong, noShort⟩ stamp stands
    by_cases hasHours : stamp.hours = none
    · exact noShort stamp ⟨hasHours, stands⟩
    · exact noLong stamp ⟨hasHours, stands⟩
  · intro nowhere
    exact ⟨fun stamp long => nowhere stamp long.2, fun stamp short => nowhere stamp short.2⟩

/-! ## The stamp of a line -/

/-- The stamp that counts in a line: no stamp stands further to the left, and none with
hours at its place if it has no hours. -/
structure IsLeftmost
    (line before text : List Char) (stamp : Timestamp) : Prop where
  whole : line = before ++ text
  stands : stamp.StandsAt text
  leftmost : ∀ (other : Timestamp) (earlier later : List Char),
    line = earlier ++ later → other.StandsAt later → before.length ≤ earlier.length
  withHours : ∀ other : Timestamp,
    other.StandsAt text → other.hours ≠ none → stamp.hours ≠ none

theorem isLeftmost_nil_iff :
    IsLeftmost line [] line stamp ↔ startsAt? line = some stamp := by
  rw [startsAt?_eq_some_iff]
  constructor
  · exact fun first => ⟨first.stands, first.withHours⟩
  · exact fun isRead => ⟨rfl, isRead.1, fun _ _ _ _ _ => Nat.zero_le _, isRead.2⟩

theorem isLeftmost_cons_iff {first : Char} :
    IsLeftmost (first :: line) (first :: before) text stamp ↔
      startsAt? (first :: line) = none ∧ IsLeftmost line before text stamp := by
  rw [startsAt?_eq_none_iff]
  constructor
  · intro leftmost
    refine ⟨fun other stands => ?_, ?_, leftmost.stands, ?_, leftmost.withHours⟩
    · exact absurd (leftmost.leftmost other [] _ rfl stands) (by simp)
    · exact List.tail_eq_of_cons_eq leftmost.whole
    · intro other earlier later whole stands
      have bound := leftmost.leftmost other (first :: earlier) later (by simp [whole]) stands
      simpa using bound
  · rintro ⟨nowhere, leftmost⟩
    refine ⟨by rw [leftmost.whole, List.cons_append], leftmost.stands, ?_, leftmost.withHours⟩
    intro other earlier later whole stands
    cases earlier with
    | nil => exact absurd (whole ▸ stands) (nowhere other)
    | cons head earlier =>
        have bound := leftmost.leftmost other earlier later
          (List.tail_eq_of_cons_eq whole) stands
        simpa using bound

theorem find?_eq_some_iff :
    find? line = some stamp ↔ ∃ before text, IsLeftmost line before text stamp := by
  induction line with
  | nil =>
      constructor
      · nofun
      · rintro ⟨before, text, leftmost⟩
        obtain ⟨rfl, rfl⟩ := List.append_eq_nil_iff.1 leftmost.whole.symm
        exact absurd (isLeftmost_nil_iff.1 leftmost) nofun
  | cons first rest inductionHypothesis =>
      rw [find?, Option.or_eq_some_iff, inductionHypothesis]
      constructor
      · rintro (atStart | ⟨noStart, before, text, leftmost⟩)
        · exact ⟨[], _, isLeftmost_nil_iff.2 atStart⟩
        · exact ⟨first :: before, text, isLeftmost_cons_iff.2 ⟨noStart, leftmost⟩⟩
      · rintro ⟨before, text, leftmost⟩
        cases before with
        | nil =>
            have whole : first :: rest = text := leftmost.whole
            subst whole
            exact Or.inl (isLeftmost_nil_iff.1 leftmost)
        | cons head before =>
            obtain rfl : first = head := (List.cons.inj leftmost.whole).1
            obtain ⟨noStart, later⟩ := isLeftmost_cons_iff.1 leftmost
            exact Or.inr ⟨noStart, before, text, later⟩

/-- A line has no stamp exactly if none is written in it. -/
theorem find?_eq_none_iff :
    find? line = none ↔
      ∀ stamp : Timestamp, stamp.IsProper → ¬stamp.written <:+: line := by
  induction line with
  | nil =>
      refine ⟨fun _ stamp proper inside => ?_, fun _ => rfl⟩
      have stands : stamp.StandsAt [] := ⟨proper, List.infix_nil.1 inside ▸ List.nil_prefix⟩
      exact startsAt?_eq_none_iff.1 rfl stamp stands
  | cons first rest inductionHypothesis =>
      rw [find?, Option.or_eq_none_iff, startsAt?_eq_none_iff, inductionHypothesis]
      simp only [List.infix_cons_iff, not_or]
      constructor
      · rintro ⟨noStart, notInside⟩ stamp proper
        exact ⟨fun start => noStart stamp ⟨proper, start⟩, notInside stamp proper⟩
      · intro nowhere
        exact ⟨fun stamp stands => (nowhere stamp stands.proper).1 stands.written,
          fun stamp proper => (nowhere stamp proper).2⟩

theorem decimal_or_colon_of_mem_written
    (proper : stamp.IsProper) {character : Char} (member : character ∈ stamp.written) :
    isDecimalDigit character = true ∨ character = ':' := by
  obtain ⟨hours, minutes, seconds⟩ := stamp
  have ofShort (inShort : character ∈ minutes ++ ':' :: seconds) :
      isDecimalDigit character = true ∨ character = ':' := by
    rcases List.mem_append.1 inShort with inMinutes | behind
    · exact Or.inl (proper.minutes.decimal character inMinutes)
    · rcases List.mem_cons.1 behind with isColon | inSeconds
      · exact Or.inr isColon
      · exact Or.inl (proper.seconds.decimal character inSeconds)
  cases hours with
  | none => exact ofShort member
  | some hours =>
      rcases List.mem_append.1 member with inHours | behind
      · exact Or.inl ((proper.hours hours rfl).decimal character inHours)
      · rcases List.mem_cons.1 behind with isColon | inShort
        · exact Or.inr isColon
        · exact ofShort inShort

end Timestamp

variable {line part : List Char}

theorem stampOf?_eq_none_iff :
    stampOf? line = none ↔
      ∀ stamp : Timestamp, stamp.IsProper → ¬stamp.written <:+: line := by
  rw [stampOf?, Option.map_eq_none_iff, Timestamp.find?_eq_none_iff]

/-- Cutting a text cannot make a stamp. -/
theorem stampOf?_of_isInfix
    (isPart : part <:+: line) (plain : stampOf? line = none) : stampOf? part = none := by
  rw [stampOf?_eq_none_iff] at plain ⊢
  exact fun stamp proper inside => plain stamp proper (inside.trans isPart)

end LectureQuiz
