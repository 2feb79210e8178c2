import LectureQuiz.Proofs.Timestamp.Value

/-!
# Recognizing stamps

A line has a stamp exactly if a digit, a colon and two digits stand next to each other in
it: this is the end of every stamp and a stamp of its own. Behind a text that has no stamp
and does not end in a character of one, a stamp is read where it is written, with all
its fields.
-/

namespace LectureQuiz

open LectureQuiz.Text

namespace Timestamp

variable {before text after line hours minutes seconds : List Char} {stamp : Timestamp}

/-- A digit, a colon and two digits. -/
structure IsTail (minute tens unit : Char) : Prop where
  minute : isDecimalDigit minute = true
  tens : isDecimalDigit tens = true
  unit : isDecimalDigit unit = true

theorem IsTail.isProper {minute tens unit : Char} (tail : IsTail minute tens unit) :
    IsProper ⟨none, [minute], [tens, unit]⟩ where
  hours := nofun
  minutes := isField_singleton tail.minute
  seconds := isField_pair tail.tens tail.unit
  bothSeconds := rfl

theorem IsField.exists_last (field : IsField minutes) :
    ∃ earlier last, minutes = earlier ++ [last] ∧ isDecimalDigit last = true := by
  rcases field.cases with ⟨first, same, digit⟩ | ⟨first, second, same, _, digit⟩
  · exact ⟨[], first, same, digit⟩
  · exact ⟨[first], second, same, digit⟩

theorem IsProper.exists_tail (proper : stamp.IsProper) :
    ∃ minute tens unit, IsTail minute tens unit ∧
      [minute, ':', tens, unit] <:+: stamp.written := by
  obtain ⟨earlier, minute, minutesEq, minuteDigit⟩ := proper.minutes.exists_last
  have both := proper.bothSeconds
  rcases proper.seconds.cases with ⟨first, secondsEq, _⟩ | ⟨tens, unit, secondsEq, tensDigit, unitDigit⟩
  · simp [secondsEq] at both
  · refine ⟨minute, tens, unit, ⟨minuteDigit, tensDigit, unitDigit⟩, ?_⟩
    cases hoursEq : stamp.hours with
    | none =>
        refine ⟨earlier, [], ?_⟩
        simp [written, hoursEq, minutesEq, secondsEq]
    | some hours =>
        refine ⟨hours ++ ':' :: earlier, [], ?_⟩
        simp [written, hoursEq, minutesEq, secondsEq]

theorem isSome_find?_iff :
    (find? line).isSome = true ↔
      ∃ minute tens unit, IsTail minute tens unit ∧
        [minute, ':', tens, unit] <:+: line := by
  rw [← Option.ne_none_iff_isSome, Ne, find?_eq_none_iff]
  simp only [not_forall, not_not]
  constructor
  · rintro ⟨stamp, proper, inside⟩
    obtain ⟨minute, tens, unit, tail, atEnd⟩ := proper.exists_tail
    exact ⟨minute, tens, unit, tail, atEnd.trans inside⟩
  · rintro ⟨minute, tens, unit, tail, inside⟩
    exact ⟨_, tail.isProper, inside⟩

/-- The text ends in no character that a stamp is written with. -/
def EndsApart (text : List Char) : Prop :=
  ∀ last ∈ text.getLast?, isDecimalDigit last = false ∧ last ≠ ':'

theorem endsApart_iff_all :
    text.getLast?.all (fun last => !isDecimalDigit last && last != ':') = true ↔
      EndsApart text := by
  simp [EndsApart, Option.all_eq_true]

instance (text : List Char) : Decidable (EndsApart text) :=
  decidable_of_iff _ endsApart_iff_all

theorem EndsApart.not_mem_written
    (apart : EndsApart before) (proper : stamp.IsProper) {last : Char}
    (isLast : last ∈ before.getLast?) : last ∉ stamp.written := by
  intro member
  rcases decimal_or_colon_of_mem_written proper member with isDigit | isColon
  · rw [(apart last isLast).1] at isDigit
    exact absurd isDigit Bool.false_ne_true
  · exact (apart last isLast).2 isColon

/-- A stamp that starts in the text in front ends in it. -/
theorem EndsApart.standsAt
    (apart : EndsApart before) (notEmpty : before ≠ [])
    (stands : stamp.StandsAt (before ++ text)) : stamp.StandsAt before := by
  refine ⟨stands.proper, ?_⟩
  rcases List.prefix_or_prefix_of_prefix stands.written (List.prefix_append before text)
    with inside | beyond
  · exact inside
  · have isLast := List.getLast?_eq_some_getLast notEmpty
    have member := beyond.subset (List.mem_of_getLast? isLast)
    exact absurd member (apart.not_mem_written stands.proper isLast)

theorem find?_append
    (plain : find? before = none) (apart : EndsApart before) :
    find? (before ++ text) = find? text := by
  induction before with
  | nil => rfl
  | cons first rest inductionHypothesis =>
      rw [find?, Option.or_eq_none_iff, startsAt?_eq_none_iff] at plain
      have noStart : startsAt? (first :: rest ++ text) = none :=
        startsAt?_eq_none_iff.2 fun stamp stands =>
          plain.1 stamp (apart.standsAt (List.cons_ne_nil first rest) stands)
      have restApart : EndsApart rest := by
        intro last isLast
        exact apart last (List.mem_getLast?_cons isLast)
      rw [List.cons_append] at noStart ⊢
      rw [find?, noStart, Option.none_or, inductionHypothesis plain.2 restApart]

theorem find?_of_startsAt? (atStart : startsAt? text = some stamp) :
    find? text = some stamp :=
  find?_eq_some_iff.2 ⟨[], text, isLeftmost_nil_iff.2 atStart⟩

theorem startsAt?_long
    (proper : IsProper ⟨some hours, minutes, seconds⟩) (after : List Char) :
    startsAt? (hours ++ ':' :: (minutes ++ ':' :: (seconds ++ after))) =
      some ⟨some hours, minutes, seconds⟩ := by
  refine startsAt?_eq_some_iff.2 ⟨⟨proper, after, ?_⟩, fun _ _ _ => nofun⟩
  simp [written]

/-- The seconds are the field in front of a colon only if that colon is behind them. -/
theorem leadingField?_seconds
    (field : IsField seconds) (both : seconds.length = 2)
    (noColon : after.head? ≠ some ':') : leadingField? (seconds ++ after) = none := by
  refine Option.eq_none_iff_forall_ne_some.2 fun ⟨digits, rest⟩ isRead => ?_
  obtain ⟨digitsField, whole⟩ := leadingField?_eq_some_iff.1 isRead
  have noColonInside := field.colon_not_mem
  rcases field.cases with ⟨first, rfl, _⟩ | ⟨tens, unit, rfl, _, _⟩
  · simp at both
  · rcases digitsField.cases with ⟨first, rfl, _⟩ | ⟨first, second, rfl, _, _⟩
    · simp only [List.cons_append, List.nil_append, List.cons.injEq] at whole
      simp [whole.2.1] at noColonInside
    · simp only [List.cons_append, List.nil_append, List.cons.injEq] at whole
      simp [whole.2.2] at noColon

theorem startsAt?_short
    (proper : IsProper ⟨none, minutes, seconds⟩) (noColon : after.head? ≠ some ':') :
    startsAt? (minutes ++ ':' :: (seconds ++ after)) = some ⟨none, minutes, seconds⟩ := by
  have minutesRead :
      leadingField? (minutes ++ ':' :: (seconds ++ after)) =
        some (minutes, seconds ++ after) :=
    leadingField?_eq_some_iff.2 ⟨proper.minutes, rfl⟩
  have noHours : longAt? (minutes ++ ':' :: (seconds ++ after)) = none := by
    have noMinutes := leadingField?_seconds proper.seconds proper.bothSeconds noColon
    simp [longAt?, shortAt?, minutesRead, noMinutes]
  have isShort :
      shortAt? (minutes ++ ':' :: (seconds ++ after)) = some ⟨none, minutes, seconds⟩ :=
    shortAt?_eq_some_iff.2 ⟨rfl, proper, after, by simp [written]⟩
  rw [startsAt?, noHours, Option.none_or, isShort]

/-- The digits are a field that writes the number in ASCII digits. -/
structure WritesField (digits : List Char) (value : Nat) : Prop where
  ascii : IsAsciiDigits digits
  notEmpty : 1 ≤ digits.length
  short : digits.length ≤ 2
  value : digitsValue digits = value

namespace WritesField

variable {digits : List Char} {value : Nat}

theorem isField (writes : WritesField digits value) : IsField digits where
  decimal := fun digit member => isDecimalDigit_of_isDigit (writes.ascii digit member)
  notEmpty := writes.notEmpty
  short := writes.short

theorem countedValue_eq (writes : WritesField digits value) :
    countedValue digits = value := by
  rw [countedValue, if_pos writes.ascii, writes.value]

instance (digits : List Char) (value : Nat) : Decidable (WritesField digits value) :=
  decidable_of_iff
    (IsAsciiDigits digits ∧ 1 ≤ digits.length ∧ digits.length ≤ 2 ∧ digitsValue digits = value)
    ⟨fun ⟨ascii, notEmpty, short, value⟩ => ⟨ascii, notEmpty, short, value⟩,
      fun writes => ⟨writes.ascii, writes.notEmpty, writes.short, writes.value⟩⟩

end WritesField

end Timestamp

open Timestamp

variable {before hours minutes seconds after : List Char} {hour minute second : Nat}

/-- The stamp behind a text without one counts with its time. -/
theorem stampOf?_append
    {stamp : Timestamp} {text : List Char} (plain : stampOf? before = none)
    (apart : EndsApart before) (atStart : startsAt? text = some stamp) :
    stampOf? (before ++ text) = some stamp.total := by
  rw [stampOf?, Option.map_eq_none_iff] at plain
  rw [stampOf?, find?_append plain apart, find?_of_startsAt? atStart, Option.map_some]

theorem toNat_stampOf?_long
    (plain : stampOf? before = none) (apart : EndsApart before)
    (writesHours : WritesField hours hour) (writesMinutes : WritesField minutes minute)
    (writesSeconds : WritesField seconds second) (both : seconds.length = 2)
    (after : List Char) :
    (stampOf? (before ++ (hours ++ ':' :: (minutes ++ ':' :: (seconds ++ after))))).map
      UInt32.toNat = some (3600 * hour + 60 * minute + second) := by
  have proper : IsProper ⟨some hours, minutes, seconds⟩ := by
    refine ⟨?_, writesMinutes.isField, writesSeconds.isField, both⟩
    intro digits isHours
    rw [← Option.some.inj isHours]
    exact writesHours.isField
  rw [stampOf?_append plain apart (startsAt?_long proper after), Option.map_some,
    toNat_total proper, Option.getD_some, writesHours.countedValue_eq,
    writesMinutes.countedValue_eq, writesSeconds.countedValue_eq]

theorem toNat_stampOf?_short
    (plain : stampOf? before = none) (apart : EndsApart before)
    (writesMinutes : WritesField minutes minute)
    (writesSeconds : WritesField seconds second) (both : seconds.length = 2)
    (noColon : after.head? ≠ some ':') :
    (stampOf? (before ++ (minutes ++ ':' :: (seconds ++ after)))).map
      UInt32.toNat = some (60 * minute + second) := by
  have proper : IsProper ⟨none, minutes, seconds⟩ :=
    ⟨nofun, writesMinutes.isField, writesSeconds.isField, both⟩
  have noHours : countedValue [] = 0 := by decide
  rw [stampOf?_append plain apart (startsAt?_short proper noColon), Option.map_some,
    toNat_total proper, Option.getD_none, noHours, writesMinutes.countedValue_eq,
    writesSeconds.countedValue_eq, Nat.mul_zero, Nat.zero_add]

/-- A line has a stamp exactly if a digit, a colon and two digits stand next to each other
in it, whatever script the digits are of. Behind a text that has no stamp and does not end
in a digit or a colon, hours, minutes and seconds in ASCII digits are read as the time that
they write, whatever follows them, and so are minutes and seconds that no colon follows. -/
theorem stampOf?_recognizes :
    (∀ line : List Char,
      (stampOf? line).isSome = true ↔
        ∃ minute tens unit, IsTail minute tens unit ∧
          [minute, ':', tens, unit] <:+: line) ∧
    ∀ before : List Char, stampOf? before = none → EndsApart before →
      ∀ (minutes seconds : List Char) (minute second : Nat),
        WritesField minutes minute → WritesField seconds second → seconds.length = 2 →
        ∀ after : List Char,
          (∀ (hours : List Char) (hour : Nat), WritesField hours hour →
            (stampOf? (before ++
              (hours ++ ':' :: (minutes ++ ':' :: (seconds ++ after))))).map UInt32.toNat =
              some (3600 * hour + 60 * minute + second)) ∧
          (after.head? ≠ some ':' →
            (stampOf? (before ++ (minutes ++ ':' :: (seconds ++ after)))).map UInt32.toNat =
              some (60 * minute + second)) := by
  constructor
  · intro line
    rw [stampOf?, Option.isSome_map, isSome_find?_iff]
  · intro before plain apart minutes seconds minute second writesMinutes writesSeconds both after
    constructor
    · intro hours hour writesHours
      exact toNat_stampOf?_long plain apart writesHours writesMinutes writesSeconds both after
    · intro noColon
      exact toNat_stampOf?_short plain apart writesMinutes writesSeconds both noColon

/-- Behind text that looks like the start of a stamp, and in front of what looks like more
of one. -/
theorem stampOf?_recognizes_sample :
    stampOf? "ratio 3:1, at ".toList = none ∧ EndsApart "ratio 3:1, at ".toList ∧
      (stampOf? ("ratio 3:1, at ".toList ++
        (['1'] ++ ':' :: (['0', '2'] ++ ':' :: (['0', '3'] ++ ":04".toList))))).map
          UInt32.toNat = some 3723 ∧
      (stampOf? ("ratio 3:1, at ".toList ++
        (['2'] ++ ':' :: (['0', '3'] ++ "45".toList)))).map UInt32.toNat = some 123 := by
  have plain : stampOf? "ratio 3:1, at ".toList = none := by decide +kernel
  have apart : EndsApart "ratio 3:1, at ".toList := by decide +kernel
  have hours : WritesField ['1'] 1 := by decide +kernel
  have padded : WritesField ['0', '2'] 2 := by decide +kernel
  have minutes : WritesField ['2'] 2 := by decide +kernel
  have seconds : WritesField ['0', '3'] 3 := by decide +kernel
  have behind := stampOf?_recognizes.2 _ plain apart
  refine ⟨plain, apart, ?_, ?_⟩
  · exact (behind _ _ 2 3 padded seconds rfl ":04".toList).1 ['1'] 1 hours
  · exact (behind _ _ 2 3 minutes seconds rfl "45".toList).2 (by decide +kernel)

end LectureQuiz
