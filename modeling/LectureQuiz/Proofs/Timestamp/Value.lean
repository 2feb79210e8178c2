import LectureQuiz.Proofs.Text.Digit
import LectureQuiz.Proofs.Timestamp

namespace LectureQuiz

open LectureQuiz.Text

namespace Timestamp

variable {digits line : List Char} {stamp : Timestamp}

/-- The fields of a stamp, with no digits for the hours if there are none. -/
def fields (stamp : Timestamp) : List (List Char) :=
  [stamp.hours.getD [], stamp.minutes, stamp.seconds]

/-- The seconds that a stamp tells. -/
def value (stamp : Timestamp) : Nat :=
  3600 * digitsValue (stamp.hours.getD []) + 60 * digitsValue stamp.minutes +
    digitsValue stamp.seconds

theorem toNat_fieldValue (short : digits.length ≤ 2) :
    (fieldValue digits).toNat = countedValue digits := by
  have bound : digitsValue digits < 2 ^ 32 :=
    calc digitsValue digits < 10 ^ digits.length := digitsValue_lt digits
      _ ≤ 10 ^ 2 := Nat.pow_le_pow_right (by decide) short
      _ < 2 ^ 32 := by decide
  rw [fieldValue, getD_decimal?, Nat.toUInt32_eq,
    UInt32.toNat_ofNat_of_lt' ((countedValue_le digits).trans_lt bound)]

theorem forall_mem_fields {property : List Char → Prop} :
    (∀ field ∈ stamp.fields, property field) ↔
      property (stamp.hours.getD []) ∧ property stamp.minutes ∧ property stamp.seconds := by
  rw [fields, List.forall_mem_cons, List.forall_mem_cons, List.forall_mem_singleton]

theorem short_of_mem_fields (proper : stamp.IsProper) :
    ∀ field ∈ stamp.fields, field.length ≤ 2 := by
  refine forall_mem_fields.2 ⟨?_, proper.minutes.short, proper.seconds.short⟩
  cases hours : stamp.hours with
  | none => exact Nat.zero_le 2
  | some digits => exact (proper.hours digits hours).short

theorem value_lt (proper : stamp.IsProper) : stamp.value < UInt32.size := by
  have bound : ∀ field ∈ stamp.fields, digitsValue field < 100 := fun field member =>
    calc digitsValue field < 10 ^ field.length := digitsValue_lt field
      _ ≤ 10 ^ 2 := Nat.pow_le_pow_right (by decide) (short_of_mem_fields proper field member)
  obtain ⟨hours, minutes, seconds⟩ := forall_mem_fields.1 bound
  rw [value, UInt32.size]
  omega

/-- The sum of a stamp is not reduced. -/
theorem toNat_total (proper : stamp.IsProper) :
    (total stamp).toNat =
      3600 * countedValue (stamp.hours.getD []) + 60 * countedValue stamp.minutes +
        countedValue stamp.seconds := by
  have bound := value_lt proper
  obtain ⟨shortHours, shortMinutes, shortSeconds⟩ :=
    forall_mem_fields.1 (short_of_mem_fields proper)
  have hours := countedValue_le (stamp.hours.getD [])
  have minutes := countedValue_le stamp.minutes
  have seconds := countedValue_le stamp.seconds
  rw [value, UInt32.size] at bound
  simp only [total, UInt32.toNat_add, UInt32.toNat_mul, UInt32.reduceToNat,
    toNat_fieldValue shortHours, toNat_fieldValue shortMinutes, toNat_fieldValue shortSeconds]
  omega

theorem toNat_total_eq_value_iff (proper : stamp.IsProper) :
    (total stamp).toNat = stamp.value ↔
      ∀ field ∈ stamp.fields, IsAsciiDigits field ∨ digitsValue field = 0 := by
  have hours := countedValue_le (stamp.hours.getD [])
  have minutes := countedValue_le stamp.minutes
  have seconds := countedValue_le stamp.seconds
  rw [toNat_total proper, value, forall_mem_fields, ← countedValue_eq_iff,
    ← countedValue_eq_iff, ← countedValue_eq_iff]
  omega

end Timestamp

/-- The time of a line is read from its leftmost stamp, the one with hours if there is
one. Every field of the stamp in ASCII digits counts with its value and every other field
as zero, and nothing leaves 32 bits. So the time is the value of the stamp exactly if each
field with a digit of another script is zero. -/
theorem stampOf?_counts_fields
    {line : List Char} {time : UInt32} (isRead : stampOf? line = some time) :
    ∃ stamp : Timestamp,
      (∃ before text, Timestamp.IsLeftmost line before text stamp) ∧
      (∀ other before text, Timestamp.IsLeftmost line before text other → other = stamp) ∧
      time.toNat =
        3600 * countedValue (stamp.hours.getD []) + 60 * countedValue stamp.minutes +
          countedValue stamp.seconds ∧
      stamp.value < UInt32.size ∧
      (time.toNat = stamp.value ↔
        ∀ field ∈ stamp.fields, IsAsciiDigits field ∨ digitsValue field = 0) := by
  obtain ⟨stamp, found, rfl⟩ := Option.map_eq_some_iff.1 isRead
  obtain ⟨before, text, leftmost⟩ := Timestamp.find?_eq_some_iff.1 found
  have proper := leftmost.stands.proper
  refine ⟨stamp, ⟨before, text, leftmost⟩, ?_, Timestamp.toNat_total proper,
    Timestamp.value_lt proper, Timestamp.toNat_total_eq_value_iff proper⟩
  intro other earlier later alsoLeftmost
  have alsoFound := Timestamp.find?_eq_some_iff.2 ⟨earlier, later, alsoLeftmost⟩
  exact Option.some.inj (alsoFound.symm.trans found)

theorem stampOf?_counts_fields_sample :
    stampOf? "at 12:00:59 sharp".toList = some 43259 ∧
      ∃ stamp : Timestamp,
        (∃ before text,
          Timestamp.IsLeftmost "at 12:00:59 sharp".toList before text stamp) ∧
        (43259 : UInt32).toNat = stamp.value := by
  have isRead : stampOf? "at 12:00:59 sharp".toList = some 43259 := by decide +kernel
  obtain ⟨stamp, leftmost, unique, _, _, isValue⟩ := stampOf?_counts_fields isRead
  have found : Timestamp.find? "at 12:00:59 sharp".toList =
      some ⟨some ['1', '2'], ['0', '0'], ['5', '9']⟩ := by decide +kernel
  obtain ⟨before, text, foundLeftmost⟩ := Timestamp.find?_eq_some_iff.1 found
  refine ⟨isRead, stamp, leftmost, isValue.2 ?_⟩
  rw [← unique _ before text foundLeftmost]
  decide

/-- Three minutes and seven seconds in the digits of another script are read as no time at
all. -/
theorem stampOf?_of_foreignDigits :
    ∃ stamp : Timestamp,
      Timestamp.IsLeftmost "٣:٠٧".toList [] "٣:٠٧".toList stamp ∧
        stamp.value = 187 ∧ stampOf? "٣:٠٧".toList = some 0 := by
  refine ⟨⟨none, ['٣'], ['٠', '٧']⟩, Timestamp.isLeftmost_nil_iff.2 ?_, ?_, ?_⟩
  · decide +kernel
  · decide +kernel
  · decide +kernel

end LectureQuiz
