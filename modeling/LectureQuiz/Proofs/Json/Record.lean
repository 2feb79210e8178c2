import LectureQuiz.Json.Record
import LectureQuiz.Proofs.Json.RoundTrip

namespace LectureQuiz.Json

@[simp] theorem word32?_ofWord32 (value : UInt32) :
    word32? (ofWord32 value) = some value := by
  simp [word32?, ofWord32, value.toNat_lt_size]

@[simp] theorem word64?_ofWord64 (value : UInt64) :
    word64? (ofWord64 value) = some value := by
  simp [word64?, ofWord64, value.toNat_lt_size]

@[simp] theorem text?_string (text : String) : text? (.string text) = some text :=
  rfl

/-- An absent value is told from a present one that is not written as `null`. -/
theorem optional?_ofOptional
    {alpha : Type} {write : alpha → Json} {read : Json → Option alpha}
    (readBack : ∀ value, read (write value) = some value)
    (notNull : ∀ value, write value ≠ .null) (given : Option alpha) :
    optional? read (ofOptional write given) = some given := by
  cases given with
  | none => rfl
  | some value =>
      rw [ofOptional, optional?, readBack]
      · rfl
      · exact notNull value

theorem list?_array
    {alpha : Type} {write : alpha → Json} {read : Json → Option alpha}
    (readBack : ∀ value, read (write value) = some value) (values : List alpha) :
    list? read (.array (values.map write)) = some values := by
  induction values with
  | nil => rfl
  | cons first rest inductionHypothesis =>
      rw [list?] at inductionHypothesis ⊢
      simp [readBack, inductionHypothesis]

@[simp] theorem list?_ofTexts (texts : List String) :
    list? text? (ofTexts texts) = some texts :=
  list?_array text?_string texts

@[simp] theorem isPlain_ofWord32 (value : UInt32) :
    isPlain (ofWord32 value) = true := rfl

@[simp] theorem isPlain_ofWord64 (value : UInt64) :
    isPlain (ofWord64 value) = true := rfl

@[simp] theorem isPlain_string (text : String) :
    isPlain (.string text) = true := rfl

@[simp] theorem isPlain_ofTexts (texts : List String) :
    isPlain (ofTexts texts) = true :=
  plainElements_map isPlain_string texts

@[simp] theorem isPlain_ofOptional
    {alpha : Type} {write : alpha → Json}
    (plain : ∀ value, isPlain (write value) = true) (given : Option alpha) :
    isPlain (ofOptional write given) = true := by
  cases given with
  | none => rfl
  | some value => exact plain value

end LectureQuiz.Json
