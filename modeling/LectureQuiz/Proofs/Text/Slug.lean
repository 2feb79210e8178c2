import Mathlib.Data.List.Chain
import LectureQuiz.Proofs.Text.Normalized
import LectureQuiz.Text.Slug

/-!
# The form of slugs

A slug has lower-case ASCII letters and digits, with single underscores between
them. A text of this form is its own slug, so the slug of a slug is the slug.
-/

namespace LectureQuiz.Text

theorem isAlphanum_iff {character : Char} :
    character.isAlphanum = true ↔
      48 ≤ character.toNat ∧ character.toNat ≤ 57 ∨
        65 ≤ character.toNat ∧ character.toNat ≤ 90 ∨
        97 ≤ character.toNat ∧ character.toNat ≤ 122 := by
  delta Char.isAlphanum Char.isAlpha Char.isUpper Char.isLower Char.isDigit
  simp only [Bool.or_eq_true, Bool.and_eq_true, decide_eq_true_eq,
    ge_iff_le, UInt32.le_iff_toNat_le, Char.reduceVal, UInt32.reduceToNat]
  change _ ↔ 48 ≤ character.val.toNat ∧ character.val.toNat ≤ 57 ∨
    65 ≤ character.val.toNat ∧ character.val.toNat ≤ 90 ∨
    97 ≤ character.val.toNat ∧ character.val.toNat ≤ 122
  omega

theorem toNat_toLower (character : Char) :
    character.toLower.toNat =
      if 65 ≤ character.toNat ∧ character.toNat ≤ 90 then character.toNat + 32
      else character.toNat := by
  delta Char.toLower
  by_cases upper : 65 ≤ character.toNat ∧ character.toNat ≤ 90
  · have low : 'A'.val ≤ character.val := UInt32.le_iff_toNat_le.2 upper.1
    have high : character.val ≤ 'Z'.val := UInt32.le_iff_toNat_le.2 upper.2
    have small : character.val.toNat ≤ 90 := upper.2
    rw [if_pos upper, dif_pos ⟨low, high⟩]
    change (character.val.toNat + 32) % 4294967296 = character.val.toNat + 32
    omega
  · rw [if_neg upper, dif_neg]
    rintro ⟨low, high⟩
    exact upper ⟨UInt32.le_iff_toNat_le.1 low, UInt32.le_iff_toNat_le.1 high⟩

theorem toNat_injective {first second : Char}
    (same : first.toNat = second.toNat) : first = second :=
  Char.ext (UInt32.toNat_inj.1 same)

theorem toLower_toLower (character : Char) :
    character.toLower.toLower = character.toLower := by
  apply toNat_injective
  rw [toNat_toLower character.toLower]
  have code := toNat_toLower character
  split at code <;> split <;> omega

theorem isAlphanum_toLower {character : Char} :
    character.toLower.isAlphanum = true ↔ character.isAlphanum = true := by
  rw [isAlphanum_iff, isAlphanum_iff, toNat_toLower]
  split <;> omega

theorem toLower_eq_underscore_iff {character : Char} :
    character.toLower = '_' ↔ character = '_' := by
  constructor
  · intro isUnderscore
    have code := toNat_toLower character
    rw [isUnderscore] at code
    apply toNat_injective
    change 95 = _ at code
    change _ = 95
    split at code <;> omega
  · rintro rfl
    rfl

theorem isBlank_of_isAlphanum {character : Char}
    (isLetter : character.isAlphanum = true) : isBlank character = false := by
  rw [isAlphanum_iff] at isLetter
  rw [Bool.eq_false_iff, Ne, isBlank, CodeRanges.covers_iff]
  simp only [blankRanges, List.mem_cons, List.not_mem_nil, or_false]
  rintro ⟨range, rfl | rfl | rfl | rfl | rfl | rfl | rfl | rfl | rfl | rfl, low, high⟩ <;>
    simp only at low high <;> omega

theorem isBlank_of_simple {character : Char}
    (simple : character.isAlphanum = true ∨ character = '_') : isBlank character = false := by
  rcases simple with isLetter | rfl
  · exact isBlank_of_isAlphanum isLetter
  · decide

theorem trim_of_not_blank
    {text : List Char} (notBlank : ∀ character ∈ text, isBlank character = false) :
    trim text = text :=
  strip_of_ends (fun character isFirst => notBlank character (List.mem_of_head? isFirst))
    (fun character isLast => notBlank character (List.mem_of_getLast? isLast))

/-- Letters, digits and underscores, where no underscore follows another. -/
structure IsCollapsed (text : List Char) : Prop where
  characters : ∀ character ∈ text, character.isAlphanum = true ∨ character = '_'
  single : text.IsChain fun first second => first ≠ '_' ∨ second ≠ '_'

theorem isAlphanum_of_mem_collapseRuns
    {insideRun : Bool} {label : List Char} {character : Char}
    (member : character ∈ collapseRuns insideRun label) :
    character.isAlphanum = true ∨ character = '_' := by
  induction label generalizing insideRun with
  | nil => exact absurd member List.not_mem_nil
  | cons first rest inductionHypothesis =>
      rw [collapseRuns] at member
      split at member
      · rename_i isLetter
        rcases List.mem_cons.1 member with rfl | later
        · exact Or.inl isLetter
        · exact inductionHypothesis later
      split at member
      · exact inductionHypothesis member
      · rcases List.mem_cons.1 member with rfl | later
        · exact Or.inr rfl
        · exact inductionHypothesis later

theorem ne_underscore_of_isAlphanum {character : Char}
    (isLetter : character.isAlphanum = true) : character ≠ '_' := by
  rintro rfl
  exact absurd isLetter (by decide)

/-- Behind a character that was dropped or written as an underscore no other
underscore is written. -/
theorem head?_collapseRuns_true (label : List Char) :
    (collapseRuns true label).head? ≠ some '_' := by
  induction label with
  | nil => exact nofun
  | cons first rest inductionHypothesis =>
      rw [collapseRuns]
      split
      · rename_i isLetter
        rw [List.head?_cons, Ne, Option.some.injEq]
        exact ne_underscore_of_isAlphanum isLetter
      · rw [if_pos rfl]
        exact inductionHypothesis

theorem isChain_collapseRuns (insideRun : Bool) (label : List Char) :
    (collapseRuns insideRun label).IsChain
      fun first second => first ≠ '_' ∨ second ≠ '_' := by
  induction label generalizing insideRun with
  | nil => exact .nil
  | cons first rest inductionHypothesis =>
      rw [collapseRuns]
      split
      · rename_i isLetter
        refine List.isChain_cons.2 ⟨fun _ _ => ?_, inductionHypothesis false⟩
        exact Or.inl (ne_underscore_of_isAlphanum isLetter)
      split
      · exact inductionHypothesis true
      · refine List.isChain_cons.2 ⟨fun second isHead => ?_, inductionHypothesis true⟩
        refine Or.inr ?_
        rintro rfl
        exact head?_collapseRuns_true rest isHead

theorem isCollapsed_collapseRuns (insideRun : Bool) (label : List Char) :
    IsCollapsed (collapseRuns insideRun label) :=
  ⟨fun _ => isAlphanum_of_mem_collapseRuns, isChain_collapseRuns insideRun label⟩

theorem IsCollapsed.part {text part : List Char}
    (collapsed : IsCollapsed text) (inside : part <:+: text) : IsCollapsed part where
  characters character member := collapsed.characters character (inside.subset member)
  single := List.IsChain.infix collapsed.single inside

theorem collapseRuns_of_isCollapsed {text : List Char} (collapsed : IsCollapsed text)
    (insideRun : Bool) (fresh : insideRun = true → text.head? ≠ some '_') :
    collapseRuns insideRun text = text := by
  induction text generalizing insideRun with
  | nil => rfl
  | cons first rest inductionHypothesis =>
      have restCollapsed : IsCollapsed rest :=
        collapsed.part (List.suffix_cons first rest).isInfix
      rw [collapseRuns]
      rcases collapsed.characters first List.mem_cons_self with isLetter | rfl
      · rw [if_pos isLetter, inductionHypothesis restCollapsed false nofun]
      · have outside : insideRun = false := by
          cases insideRun with
          | false => rfl
          | true => exact absurd rfl (fresh rfl)
        rw [if_neg (by decide), outside, if_neg Bool.false_ne_true,
          inductionHypothesis restCollapsed true]
        intro _ isHead
        have follows := (List.isChain_cons.1 collapsed.single).1 '_' isHead
        exact follows.elim (· rfl) (· rfl)

/-- Collapsed text in lower case with a letter or digit at either end. -/
structure IsSlug (text : List Char) : Prop extends IsCollapsed text where
  lower : ∀ character ∈ text, character.toLower = character
  stripped : strip (· == '_') text = text

theorem strip_map_toLower (text : List Char) :
    strip (· == '_') (text.map Char.toLower) =
      (strip (· == '_') text).map Char.toLower := by
  have same : (· == '_') ∘ Char.toLower = (· == '_') := by
    funext character
    rw [Bool.eq_iff_iff, Function.comp, beq_iff_eq, beq_iff_eq,
      toLower_eq_underscore_iff]
  rw [strip, strip, List.dropWhile_map, same, dropTrailing, ← List.map_reverse,
    List.dropWhile_map, same, ← List.map_reverse, dropTrailing]

theorem isSlug_slugChars (label : List Char) : IsSlug (slugChars label) := by
  have kept : IsCollapsed (strip (· == '_') (collapseRuns false (trim label))) := by
    obtain ⟨before, after, whole, _⟩ :=
      strip_decomposition (· == '_') (collapseRuns false (trim label))
    refine (isCollapsed_collapseRuns false (trim label)).part ⟨before, after, ?_⟩
    rw [List.append_assoc]
    exact whole.symm
  refine ⟨⟨?_, ?_⟩, ?_, ?_⟩
  · intro character member
    obtain ⟨given, isKept, rfl⟩ := List.mem_map.1 member
    rw [isAlphanum_toLower, toLower_eq_underscore_iff]
    exact kept.characters given isKept
  · rw [slugChars, List.isChain_map]
    simp only [Ne, toLower_eq_underscore_iff]
    exact kept.single
  · intro character member
    obtain ⟨given, _, rfl⟩ := List.mem_map.1 member
    exact toLower_toLower given
  · rw [slugChars, strip_map_toLower, strip_idempotent]

theorem trim_of_isCollapsed {text : List Char} (collapsed : IsCollapsed text) :
    trim text = text :=
  trim_of_not_blank fun character member =>
    isBlank_of_simple (collapsed.characters character member)

/-- A text that has the form of slugs is its own slug. -/
theorem slugChars_of_isSlug {text : List Char} (isSlug : IsSlug text) :
    slugChars text = text := by
  rw [slugChars, trim_of_isCollapsed isSlug.toIsCollapsed,
    collapseRuns_of_isCollapsed isSlug.toIsCollapsed false nofun, isSlug.stripped,
    List.map_congr_left isSlug.lower, List.map_id']

theorem slug_slug (label : String) : slug (slug label) = slug label := by
  rw [slug, slug, String.toList_ofList, slugChars_of_isSlug (isSlug_slugChars _)]

theorem slash_not_mem_slug (label : String) : '/' ∉ (slug label).toList := by
  rw [slug, String.toList_ofList]
  intro member
  have ofSlug := (isSlug_slugChars label.toList).characters '/' member
  exact absurd ofSlug (by decide)

end LectureQuiz.Text
