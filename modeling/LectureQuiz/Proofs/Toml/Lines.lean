import LectureQuiz.Proofs.Toml.Value

/-!
# Written lines are read back

A document is written line by line: headers between one or two brackets, keys with their
values, and blank lines. `IsDocument` says which statements the lines of a text hold, and
reading a document of that form gives just these statements.
-/

namespace LectureQuiz.Toml

variable {key inner : String} {value : Toml} {written text next after : List Char}
  {statements : List Statement}

/-- The key may be written without quotes. -/
def IsBareKey (key : String) : Prop :=
  key.toList.isEmpty = false ∧ key.toList.all isBareKeyChar = true

instance (key : String) : Decidable (IsBareKey key) :=
  instDecidableAnd

theorem IsBareKey.ne_nil (isBare : IsBareKey key) : key.toList ≠ [] :=
  List.isEmpty_eq_false_iff.1 isBare.1

theorem IsBareKey.all (isBare : IsBareKey key) :
    ∀ character ∈ key.toList, isBareKeyChar character = true :=
  List.all_eq_true.1 isBare.2

theorem IsBareKey.toList_cons (isBare : IsBareKey key) :
    ∃ first others, key.toList = first :: others ∧ isBareKeyChar first = true := by
  have areBare := isBare.all
  cases letters : key.toList with
  | nil => exact absurd letters isBare.ne_nil
  | cons first others =>
      rw [letters] at areBare
      exact ⟨first, others, rfl, areBare first List.mem_cons_self⟩

theorem ne_of_isBareKeyChar
    {first other : Char} (isBare : isBareKeyChar first = true)
    (notBare : isBareKeyChar other = false) : first ≠ other := by
  rintro rfl
  exact absurd isBare (by simp [notBare])

theorem IsBareKey.head?_append_ne
    (isBare : IsBareKey key) {other : Char} (notBare : isBareKeyChar other = false)
    (after : List Char) : (key.toList ++ after).head? ≠ some other := by
  obtain ⟨first, others, letters, isBareChar⟩ := isBare.toList_cons
  rw [letters]
  exact fun same => ne_of_isBareKeyChar isBareChar notBare (Option.some.inj same)

theorem IsBareKey.skipSpace_append (isBare : IsBareKey key) (after : List Char) :
    skipSpace (key.toList ++ after) = key.toList ++ after := by
  obtain ⟨first, others, letters, isBareChar⟩ := isBare.toList_cons
  have notSpace : first ≠ ' ' := ne_of_isBareKeyChar isBareChar rfl
  have notTab : first ≠ '\t' := ne_of_isBareKeyChar isBareChar rfl
  rw [letters, List.cons_append, skipSpace, List.dropWhile_cons_of_neg]
  simp [isSpace, notSpace, notTab]

/-- A key ends where a character stands that it may not have. -/
theorem IsBareKey.keyPart?_append
    (isBare : IsBareKey key) {stop : Char} (stops : isBareKeyChar stop = false)
    (after : List Char) :
    keyPart? (key.toList ++ stop :: after) = some (key, stop :: after) := by
  have taken : (key.toList ++ stop :: after).takeWhile isBareKeyChar = key.toList := by
    rw [List.takeWhile_append_of_pos isBare.all, List.takeWhile_cons_of_neg (by simp [stops]),
      List.append_nil]
  have dropped : (key.toList ++ stop :: after).dropWhile isBareKeyChar = stop :: after := by
    rw [List.dropWhile_append_of_pos isBare.all, List.dropWhile_cons_of_neg (by simp [stops])]
  rw [keyPart?]
  · simp only [taken, dropped, if_neg isBare.ne_nil, String.ofList_toList]
  · exact fun _ quoted => isBare.head?_append_ne rfl _ (congrArg List.head? quoted)
  · exact fun _ quoted => isBare.head?_append_ne rfl _ (congrArg List.head? quoted)

theorem keyParts?_last
    (isBare : IsBareKey key) {stop : Char} (stops : isBareKeyChar stop = false)
    (noDot : ∀ more, skipSpace (stop :: after) ≠ '.' :: more) (fuel : Nat) :
    keyParts? (fuel + 1) (key.toList ++ stop :: after) =
      some ([key], skipSpace (stop :: after)) := by
  simp only [keyParts?, isBare.skipSpace_append, isBare.keyPart?_append stops,
    Option.bind_eq_bind, Option.bind_some]

theorem keyParts?_dot (isBare : IsBareKey key) (fuel : Nat) (more : List Char) :
    keyParts? (fuel + 1) (key.toList ++ '.' :: more) =
      (keyParts? fuel more).map fun (parts, after) => (key :: parts, after) := by
  have atDot : skipSpace ('.' :: more) = '.' :: more := rfl
  have part : keyPart? (key.toList ++ '.' :: more) = some (key, '.' :: more) :=
    isBare.keyPart?_append rfl more
  simp [keyParts?, isBare.skipSpace_append, part, atDot]

theorem key?_bare
    (isBare : IsBareKey key) {stop : Char} (stops : isBareKeyChar stop = false)
    (noDot : ∀ more, skipSpace (stop :: after) ≠ '.' :: more) :
    key? (key.toList ++ stop :: after) = some (⟨[], key⟩, skipSpace (stop :: after)) := by
  rw [key?, keyParts?_last isBare stops noDot]
  rfl

theorem key?_dotted
    (isBare : IsBareKey key) (innerIsBare : IsBareKey inner) {stop : Char}
    (stops : isBareKeyChar stop = false)
    (noDot : ∀ more, skipSpace (stop :: after) ≠ '.' :: more) :
    key? (key.toList ++ '.' :: (inner.toList ++ stop :: after)) =
      some (⟨[key], inner⟩, skipSpace (stop :: after)) := by
  obtain ⟨first, others, letters, _⟩ := isBare.toList_cons
  have fuel : (key.toList ++ '.' :: (inner.toList ++ stop :: after)).length =
      (others ++ '.' :: (inner.toList ++ stop :: after)).length + 1 := by
    rw [letters]
    rfl
  -- The first part has a character, so that fuel is left for the second one.
  rw [key?, keyParts?_dot isBare, fuel, keyParts?_last innerIsBare stops noDot]
  rfl

theorem key?_header (isBare : IsBareKey key) (after : List Char) :
    key? (key.toList ++ ']' :: after) = some (⟨[], key⟩, ']' :: after) :=
  key?_bare isBare rfl (fun _ same => absurd (List.cons.inj same).1 (by decide))

theorem key?_dottedHeader
    (isBare : IsBareKey key) (innerIsBare : IsBareKey inner) (after : List Char) :
    key? (key.toList ++ '.' :: (inner.toList ++ ']' :: after)) =
      some (⟨[key], inner⟩, ']' :: after) :=
  key?_dotted isBare innerIsBare rfl (fun _ same => absurd (List.cons.inj same).1 (by decide))

/-- A header between single brackets opens the table that its key names. -/
theorem line?_openTable
    {name : List Char} {dotted : DottedKey} (solid : name.head? ≠ some '[')
    (reads : key? (name ++ ']' :: '\n' :: next) = some (dotted, ']' :: '\n' :: next)) :
    line? ('[' :: (name ++ ']' :: '\n' :: next)) = some (some (.openTable dotted), next) := by
  have single : ∀ rest, name ++ ']' :: '\n' :: next ≠ '[' :: rest := by
    rintro rest doubled
    cases name with
    | nil => exact absurd (List.cons.inj doubled).1 (by decide)
    | cons first others => exact solid (congrArg some (List.cons.inj doubled).1)
  have atBracket : skipSpace ('[' :: (name ++ ']' :: '\n' :: next)) =
    '[' :: (name ++ ']' :: '\n' :: next) := rfl
  have closes : [']'].isPrefixOf? (']' :: '\n' :: next) = some ('\n' :: next) := rfl
  have ends : endLine? ('\n' :: next) = some next := rfl
  simp [line?, atBracket, header?, reads, closes, ends]

theorem line?_openElement
    {name : List Char} {dotted : DottedKey}
    (reads : key? (name ++ ']' :: ']' :: '\n' :: next) =
      some (dotted, ']' :: ']' :: '\n' :: next)) :
    line? ('[' :: '[' :: (name ++ ']' :: ']' :: '\n' :: next)) =
      some (some (.openElement dotted), next) := by
  have atBrackets : skipSpace ('[' :: '[' :: (name ++ ']' :: ']' :: '\n' :: next)) =
      '[' :: '[' :: (name ++ ']' :: ']' :: '\n' :: next) := rfl
  have closes : [']', ']'].isPrefixOf? (']' :: ']' :: '\n' :: next) =
    some ('\n' :: next) := rfl
  have ends : endLine? ('\n' :: next) = some next := rfl
  simp [line?, atBrackets, header?, reads, closes, ends]

theorem endLine?_bare (isBare : IsBareKey key) (after : List Char) :
    endLine? (key.toList ++ after) = none := by
  obtain ⟨first, others, letters, isBareChar⟩ := isBare.toList_cons
  have notComment : first ≠ '#' := ne_of_isBareKeyChar isBareChar rfl
  have notFeed : first ≠ '\n' := ne_of_isBareKeyChar isBareChar rfl
  have notReturn : first ≠ '\r' := ne_of_isBareKeyChar isBareChar rfl
  simp only [endLine?, isBare.skipSpace_append]
  rw [letters, List.cons_append]
  simp [notComment, notFeed, notReturn]

theorem assignment?_assignmentLine
    (isBare : IsBareKey key) (isWritten : IsWritten value written) (next : List Char) :
    assignment? (assignmentLine key written ++ next) =
      some (.assign ⟨[], key⟩ value, next) := by
  obtain ⟨first, others, shape, notSpace⟩ := isWritten.solid
  have layout : assignmentLine key written ++ next =
      key.toList ++ ' ' :: '=' :: ' ' :: (written ++ '\n' :: next) := by
    simp [assignmentLine]
  have readsKey : key? (key.toList ++ ' ' :: '=' :: ' ' :: (written ++ '\n' :: next)) =
      some (⟨[], key⟩, '=' :: ' ' :: (written ++ '\n' :: next)) :=
    key?_bare isBare rfl fun _ same => absurd (List.cons.inj same).1 (by decide)
  have atValue : skipSpace (' ' :: (written ++ '\n' :: next)) = written ++ '\n' :: next := by
    rw [shape, List.cons_append, skipSpace, List.dropWhile_cons_of_pos rfl,
      List.dropWhile_cons_of_neg (by simp [notSpace])]
  have readsValue : value?
      (2 * (key.toList ++ ' ' :: '=' :: ' ' :: (written ++ '\n' :: next)).length + 2)
      (depthLimit - 1) (written ++ '\n' :: next) = some (value, '\n' :: next) := by
    refine isWritten.reads next ?_ (by decide)
    simp only [List.length_append, List.length_cons]
    omega
  have ends : endLine? ('\n' :: next) = some next := rfl
  rw [layout, assignment?, readsKey]
  simp only [Option.bind_eq_bind, Option.bind_some, atValue, readsValue, ends, Option.pure_def]

theorem line?_assignmentLine
    (isBare : IsBareKey key) (isWritten : IsWritten value written) (next : List Char) :
    line? (assignmentLine key written ++ next) =
      some (some (.assign ⟨[], key⟩ value), next) := by
  have reads := assignment?_assignmentLine isBare isWritten next
  have layout : assignmentLine key written ++ next =
      key.toList ++ (" = ".toList ++ written ++ '\n' :: next) := by
    simp [assignmentLine]
  rw [layout] at reads ⊢
  have atKey := isBare.skipSpace_append (" = ".toList ++ written ++ '\n' :: next)
  have noEnd := endLine?_bare isBare (" = ".toList ++ written ++ '\n' :: next)
  simp only [line?, atKey]
  split
  · rename_i opens
    exact absurd (congrArg List.head? opens) (isBare.head?_append_ne rfl _)
  · rename_i opens
    exact absurd (congrArg List.head? opens) (isBare.head?_append_ne rfl _)
  · rw [noEnd, reads]
    rfl

theorem line?_blank (next : List Char) : line? ('\n' :: next) = some (none, next) := rfl

/-- The lines of the text hold the statements. -/
inductive IsDocument : List Char → List Statement → Prop
  | done : IsDocument [] []
  | line {text next : List Char} {statement : Option Statement} {rest : List Statement} :
      line? text = some (statement, next) → next.length < text.length →
      IsDocument next rest → IsDocument text (statement.toList ++ rest)

namespace IsDocument

theorem statements?_eq
    (isDocument : IsDocument text statements) {fuel : Nat} (enough : text.length ≤ fuel) :
    statements? fuel text = some statements := by
  induction isDocument generalizing fuel with
  | done => simp [statements?]
  | @line text next statement rest reads shorter _ inductionHypothesis =>
      obtain ⟨fuel, rfl⟩ := Nat.exists_eq_add_one_of_ne_zero
        (Nat.ne_zero_of_lt (shorter.trans_le enough))
      have readsRest := inductionHypothesis (Nat.le_of_lt_succ (shorter.trans_le enough))
      rw [statements?]
      · simp [reads, readsRest]
      · rintro rfl
        exact absurd shorter (Nat.not_lt_zero _)

theorem blank (isDocument : IsDocument next statements) :
    IsDocument ('\n' :: next) statements :=
  line (line?_blank next) (Nat.lt_succ_self _) isDocument

theorem assignment
    (isBare : IsBareKey key) (isWritten : IsWritten value written)
    (isDocument : IsDocument next statements) :
    IsDocument (assignmentLine key written ++ next)
      (.assign ⟨[], key⟩ value :: statements) := by
  refine line (line?_assignmentLine isBare isWritten next) ?_ isDocument
  simp only [assignmentLine, List.length_append, List.length_cons]
  omega

theorem openTable (isBare : IsBareKey key) (isDocument : IsDocument next statements) :
    IsDocument (headerLine 1 key ++ next) (.openTable ⟨[], key⟩ :: statements) := by
  have layout : headerLine 1 key ++ next = '[' :: (key.toList ++ ']' :: '\n' :: next) := by
    simp [headerLine]
  rw [layout]
  refine line (line?_openTable ?_ (key?_header isBare _)) ?_ isDocument
  · exact List.append_nil key.toList ▸ isBare.head?_append_ne rfl []
  · simp only [List.length_cons, List.length_append]
    omega

theorem openInnerTable
    (isBare : IsBareKey key) (innerIsBare : IsBareKey inner)
    (isDocument : IsDocument next statements) :
    IsDocument (headerLine 1 (key ++ "." ++ inner) ++ next)
      (.openTable ⟨[key], inner⟩ :: statements) := by
  have layout : headerLine 1 (key ++ "." ++ inner) ++ next =
      '[' :: ((key.toList ++ '.' :: inner.toList) ++ ']' :: '\n' :: next) := by
    simp [headerLine]
  rw [layout]
  refine line (line?_openTable ?_ ?_) ?_ isDocument
  · exact isBare.head?_append_ne rfl _
  · rw [List.append_assoc]
    exact key?_dottedHeader isBare innerIsBare _
  · simp only [List.length_cons, List.length_append]
    omega

theorem openElement (isBare : IsBareKey key) (isDocument : IsDocument next statements) :
    IsDocument (headerLine 2 key ++ next) (.openElement ⟨[], key⟩ :: statements) := by
  have layout : headerLine 2 key ++ next =
      '[' :: '[' :: (key.toList ++ ']' :: ']' :: '\n' :: next) := by
    simp [headerLine]
  rw [layout]
  refine line (line?_openElement (key?_header isBare _)) ?_ isDocument
  simp only [List.length_cons, List.length_append]
  omega

end IsDocument

theorem parse?_of_isDocument
    {content : String} {table : Toml} (isDocument : IsDocument content.toList statements)
    (unmarked : content.toList.head? ≠ some '\uFEFF')
    (assembles : assemble? statements = some table) : parse? content = some table := by
  have noMark : dropMark content.toList = content.toList := by
    unfold dropMark
    split
    · rename_i marked
      exact absurd (congrArg List.head? marked) unmarked
    · rfl
  rw [parse?, noMark, isDocument.statements?_eq (Nat.le_succ _)]
  exact assembles

end LectureQuiz.Toml
