import JasmineConversion.Proofs.Source.LineEnds

/-! # The lexemes of a text

Every text is read as lexemes in exactly one way: comments, literals and single characters, and at its end perhaps
a comment or literal that nothing closes. What lexemes are is said without the modes of a reading. A reading is
away from code inside every lexeme that is no single character, and behind it reads on as in code.
-/

namespace JasmineConversion

open Text Source

/-- A part of a text that is read as a whole. -/
inductive Lexeme where
  | single (c : Char)
  | literal (text : Text)
  | comment (text : Text)
  | unclosed (text : Text)
  deriving DecidableEq

namespace Lexeme

/-- A lexeme as it is written. -/
def text : Lexeme → Text
  | single c => [c]
  | literal text => text
  | comment text => text
  | unclosed text => text

/-- A lexeme is read at the front of a text, with the rest behind it. A delimiter starts a literal unless it
starts a comment; a line comment goes on up to the line feed, and no literal or comment that can be closed is
left open. -/
inductive Leads : (lexeme : Lexeme) → (rest : Text) → Prop
  | single {c : Char} {rest : Text} (plain : Mode.isDelimiter c = false) : Leads (single c) rest
  | literal {delimiter : Char} {content rest : Text} (delimits : Mode.isDelimiter delimiter = true)
      (holds : LiteralContent delimiter content)
      (noComment : startsComment (delimiter :: content ++ [delimiter]) = false) :
      Leads (literal (delimiter :: content ++ [delimiter])) rest
  | lineComment {inner rest : Text} (oneLine : '\n' ∉ inner) (ends : Stops (· != '\n') rest) :
      Leads (comment ('/' :: '/' :: inner)) rest
  | blockComment {inner rest : Text} (unended : occursIn ['*', '/'] inner = false) :
      Leads (comment ('/' :: '*' :: inner ++ ['*', '/'])) rest
  | unclosedLiteral {delimiter : Char} {tail : Text} (delimits : Mode.isDelimiter delimiter = true)
      (noComment : startsComment (delimiter :: tail) = false)
      (never : ∀ content rest, LiteralContent delimiter content → tail ≠ content ++ delimiter :: rest) :
      Leads (unclosed (delimiter :: tail)) []
  | unclosedComment {tail : Text} (never : ∀ inner rest, tail ≠ inner ++ '*' :: '/' :: rest) :
      Leads (unclosed ('/' :: '*' :: tail)) []

end Lexeme

/-- A text is read as lexemes. -/
inductive Lexes : (text : Text) → (lexemes : List Lexeme) → Prop
  | nil : Lexes [] []
  | cons {lexeme : Lexeme} {rest : Text} {lexemes : List Lexeme} (leads : lexeme.Leads rest)
      (others : Lexes rest lexemes) : Lexes (lexeme.text ++ rest) (lexeme :: lexemes)

/-- Lexemes as they are written one after the other. -/
def spelled (lexemes : List Lexeme) : Text :=
  lexemes.flatMap Lexeme.text

variable {mode : Mode} {lexeme : Lexeme} {lexemes : List Lexeme} {text rest tail passage more : Text}
  {delimiter c : Char}

namespace Mode

/-- A reading that nothing brings back to code meets no passage that would. -/
theorem untilCode_eq_none_iff : mode.untilCode text = none ↔
    ∀ passage rest, mode.Returns passage → text ≠ passage ++ rest := by
  constructor
  · rintro none passage rest returns rfl
    rw [untilCode_append returns] at none
    cases none
  · intro never
    cases found : mode.untilCode text with
    | none => rfl
    | some offset =>
      obtain ⟨passage, rest, split, returns, -⟩ := exists_returns_of_untilCode found
      exact absurd split (never passage rest returns)

/-- A literal is never left exactly if no content of one is followed by the delimiter. -/
theorem untilCode_literal_eq_none_iff (delimits : isDelimiter delimiter = true) :
    (literal delimiter).untilCode text = none ↔
      ∀ content rest, LiteralContent delimiter content → text ≠ content ++ delimiter :: rest := by
  have noEscape := ne_backslash_of_isDelimiter delimits
  rw [untilCode_eq_none_iff]
  constructor
  · intro never content rest holds split
    apply never (content ++ [delimiter]) rest ((literal_returns_iff noEscape).mpr ⟨content, rfl, holds⟩)
    simpa using split
  · rintro never passage rest returns rfl
    obtain ⟨content, rfl, holds⟩ := (literal_returns_iff noEscape).mp returns
    exact never content rest holds (by simp)

/-- An end mark brings the reading of a block comment back to code, if nothing before has. -/
theorem untilCode_ne_none_of_end (inside : mode = blockComment ∨ mode = blockStar) (inner rest : Text) :
    mode.untilCode (inner ++ '*' :: '/' :: rest) ≠ none := by
  induction inner generalizing mode with
  | nil => rcases inside with rfl | rfl <;> exact Option.some_ne_none _
  | cons c inner ih =>
    rw [List.cons_append, untilCode]
    by_cases back : mode.next c = code
    · rw [if_pos back]
      exact Option.some_ne_none _
    · rw [if_neg back, Ne, Option.map_eq_none_iff]
      exact ih (next_of_blockComment inside back)

/-- A block comment is never left exactly if nothing ends it. -/
theorem untilCode_blockComment_eq_none_iff : blockComment.untilCode text = none ↔
    ∀ inner rest, text ≠ inner ++ '*' :: '/' :: rest := by
  constructor
  · rintro none inner rest rfl
    exact untilCode_ne_none_of_end (.inl rfl) inner rest none
  · intro never
    apply untilCode_eq_none_iff.mpr
    rintro passage rest returns rfl
    obtain ⟨inner, rfl, -⟩ := blockComment_returns_iff.mp returns
    exact never inner rest (by simp)

end Mode

/-- Two characters start a comment if they are a slash and a slash or an asterisk. -/
theorem startsComment_cons_cons (first second : Char) (text : Text) :
    startsComment (first :: second :: text) = (first == '/' && (second == '/' || second == '*')) := by
  by_cases slash : first = '/'
  · subst slash
    by_cases line : second = '/'
    · subst line
      rfl
    · by_cases block : second = '*'
      · subst block
        rfl
      · simp [startsComment, startsWith, after?, line, block, Ne.symm line, Ne.symm block]
  · simp [startsComment, startsWith, after?, slash, Ne.symm slash]

/-- Whether a comment starts is decided inside what stands between two delimiters. -/
theorem startsComment_append (content rest : Text) :
    startsComment (delimiter :: content ++ [delimiter] ++ rest) = startsComment (delimiter :: content ++ [delimiter]) := by
  cases content <;> simp only [List.cons_append, List.nil_append, startsComment_cons_cons]

namespace Lexeme

/-- The lexeme at the front of a text, and the rest of the text. -/
def read? : Text → Option (Lexeme × Text)
  | [] => none
  | c :: tail =>
    if Mode.isDelimiter c = false then some (single c, tail)
    else if startsWith ['/', '/'] (c :: tail) then
      some (comment (firstLine (c :: tail)), (c :: tail).dropWhile (· != '\n'))
    else if startsWith ['/', '*'] (c :: tail) then
      match Mode.blockComment.untilCode (tail.drop 1) with
      | some offset => some (comment ((c :: tail).take (offset + 3)), (c :: tail).drop (offset + 3))
      | none => some (unclosed (c :: tail), [])
    else
      match (Mode.literal c).untilCode tail with
      | some offset => some (literal ((c :: tail).take (offset + 2)), (c :: tail).drop (offset + 2))
      | none => some (unclosed (c :: tail), [])

theorem read?_single (plain : Mode.isDelimiter c = false) (tail : Text) :
    read? (c :: tail) = some (single c, tail) := by
  simp [read?, plain]

/-- A line comment is read up to the end of its line. -/
theorem read?_line (tail : Text) : read? ('/' :: '/' :: tail) =
    some (comment ('/' :: '/' :: firstLine tail), tail.dropWhile (· != '\n')) := by
  have delimits : Mode.isDelimiter '/' = true := by decide
  simp [read?, delimits, startsWith, after?, firstLine]

/-- A block comment is read up to what ends it, or to the end of the text. -/
theorem read?_block (tail : Text) : read? ('/' :: '*' :: tail) =
    match Mode.blockComment.untilCode tail with
    | some offset => some (comment ('/' :: '*' :: tail.take (offset + 1)), tail.drop (offset + 1))
    | none => some (unclosed ('/' :: '*' :: tail), []) := by
  have delimits : Mode.isDelimiter '/' = true := by decide
  simp [read?, delimits, startsWith, after?]

/-- A literal is read up to its delimiter, or to the end of the text. -/
theorem read?_literal (delimits : Mode.isDelimiter c = true) (noComment : startsComment (c :: tail) = false) :
    read? (c :: tail) =
      match (Mode.literal c).untilCode tail with
      | some offset => some (literal (c :: tail.take (offset + 1)), tail.drop (offset + 1))
      | none => some (unclosed (c :: tail), []) := by
  rw [startsComment, Bool.or_eq_false_iff] at noComment
  simp [read?, delimits, noComment]

/-- What a text starts with: a single character, a comment, or a delimiter that starts no comment. -/
theorem front_cases (c : Char) (tail : Text) :
    Mode.isDelimiter c = false ∨ (∃ more, c :: tail = '/' :: '/' :: more) ∨
    (∃ more, c :: tail = '/' :: '*' :: more) ∨ Mode.isDelimiter c = true ∧ startsComment (c :: tail) = false := by
  by_cases starts : startsComment (c :: tail) = true
  · rw [startsComment, Bool.or_eq_true, startsWith_iff, startsWith_iff] at starts
    exact .inr (starts.imp id .inl)
  · rw [Bool.not_eq_true] at starts
    by_cases delimits : Mode.isDelimiter c = true
    · exact .inr (.inr (.inr ⟨delimits, starts⟩))
    · exact .inl (by simpa using delimits)

/-- Every text that is not empty starts with a lexeme. -/
theorem exists_read? (c : Char) (tail : Text) : ∃ lexeme rest, read? (c :: tail) = some (lexeme, rest) := by
  rcases front_cases c tail with plain | ⟨more, line⟩ | ⟨more, block⟩ | ⟨delimits, noComment⟩
  · exact ⟨_, _, read?_single plain tail⟩
  · exact ⟨_, _, line ▸ read?_line more⟩
  · rw [block, read?_block]
    split <;> exact ⟨_, _, rfl⟩
  · rw [read?_literal delimits noComment]
    split <;> exact ⟨_, _, rfl⟩

/-- What is read at the front of a text leads the rest. -/
theorem leads_of_read? (read : read? text = some (lexeme, rest)) :
    lexeme.Leads rest ∧ text = lexeme.text ++ rest := by
  cases text with
  | nil => cases read
  | cons c tail =>
    rcases front_cases c tail with plain | ⟨more, line⟩ | ⟨more, block⟩ | ⟨delimits, noComment⟩
    · rw [read?_single plain] at read
      cases read
      exact ⟨.single plain, rfl⟩
    · rw [line, read?_line] at read
      cases read
      have oneLine : '\n' ∉ firstLine more := by
        intro member
        simpa using List.all_eq_true.mp List.all_takeWhile _ member
      refine ⟨.lineComment oneLine (stops_dropWhile _ more), ?_⟩
      rw [line]
      simp [Lexeme.text, firstLine]
    · rw [block, read?_block] at read
      split at read
      · next offset found =>
        cases read
        obtain ⟨passage, rest, rfl, returns, width⟩ := Mode.exists_returns_of_untilCode found
        obtain ⟨inner, rfl, unended⟩ := Mode.blockComment_returns_iff.mp returns
        rw [List.take_left' width, List.drop_left' width]
        exact ⟨.blockComment unended, by rw [block]; rfl⟩
      · next none =>
        cases read
        refine ⟨.unclosedComment (Mode.untilCode_blockComment_eq_none_iff.mp none), ?_⟩
        rw [block, List.append_nil, Lexeme.text]
    · rw [read?_literal delimits noComment] at read
      split at read
      · next offset found =>
        cases read
        obtain ⟨passage, rest, rfl, returns, width⟩ := Mode.exists_returns_of_untilCode found
        obtain ⟨content, rfl, holds⟩ :=
          (Mode.literal_returns_iff (Mode.ne_backslash_of_isDelimiter delimits)).mp returns
        rw [← List.cons_append, ← List.cons_append, startsComment_append] at noComment
        rw [List.take_left' width, List.drop_left' width]
        exact ⟨.literal delimits holds noComment, rfl⟩
      · next none =>
        cases read
        refine ⟨.unclosedLiteral delimits noComment ((Mode.untilCode_literal_eq_none_iff delimits).mp none), ?_⟩
        rw [List.append_nil, Lexeme.text]

/-- A lexeme is read in front of any rest that it leads. -/
theorem Leads.read? (leads : lexeme.Leads rest) : read? (lexeme.text ++ rest) = some (lexeme, rest) := by
  cases leads with
  | single plain => exact read?_single plain rest
  | @literal delimiter content _ delimits holds noComment =>
    have returns := (Mode.literal_returns_iff (Mode.ne_backslash_of_isDelimiter delimits)).mpr ⟨content, rfl, holds⟩
    have width : (content ++ [delimiter]).length - 1 + 1 = (content ++ [delimiter]).length := by simp
    have starts : startsComment (delimiter :: (content ++ [delimiter] ++ rest)) = false := by
      rw [← noComment]
      exact startsComment_append content rest
    change Lexeme.read? (delimiter :: (content ++ [delimiter] ++ rest)) = _
    rw [read?_literal delimits starts, Mode.untilCode_append returns]
    simp only [width, List.take_left, List.drop_left]
    rfl
  | @lineComment inner _ oneLine ends =>
    have inside : ∀ c ∈ inner, (c != '\n') = true := by
      intro c member
      rw [bne_iff_ne]
      rintro rfl
      exact oneLine member
    change Lexeme.read? ('/' :: '/' :: (inner ++ rest)) = _
    rw [read?_line, firstLine, takeWhile_append_of_stops inside ends, dropWhile_append_of_stops inside ends]
  | @blockComment inner _ unended =>
    have returns := Mode.blockComment_returns_iff.mpr ⟨inner, rfl, unended⟩
    have width : (inner ++ ['*', '/']).length - 1 + 1 = (inner ++ ['*', '/']).length := by simp
    change Lexeme.read? ('/' :: '*' :: (inner ++ ['*', '/'] ++ rest)) = _
    rw [read?_block, Mode.untilCode_append returns]
    simp only [width, List.take_left, List.drop_left]
    rfl
  | @unclosedLiteral delimiter tail delimits noComment unclosed =>
    rw [List.append_nil]
    change Lexeme.read? (delimiter :: tail) = _
    rw [read?_literal delimits noComment, (Mode.untilCode_literal_eq_none_iff delimits).mpr unclosed]
  | @unclosedComment tail unclosed =>
    rw [List.append_nil]
    change Lexeme.read? ('/' :: '*' :: tail) = _
    rw [read?_block, Mode.untilCode_blockComment_eq_none_iff.mpr unclosed]

theorem Leads.text_ne_nil (leads : lexeme.Leads rest) : lexeme.text ≠ [] := by
  cases leads <;> exact List.cons_ne_nil _ _

end Lexeme

theorem spelled_cons (lexeme : Lexeme) (lexemes : List Lexeme) :
    spelled (lexeme :: lexemes) = lexeme.text ++ spelled lexemes := rfl

namespace Lexes

theorem text_eq (lexes : Lexes text lexemes) : text = spelled lexemes := by
  induction lexes with
  | nil => rfl
  | cons _ _ ih => rw [ih, spelled_cons]

/-- A text is read in one way only. -/
theorem unique {others : List Lexeme} (lexes : Lexes text lexemes) (lexes' : Lexes text others) :
    lexemes = others := by
  induction lexes generalizing others with
  | nil =>
    generalize empty : ([] : Text) = text at lexes'
    cases lexes' with
    | nil => rfl
    | cons leads _ => exact absurd (List.append_eq_nil_iff.mp empty.symm).1 leads.text_ne_nil
  | @cons lexeme rest lexemes leads _ ih =>
    generalize split : lexeme.text ++ rest = text at lexes'
    cases lexes' with
    | nil => exact absurd (List.append_eq_nil_iff.mp split).1 leads.text_ne_nil
    | @cons other rest' others leads' further =>
      have same := leads.read?.symm.trans ((congrArg Lexeme.read? split).trans leads'.read?)
      obtain ⟨rfl, rfl⟩ : lexeme = other ∧ rest = rest' := by simpa using same
      rw [ih further]

/-- Every text is read as lexemes. -/
theorem exists_lexes (text : Text) : ∃ lexemes, Lexes text lexemes := by
  induction size : text.length using Nat.strongRecOn generalizing text with
  | ind size ih =>
    subst size
    cases text with
    | nil => exact ⟨[], .nil⟩
    | cons c tail =>
      obtain ⟨lexeme, rest, read⟩ := Lexeme.exists_read? c tail
      obtain ⟨leads, split⟩ := Lexeme.leads_of_read? read
      have positive := List.length_pos_iff.mpr leads.text_ne_nil
      obtain ⟨lexemes, further⟩ := ih rest.length (by rw [split, List.length_append]; omega) rest rfl
      exact ⟨lexeme :: lexemes, split ▸ .cons leads further⟩

end Lexes

/-! ## Readings of lexemes -/

namespace Mode

theorem code_next_ne_code (delimits : isDelimiter c = true) : code.next c ≠ code := by
  rcases isDelimiter_iff.mp delimits with rfl | rfl | rfl <;> decide

theorem untilCode_cons_of_ne (away : mode.next c ≠ code) (text : Text) :
    mode.untilCode (c :: text) = ((mode.next c).untilCode text).map (· + 1) := by
  rw [untilCode, if_neg away]

/-- Behind a delimiter that starts no comment, a literal is read. -/
theorem next_of_startsComment (delimits : isDelimiter delimiter = true)
    (noComment : startsComment (delimiter :: c :: text) = false) :
    (code.next delimiter).next c = (literal delimiter).next c := by
  by_cases quote : isQuote delimiter = true
  · rw [code_next_of_isQuote quote]
  · obtain rfl : delimiter = '/' := by
      simpa [isDelimiter, quote] using delimits
    rw [startsComment_cons_cons] at noComment
    simp only [beq_self_eq_true, Bool.true_and, Bool.or_eq_false_iff, beq_eq_false_iff_ne] at noComment
    change slash.next c = _
    simp [next, noComment]

/-- A delimiter that starts no comment is followed as a literal is. -/
theorem read_of_startsComment (delimits : isDelimiter delimiter = true)
    (noComment : startsComment (delimiter :: text) = false) (nonempty : text ≠ []) :
    (code.next delimiter).untilCode text = (literal delimiter).untilCode text ∧
      text.foldl next (code.next delimiter) = text.foldl next (literal delimiter) := by
  cases text with
  | nil => exact absurd rfl nonempty
  | cons c text =>
    have same := next_of_startsComment delimits noComment
    exact ⟨by rw [untilCode, untilCode, same], by rw [List.foldl_cons, List.foldl_cons, same]⟩

/-- A passage that returns to code ends in it. -/
theorem Returns.foldl (returns : mode.Returns passage) : passage.foldl next mode = code := by
  induction passage generalizing mode with
  | nil => exact returns.elim
  | cons c passage ih =>
    rw [List.foldl_cons]
    by_cases back : mode.next c = code
    · simp only [Returns, back, ↓reduceIte] at returns
      rw [back, returns]
      rfl
    · exact ih ((returns_cons_of_ne back passage).mp returns)

/-- A reading is away from code as long as it has not come back. -/
theorem foldl_ne_code (away : mode ≠ code)
    (ahead : ∀ offset, mode.untilCode (passage ++ rest) = some offset → passage.length ≤ offset) :
    passage.foldl next mode ≠ code := by
  induction passage generalizing mode with
  | nil => exact away
  | cons c passage ih =>
    rw [List.cons_append, untilCode] at ahead
    by_cases back : mode.next c = code
    · rw [if_pos back] at ahead
      exact absurd (ahead 0 rfl) (Nat.not_succ_le_zero _)
    · rw [if_neg back] at ahead
      apply ih back
      intro offset found
      exact Nat.le_of_succ_le_succ (ahead (offset + 1) (by rw [found]; rfl))

/-- The reading stands in a literal or a block comment. -/
def Held (mode : Mode) : Prop :=
  mode ≠ slash ∧ mode.flaw? ≠ none

/-- Nothing but code follows a literal or a block comment. -/
theorem Held.next (held : mode.Held) (c : Char) : mode.next c = code ∨ (mode.next c).Held := by
  cases mode with
  | code => exact absurd rfl held.2
  | slash => exact absurd rfl held.1
  | lineComment => exact absurd rfl held.2
  | literal delimiter =>
    simp only [Mode.next]
    split
    · exact .inr ⟨Mode.noConfusion, Option.some_ne_none _⟩
    · split
      · exact .inl rfl
      · exact .inr ⟨Mode.noConfusion, Option.some_ne_none _⟩
  | escape delimiter => exact .inr ⟨Mode.noConfusion, Option.some_ne_none _⟩
  | blockComment =>
    simp only [Mode.next]
    split <;> exact .inr ⟨Mode.noConfusion, Option.some_ne_none _⟩
  | blockStar =>
    simp only [Mode.next]
    split
    · exact .inl rfl
    · split <;> exact .inr ⟨Mode.noConfusion, Option.some_ne_none _⟩

/-- A mode that is held and never left for code stays so. -/
theorem Held.foldl (held : mode.Held) (never : mode.untilCode text = none) : (text.foldl Mode.next mode).Held := by
  induction text generalizing mode with
  | nil => exact held
  | cons c text ih =>
    rw [untilCode] at never
    split at never
    · cases never
    · next away =>
      rw [Option.map_eq_none_iff] at never
      exact ih ((held.next c).resolve_left away) never

/-- The reading stands in code, or at the end of a line comment. -/
def Clear (mode : Mode) (rest : Text) : Prop :=
  mode = code ∨ mode = lineComment ∧ Stops (· != '\n') rest

theorem clear_code (rest : Text) : Clear code rest :=
  .inl rfl

/-- Only a line feed tells the end of a line comment from code. -/
theorem Clear.eq_code (clear : mode.Clear (c :: rest)) (feed : c ≠ '\n') : mode = code := by
  rcases clear with rfl | ⟨-, stops⟩
  · rfl
  · exact absurd (by simpa using stops) feed

/-- A clear mode goes on as code does. -/
theorem Clear.next (clear : mode.Clear (c :: rest)) : mode.next c = code.next c := by
  by_cases feed : c = '\n'
  · subst feed
    rcases clear with rfl | ⟨rfl, -⟩ <;> decide
  · rw [clear.eq_code feed]

/-- Behind the first character, a clear reading goes on as in code. -/
theorem Clear.foldl (clear : mode.Clear (text ++ rest)) (nonempty : text ≠ []) :
    text.foldl Mode.next mode = text.foldl Mode.next code := by
  cases text with
  | nil => exact absurd rfl nonempty
  | cons c text =>
    have same : mode.next c = code.next c := Clear.next clear
    rw [List.foldl_cons, List.foldl_cons, same]

end Mode

namespace Lexeme

theorem Leads.rest_eq_nil (leads : (Lexeme.unclosed text).Leads rest) : rest = [] := by
  cases leads <;> rfl

theorem Leads.plain (leads : (Lexeme.single c).Leads rest) : Mode.isDelimiter c = false := by
  cases leads with
  | single plain => exact plain

/-- A lexeme that is no single character starts with a delimiter, and the reading comes back to code with its last
character, if it does. -/
theorem Leads.exists_tail (leads : lexeme.Leads rest) (whole : ∀ c, lexeme ≠ .single c) :
    ∃ delimiter tail, lexeme.text = delimiter :: tail ∧ Mode.isDelimiter delimiter = true ∧
      ∀ offset, (Mode.code.next delimiter).untilCode tail = some offset → offset + 1 = tail.length := by
  have ends {mode : Mode} {passage : Text} (returns : mode.Returns passage) (nonempty : 0 < passage.length)
      (offset : Nat) (found : mode.untilCode passage = some offset) : offset + 1 = passage.length := by
    have last := Mode.untilCode_append returns []
    rw [List.append_nil, found] at last
    cases last
    exact Nat.sub_add_cancel nonempty
  have stays {mode : Mode} {passage : Text} (never : mode.untilCode passage = none) (offset : Nat)
      (found : mode.untilCode passage = some offset) : offset + 1 = passage.length := by
    cases never.symm.trans found
  have slash : Mode.isDelimiter '/' = true := by decide
  cases leads with
  | single => exact absurd rfl (whole _)
  | @literal delimiter content _ delimits holds noComment =>
    have returns := (Mode.literal_returns_iff (Mode.ne_backslash_of_isDelimiter delimits)).mpr ⟨content, rfl, holds⟩
    have starts : startsComment (delimiter :: (content ++ [delimiter])) = false := noComment
    refine ⟨delimiter, content ++ [delimiter], rfl, delimits, ?_⟩
    rw [(Mode.read_of_startsComment delimits starts (by simp)).1]
    exact ends returns (by simp)
  | @lineComment inner _ oneLine _ =>
    refine ⟨'/', '/' :: inner, rfl, slash, stays ?_⟩
    rw [Mode.untilCode_cons_of_ne Mode.noConfusion, Option.map_eq_none_iff]
    apply Mode.untilCode_eq_none_iff.mpr
    rintro passage more returns rfl
    obtain ⟨line, rfl, -⟩ := Mode.lineComment_returns_iff.mp returns
    simp at oneLine
  | @blockComment inner _ unended =>
    have returns := Mode.blockComment_returns_iff.mpr ⟨inner, rfl, unended⟩
    refine ⟨'/', '*' :: (inner ++ ['*', '/']), rfl, slash, ends ?_ (Nat.succ_pos _)⟩
    exact (Mode.returns_cons_of_ne Mode.noConfusion _).mpr returns
  | @unclosedLiteral delimiter tail delimits noComment never =>
    refine ⟨delimiter, tail, rfl, delimits, stays ?_⟩
    by_cases nonempty : tail = []
    · rw [nonempty]
      rfl
    · rw [(Mode.read_of_startsComment delimits noComment nonempty).1]
      exact (Mode.untilCode_literal_eq_none_iff delimits).mpr never
  | @unclosedComment tail never =>
    refine ⟨'/', '*' :: tail, rfl, slash, stays ?_⟩
    rw [Mode.untilCode_cons_of_ne Mode.noConfusion, Option.map_eq_none_iff]
    exact Mode.untilCode_blockComment_eq_none_iff.mpr never

/-- Where a lexeme that is no single character starts, a clear reading stands in code. -/
theorem Leads.eq_code (leads : lexeme.Leads rest) (whole : ∀ c, lexeme ≠ .single c)
    (clear : mode.Clear (lexeme.text ++ rest)) : mode = .code := by
  obtain ⟨delimiter, tail, same, delimits, -⟩ := leads.exists_tail whole
  rw [same] at clear
  apply clear.eq_code
  rintro rfl
  exact absurd delimits (by decide)

/-- Behind a closed lexeme, the reading is clear. -/
theorem Leads.clear (leads : lexeme.Leads rest) (closed : ∀ text, lexeme ≠ .unclosed text) :
    (lexeme.text.foldl Mode.next .code).Clear rest := by
  cases leads with
  | single plain => exact .inl (Mode.code_next_of_not_isDelimiter plain)
  | @literal delimiter content _ delimits holds noComment =>
    have returns := (Mode.literal_returns_iff (Mode.ne_backslash_of_isDelimiter delimits)).mpr ⟨content, rfl, holds⟩
    exact .inl ((Mode.read_of_startsComment delimits noComment (by simp)).2.trans returns.foldl)
  | lineComment oneLine ends => exact .inr ⟨(lineComment_of_line oneLine).2, ends⟩
  | @blockComment inner _ unended => exact .inl (Mode.blockComment_returns_iff.mpr ⟨inner, rfl, unended⟩).foldl
  | unclosedLiteral => exact absurd rfl (closed _)
  | unclosedComment => exact absurd rfl (closed _)

/-- A lexeme that nothing closes is a flaw. -/
theorem Leads.flaw? (leads : (Lexeme.unclosed text).Leads rest) : (text.foldl Mode.next .code).flaw? ≠ none := by
  cases leads with
  | @unclosedLiteral delimiter tail delimits noComment never =>
    by_cases nonempty : tail = []
    · subst nonempty
      rcases Mode.isDelimiter_iff.mp delimits with rfl | rfl | rfl <;> exact Option.some_ne_none _
    · have held : (Mode.literal delimiter).Held := ⟨Mode.noConfusion, Option.some_ne_none _⟩
      rw [List.foldl_cons, (Mode.read_of_startsComment delimits noComment nonempty).2]
      exact (held.foldl ((Mode.untilCode_literal_eq_none_iff delimits).mpr never)).2
  | @unclosedComment tail never =>
    have held : Mode.blockComment.Held := ⟨Mode.noConfusion, Option.some_ne_none _⟩
    exact (held.foldl (Mode.untilCode_blockComment_eq_none_iff.mpr never)).2

end Lexeme

end JasmineConversion
