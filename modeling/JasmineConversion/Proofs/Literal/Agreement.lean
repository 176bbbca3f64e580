import JasmineConversion.Proofs.Literal.Reading

/-! # Scans that agree

Brackets are matched in a text, comments are removed from what a bracket encloses, and what is left is matched and
split once more. A reading of what is left stands where a reading of the text has settled: comments and the slash
that may open one count as code. So a bracket that is matched in a text encloses nothing that is left open, and its
braces are those of the object that is read from it.
-/

namespace JasmineConversion

open Text Source JasmineConversion.Bracket

/-- Where a reading stands once comments have been removed. -/
def Mode.settled : Mode → Mode
  | .code => .code
  | .slash => .code
  | .literal delimiter => .literal delimiter
  | .escape delimiter => .escape delimiter
  | .lineComment => .code
  | .blockComment => .code
  | .blockStar => .code

/-- A text is split into arguments, or a bracket in it is left open; no literal and no comment is. -/
def SplitsOrOpen (text : Text) : Prop :=
  (∃ arguments, splitArguments text = .ok arguments) ∨
    ∃ bracket location, splitArguments text = .error ⟨.unbalanced bracket, some location⟩

/-- The object that the entries of a text between braces make up. -/
def readEntries (text : Text) : Except SourceError Literal := do
  let items ← splitArguments text
  let entries ← items.foldlM (putEntry ('{' :: text ++ ['}']) (text.length + 2) 1) []
  return .object entries

variable {bracket : Bracket} {mode : Mode} {text raw kept : Text} {index close inner : Nat} {c : Char}

/-! ## What is left is read as the text is -/

theorem Source.InComment.settled (inside : InComment mode) : mode.settled = .code := by
  cases inside <;> rfl

/-- Inside a literal, the settled mode goes on as the mode does. -/
theorem settled_next_of_literal {delimiter : Char} (inside : mode = .literal delimiter ∨ mode = .escape delimiter)
    (c : Char) : (mode.next c).settled = mode.next c := by
  rcases inside with rfl | rfl
  · simp only [Mode.next]
    split
    · rfl
    · split <;> rfl
  · rfl

/-- In code, the settled mode goes on as the mode does, but for a slash. -/
theorem settled_next_code (noSlash : c ≠ '/') : (Mode.code.next c).settled = Mode.code.next c := by
  by_cases quote : Mode.isQuote c = true
  · rw [Mode.code_next_of_isQuote quote]
    rfl
  · rw [Mode.code_next_of_not_isDelimiter (by simp [Mode.isDelimiter, quote, noSlash])]
    rfl

/-- Behind a slash that opens no comment, the settled mode goes on as the mode does. -/
theorem settled_next_slash (noLine : c ≠ '/') (noBlock : c ≠ '*') :
    (Mode.slash.next c).settled = Mode.slash.next c := by
  simp only [Mode.next, noLine, noBlock, if_false]
  split <;> rfl

/-- In a comment only the ends of lines are read, and the reading stands in code. -/
theorem scan_uncommented_of_inComment (bracket : Bracket) (inside : InComment mode) (inner : Nat) (c : Char) :
    bracket.scan (mode.settled, inner) (mode.uncommented c) =
      (bracket.step (mode, inner) c).map fun state => (state.1.settled, state.2) := by
  have outside : mode ≠ .code := by
    rintro rfl
    cases inside
  obtain ⟨feeds, next⟩ := inside.next c
  have settled : (mode.next c).settled = .code := by
    rcases next with back | stays
    · rw [back]
      rfl
    · exact stays.settled
  rw [feeds, inside.settled, step_of_ne_code outside, Option.map_some, settled]
  by_cases feed : c = '\n'
  · subst feed
    exact (scan_singleton _ _).trans (step_of_plain plain_newline inner)
  · rw [List.filter_singleton, beq_false_of_ne feed]
    rfl

/-- Reading what remains of a character is reading the character. -/
theorem scan_uncommented (bracket : Bracket) (mode : Mode) (inner : Nat) (c : Char) :
    bracket.scan (mode.settled, inner) (mode.uncommented c) =
      (bracket.step (mode, inner) c).map fun state => (state.1.settled, state.2) := by
  cases mode with
  | code =>
    by_cases slash : c = '/'
    · subst slash
      cases bracket <;> rfl
    · rw [Mode.uncommented, if_neg slash, Mode.settled, scan_singleton]
      cases read : bracket.step (.code, inner) c with
      | none => rfl
      | some state =>
        obtain ⟨mode', inner'⟩ := state
        obtain rfl := mode_of_step read
        rw [Option.map_some, settled_next_code slash]
  | slash =>
    by_cases line : c = '/'
    · subst line
      rfl
    by_cases block : c = '*'
    · subst block
      rfl
    · have kept : Mode.slash.uncommented c = ['/', c] := by simp [Mode.uncommented, line, block]
      have enters : bracket.step (.code, inner) '/' = some (.slash, inner) := by cases bracket <;> rfl
      rw [kept, Mode.settled, scan_cons, enters, Option.bind_some, scan_singleton,
        step_of_ne_code Mode.noConfusion, Option.map_some, settled_next_slash line block]
  | literal delimiter =>
    rw [step_of_ne_code Mode.noConfusion, Option.map_some, settled_next_of_literal (.inl rfl)]
    exact scan_singleton _ _
  | escape delimiter => exact scan_singleton _ _
  | lineComment => exact scan_uncommented_of_inComment bracket .line inner c
  | blockComment => exact scan_uncommented_of_inComment bracket .block inner c
  | blockStar => exact scan_uncommented_of_inComment bracket .star inner c

/-- Brackets are counted in what is kept of a text as in the text itself. -/
theorem scan_keptFrom (bracket : Bracket) (mode : Mode) (inner : Nat) (text : Text) :
    bracket.scan (mode.settled, inner) (keptFrom mode text) =
      (bracket.scan (mode, inner) text).map fun state => (state.1.settled, state.2) := by
  induction text generalizing mode inner with
  | nil => rfl
  | cons c text ih =>
    rw [keptFrom, scan_append, scan_uncommented, scan_cons]
    cases read : bracket.step (mode, inner) c with
    | none => rfl
    | some state =>
      obtain ⟨mode', inner'⟩ := state
      obtain rfl := mode_of_step read
      exact ih (mode.next c) inner'

/-- A bracket encloses what remains of the text that it encloses. -/
theorem encloses_keptFrom (encloses : bracket.Encloses raw) : bracket.Encloses (keptFrom .code raw) := by
  have settled := scan_keptFrom bracket .code 0 raw
  rw [encloses] at settled
  exact settled

/-- A text that ends in code is split, or a bracket in it is left open. -/
theorem splitsOrOpen (ends : text.foldl Mode.next .code = .code) : SplitsOrOpen text := by
  unfold SplitsOrOpen splitArguments
  cases split : segmentsFrom {} 0 text with
  | ok pieces => exact .inl ⟨_, rfl⟩
  | error flaw =>
    obtain ⟨ending, mode, flawed⟩ := exists_flaw_of_segmentsFrom split
    have unflawed : ending.mode.flaw? = none := by
      rw [mode, ends]
      rfl
    rw [Nesting.flaw?, unflawed] at flawed
    obtain ⟨group, -, rfl⟩ := Option.map_eq_some_iff.mp flawed
    exact .inr ⟨group.bracket, _, rfl⟩

theorem plain_bracket (bracket : Bracket) :
    Mode.isDelimiter bracket.opener = false ∧ Mode.isDelimiter bracket.closer = false := by
  cases bracket <;> decide

/-- Brackets that are matched stay around what is left between them. -/
theorem strips_enclosed (encloses : bracket.Encloses raw) :
    Strips (bracket.opener :: raw ++ [bracket.closer]) (bracket.opener :: keptFrom .code raw ++ [bracket.closer]) := by
  have plain := plain_bracket bracket
  have inside : Strips raw (keptFrom .code raw) := ⟨(mode_of_scan encloses).symm, rfl⟩
  exact ((Strips.single plain.1).append inside).append (Strips.single plain.2)

/-- The bracket around an enclosed text matches. -/
theorem matchBracket_enclosed (encloses : bracket.Encloses raw) :
    matchBracket (bracket.opener :: raw ++ [bracket.closer]) 0 = .ok (raw.length + 1) := by
  refine (@matchBracket_eq_ok_iff _ bracket _ _ rfl).mpr ⟨raw, ⟨?_, ?_⟩, encloses⟩
  · simp
  · simp

/-- What is kept of an enclosed text is read as the entries of an object. -/
theorem read_enclosed (encloses : brace.Encloses raw) :
    Literal.read ('{' :: raw ++ ['}']) = readEntries (keptFrom .code raw) := by
  have inside := encloses_keptFrom encloses
  have stripped := stripComments_eq_ok (strips_enclosed encloses)
  have length : ('{' :: keptFrom .code raw ++ ['}']).length = (keptFrom .code raw).length + 2 := by simp
  rw [Literal.read]
  change stripComments (brace.opener :: raw ++ [brace.closer]) >>= _ = _
  rw [stripped]
  change Literal.readFrom ('{' :: keptFrom .code raw ++ ['}']) (('{' :: keptFrom .code raw ++ ['}']).length + 1)
    ([] ++ ('{' :: keptFrom .code raw ++ ['}'])) 0 = _
  rw [readFrom_braces inside isBlankText_nil, length]
  rfl

/-! ## What is matched -/

/-- Scans agree on a bracket that is matched. Without comments it is still the same bracket, around what is left
between the two, and is matched with its last character. What stands inside is split, unless another bracket is
left open there. A brace with its partner is read as an object over all of the text between them, entry by entry. -/
theorem scans_agree (matched : matchBracket text index = .ok close) :
    ∃ (bracket : Bracket) (raw kept : Text),
      slice text index (close + 1) = bracket.opener :: raw ++ [bracket.closer] ∧
      slice text (index + 1) close = raw ∧
      stripComments (slice text index (close + 1)) = .ok (bracket.opener :: kept ++ [bracket.closer]) ∧
      matchBracket (bracket.opener :: kept ++ [bracket.closer]) 0 = .ok (kept.length + 1) ∧
      SplitsOrOpen raw ∧ SplitsOrOpen kept ∧
      (bracket = .brace → Literal.read (slice text index (close + 1)) = readEntries kept) := by
  obtain ⟨bracket, raw, spans, encloses⟩ := exists_encloses_of_matchBracket matched
  have inside := encloses_keptFrom encloses
  rw [spans.slice_eq]
  refine ⟨bracket, raw, keptFrom .code raw, rfl, spans.slice_inside, stripComments_eq_ok (strips_enclosed encloses),
    matchBracket_enclosed inside, splitsOrOpen (mode_of_scan encloses).symm,
    splitsOrOpen (mode_of_scan inside).symm, ?_⟩
  rintro rfl
  exact read_enclosed encloses

/-- A block with a brace in a comment and one in a string. -/
def directiveBlock : Text :=
  "_should: \x7b ignore: \x7b /* \x7d */ 'a \x7b': true \x7d \x7d, more".toList

/-- Directives with a brace in a key and one in a comment are read alike by both scans. -/
theorem directiveBlock_scans_agree : ∃ kept,
    stripComments (slice directiveBlock 9 44) = .ok ('{' :: kept ++ ['}']) ∧
    matchBracket ('{' :: kept ++ ['}']) 0 = .ok (kept.length + 1) ∧
    readEntries kept = .ok (.object [("ignore".toList, .object [("a \x7b".toList, .boolean true)])]) := by
  have matched : matchBracket directiveBlock 9 = .ok 43 := rfl
  obtain ⟨bracket, raw, kept, whole, -, stripped, rematched, -, -, read⟩ := scans_agree matched
  obtain rfl : bracket = .brace := by
    have opens : some '{' = some bracket.opener := congrArg List.head? whole
    cases bracket <;> first | rfl | exact absurd opens (by decide)
  exact ⟨kept, stripped, rematched, (read rfl).symm⟩

/-- A block of which a value is an expression. -/
def expressionBlock : Text :=
  "_should: \x7b ignore: \x7b testFoo: !0 \x7d \x7d".toList

/-- Not every block with matched braces is read: its entries have to be literals. -/
theorem expressionBlock_unread : matchBracket expressionBlock 9 = .ok 35 ∧
    ∀ literal, Literal.read (slice expressionBlock 9 36) ≠ .ok literal := by
  have failed : (Literal.read (slice expressionBlock 9 36)).toOption = none := rfl
  refine ⟨rfl, fun literal read => ?_⟩
  rw [read] at failed
  cases failed

end JasmineConversion
