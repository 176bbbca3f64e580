import JasmineConversion.Proofs.Body.Reports
import JasmineConversion.Proofs.Text.Lines

/-! # Progress over a body

Each step over a body leaves less of it ahead, so that no run of steps reaches the bound on their
number.
-/

namespace JasmineConversion

open Text Source

/-! ## Wrappers -/

namespace Text

/-- Lines that are shortened one by one make a shorter text. -/
theorem unlines_map_sublist {change : Text → Text} (shortens : ∀ text, (change text).Sublist text)
    (texts : List Text) : (unlines (texts.map change)).Sublist (unlines texts) := by
  induction texts with
  | nil => exact List.Sublist.refl []
  | cons first rest ih =>
    cases rest with
    | nil => exact shortens first
    | cons second more => exact ((shortens first).append (List.Sublist.refl ['\n'])).append ih

/-- A line loses only characters when it is moved. -/
theorem dropOneIndent_sublist (line : Text) : (dropOneIndent line).Sublist line := by
  unfold dropOneIndent
  split
  · next rest tab => exact (suffix_of_after? tab).sublist
  · cases spaces : after? "    ".toList line with
    | none => exact List.Sublist.refl line
    | some rest => exact (suffix_of_after? spaces).sublist

theorem removeOneIndent_sublist (code : Text) : (removeOneIndent code).Sublist code := by
  have shorter := unlines_map_sublist dropOneIndent_sublist (lines code)
  rwa [unlines_lines] at shorter

end Text

namespace Body

theorem unwrapped_sublist (body : Text) : (unwrapped body).Sublist body :=
  (dropEndWhile_sublist isLineEnd _).trans
    ((List.dropWhile_sublist isLineEnd).trans (removeOneIndent_sublist body))

/-- A step that removes a wrapper or goes on behind it leaves less of the code ahead. -/
theorem lt_of_unwrapStep {marker : Content} {code : Text} {index : Nat} {next : UnwrapStep}
    (ran : unwrapStep marker code index = .ok (some next)) :
    next.code.length - next.resume < code.length - index := by
  unfold unwrapStep at ran
  cases found : findTry code index with
  | none => simp [found, pure, Except.pure] at ran
  | some block =>
    simp only [found, exceptBind_eq_ok_iff] at ran
    obtain ⟨close, matched, ran⟩ := ran
    obtain ⟨start, keyword, opened, -⟩ := placed_of_findTryFrom found
    obtain ⟨behind, inside⟩ := lt_of_matchBracket .brace (opens_of_findTry found) matched
    split at ran
    · cases clause : catch? (code.drop (close + 1)) with
      | none =>
        simp only [clause, exceptPure_eq_ok_iff, Option.some.injEq] at ran
        subst ran
        dsimp only
        omega
      | some text =>
        simp only [clause, exceptBind_eq_ok_iff, exceptPure_eq_ok_iff, Option.some.injEq] at ran
        obtain ⟨clauseClose, matched, rfl⟩ := ran
        obtain ⟨behindClause, insideClause⟩ := lt_of_matchBracket .brace (opens_of_catch? clause) matched
        have clauseLength := (suffix_of_catch? clause).1.length_le
        have bodyLength := (unwrapped_sublist (slice code (block.opened + 1) close)).length_le
        have sliceLength : (slice code (block.opened + 1) close).length =
          min close code.length - (block.opened + 1) := by
          rw [slice, List.length_drop, List.length_take]
        rw [List.length_drop] at clauseLength
        simp only [List.length_append, List.length_take, List.length_drop]
        omega
    · simp only [exceptPure_eq_ok_iff, Option.some.injEq] at ran
      subst ran
      dsimp only
      omega

/-- A run that succeeds ends where no block is ahead, or takes a step and goes on. -/
theorem unwrapFrom_eq_ok_iff {marker : Content} {bound : Nat} {code result : Text} {index : Nat} :
    (unwrapFrom marker (bound + 1) code index).2 = .ok result ↔
      unwrapStep marker code index = .ok none ∧ code = result ∨
      ∃ next, unwrapStep marker code index = .ok (some next) ∧
        (unwrapFrom marker bound next.code next.resume).2 = .ok result := by
  rw [unwrapFrom]
  cases unwrapStep marker code index with
  | error error => simp
  | ok outcome =>
    cases outcome with
    | none => simp
    | some next => simp

/-- More steps than there are characters ahead change nothing. -/
theorem unwrapFrom_of_bound {marker : Content} {bound : Nat} {code : Text} {index : Nat}
    (enough : code.length - index < bound) :
    unwrapFrom marker (bound + 1) code index = unwrapFrom marker bound code index := by
  induction bound generalizing code index with
  | zero => cases enough
  | succ bound ih =>
    conv => rhs; rw [unwrapFrom]
    rw [unwrapFrom]
    cases ran : unwrapStep marker code index with
    | error error => rfl
    | ok outcome =>
      cases outcome with
      | none => rfl
      | some next =>
        have less := lt_of_unwrapStep ran
        dsimp only
        rw [ih (by omega)]

/-- Any larger bound on the number of steps removes the same wrappers. -/
theorem unwrapMocksAt_of_bound {marker : Content} {code : Text} {bound : Nat}
    (enough : code.length < bound) :
    unwrapFrom marker bound code 0 = unwrapMocksAt marker code := by
  induction enough with
  | refl => rfl
  | step less ih => rw [unwrapFrom_of_bound (Nat.lt_of_le_of_lt (Nat.sub_le _ _) less), ih]

end Body

/-! ## Assertion calls -/

namespace AssertionCall

/-- What is left behind a semicolon is the end of the text. -/
theorem dropSemicolon_suffix (text : Text) : dropSemicolon text <:+ text := by
  unfold dropSemicolon
  cases semicolon : after? [';'] (text.dropWhile isIndent) with
  | none => exact List.suffix_refl text
  | some rest => exact (suffix_of_after? semicolon).trans (List.dropWhile_suffix _)

/-- A step that replaces a call leaves less of the code ahead. -/
theorem lt_of_step {code : Text} {index : Nat} {next : Step} (ran : step code index = .ok (some next)) :
    next.code.length - next.resume < code.length - index := by
  unfold step at ran
  cases found : find code index with
  | none => simp [found, pure, Except.pure] at ran
  | some call =>
    simp only [found, exceptBind_eq_ok_iff, exceptPure_eq_ok_iff, Option.some.injEq] at ran
    obtain ⟨close, matched, arguments, -, expectation, -, rfl⟩ := ran
    obtain ⟨start, opened, -⟩ := placed_of_findFrom found
    obtain ⟨behind, inside⟩ := lt_of_matchBracket .round (opens_of_find found) matched
    have tail := (dropSemicolon_suffix (code.drop (close + 1))).length_le
    rw [List.length_drop] at tail
    simp only [List.length_append, List.length_take]
    omega

/-- More steps than there are characters ahead change nothing. -/
theorem replaceFrom_of_bound {bound : Nat} {code : Text} {index : Nat}
    (enough : code.length - index < bound) :
    replaceFrom (bound + 1) code index = replaceFrom bound code index := by
  induction bound generalizing code index with
  | zero => cases enough
  | succ bound ih =>
    conv => rhs; rw [replaceFrom]
    rw [replaceFrom]
    cases ran : step code index with
    | error error => rfl
    | ok outcome =>
      cases outcome with
      | none => rfl
      | some next =>
        have less := lt_of_step ran
        exact ih (by omega)

/-- Any larger bound on the number of steps replaces the same calls. -/
theorem replaceAll_of_bound {code : Text} {bound : Nat} (enough : code.length < bound) :
    replaceFrom bound code 0 = replaceAll code := by
  induction enough with
  | refl => rfl
  | step less ih => rw [replaceFrom_of_bound (Nat.lt_of_le_of_lt (Nat.sub_le _ _) less), ih]

end AssertionCall

end JasmineConversion
