import JasmineConversion.Proofs.Literal.Agreement
import JasmineConversion.Proofs.Literal.Failures
import JasmineConversion.Proofs.Suite.Reports

/-! # Lines of values among directives

Directives are read without their comments, and a fault is moved to the line of the source where their block opens. A
value has the same line with and without comments. So the line of a fault in a value is that of the value as long as
the reader takes the value to start on the line where it does.
-/

namespace JasmineConversion

open Text Source Pattern JasmineConversion.Bracket

/-! ## What is kept stands in the text -/

/-- A character that remains without comments stands in code in a text, behind what the given text remains of, and
opens no comment. -/
def Shows (mode : Mode) (text before : Text) (c : Char) : Prop :=
  ∃ front back, text = front ++ c :: back ∧ front.foldl Mode.next mode = .code ∧ keptFrom mode front = before ∧
    startsComment (c :: back) = false

variable {mode : Mode} {text before behind : Text} {c : Char}

/-- A character in front that leads to a mode shows what is kept of it first. -/
theorem Shows.cons {d : Char} (shows : Shows (mode.next d) text before c) :
    Shows mode (d :: text) (mode.uncommented d ++ before) c := by
  obtain ⟨front, back, rfl, code, left, starts⟩ := shows
  exact ⟨d :: front, back, rfl, code, by rw [keptFrom, left], starts⟩

/-- Reading goes on behind what remains of a character as it does behind the character. -/
theorem foldl_uncommented (mode : Mode) (d : Char) :
    (mode.uncommented d).foldl Mode.next mode.settled = (mode.next d).settled := by
  obtain ⟨state, ran⟩ : ∃ state, Bracket.round.step (mode, 1) d = some state :=
    Option.ne_none_iff_exists'.mp (by simp [step_eq_none_iff])
  have scanned := scan_uncommented .round mode 1 d
  rw [ran, Option.map_some] at scanned
  rw [← mode_of_step ran]
  exact (mode_of_scan scanned).symm

/-- Only a slash in code is held back. -/
theorem eq_of_next_eq_slash {d : Char} (holds : mode.next d = .slash) : mode = .code ∧ d = '/' := by
  cases mode with
  | code =>
    by_cases slash : d = '/'
    · exact ⟨rfl, slash⟩
    · simp only [Mode.next, if_neg slash] at holds
      split at holds <;> cases holds
  | escape delimiter => cases holds
  | _ =>
    simp only [Mode.next] at holds
    repeat' split at holds
    all_goals cases holds

/-- A visible character among what remains of one is that character, or the slash that was held back before it. -/
theorem shows_or_slash_of_uncommented {d : Char} {more : Text} (kept : mode.uncommented d = before ++ c :: more)
    (ends : before.foldl Mode.next mode.settled = .code) (visible : isBlank c = false) (rest : Text) :
    Shows mode (d :: rest) before c ∨
      mode = .slash ∧ c = '/' ∧ before = [] ∧ startsComment ('/' :: d :: rest) = false := by
  have feed (kept : (if d = '\n' then [d] else []) = before ++ c :: more) : False := by
    split at kept
    · next feeds =>
      obtain ⟨rfl, same⟩ | ⟨before', -, none⟩ := List.cons_eq_append_iff.mp kept
      · obtain ⟨rfl, -⟩ := List.cons.inj same
        rw [feeds] at visible
        cases visible
      · simp at none
    · simp at kept
  cases mode with
  | code =>
    by_cases slash : d = '/'
    · simp [Mode.uncommented, slash] at kept
    · rw [Mode.uncommented, if_neg slash] at kept
      obtain ⟨rfl, same⟩ | ⟨before', -, none⟩ := List.cons_eq_append_iff.mp kept
      · obtain ⟨rfl, -⟩ := List.cons.inj same
        exact .inl ⟨[], rest, rfl, rfl, rfl, by simp [startsComment, startsWith, after?, Ne.symm slash]⟩
      · simp at none
  | slash =>
    by_cases opens : d = '/' ∨ d = '*'
    · simp [Mode.uncommented, opens] at kept
    · rw [not_or] at opens
      simp only [Mode.uncommented, opens, decide_false, Bool.or_self, Bool.false_eq_true, if_false] at kept
      obtain ⟨rfl, same⟩ | ⟨before', rfl, more⟩ := List.cons_eq_append_iff.mp kept
      · obtain ⟨rfl, -⟩ := List.cons.inj same
        exact .inr ⟨rfl, rfl, rfl, by simp [startsComment, startsWith, after?, Ne.symm opens.1, Ne.symm opens.2]⟩
      · obtain ⟨rfl, -⟩ | ⟨before', -, none⟩ := List.cons_eq_append_iff.mp more
        -- Behind the slash alone, the reading is not in code.
        · cases ends
        · simp at none
  | literal delimiter =>
    obtain ⟨rfl, -⟩ | ⟨before', -, none⟩ := List.cons_eq_append_iff.mp kept
    · cases ends
    · simp at none
  | escape delimiter =>
    obtain ⟨rfl, -⟩ | ⟨before', -, none⟩ := List.cons_eq_append_iff.mp kept
    · cases ends
    · simp at none
  | lineComment => exact (feed kept).elim
  | blockComment => exact (feed kept).elim
  | blockStar => exact (feed kept).elim

/-- A visible character that is kept in code is shown, or is a slash that was held back. -/
theorem shows_or_slash (kept : keptFrom mode text = before ++ c :: behind)
    (ends : before.foldl Mode.next mode.settled = .code) (visible : isBlank c = false) :
    Shows mode text before c ∨ mode = .slash ∧ c = '/' ∧ before = [] ∧ startsComment ('/' :: text) = false := by
  induction text generalizing mode before with
  | nil => simp [keptFrom] at kept
  | cons d rest ih =>
    rcases append_eq_append_cons_iff.mp kept with ⟨more, here, -⟩ | ⟨before, rfl, further⟩
    · exact shows_or_slash_of_uncommented here ends visible rest
    · rw [List.foldl_append, foldl_uncommented] at ends
      rcases ih further ends with shows | ⟨holds, rfl, rfl, starts⟩
      · exact .inl shows.cons
      · obtain ⟨rfl, rfl⟩ := eq_of_next_eq_slash holds
        exact .inl ⟨[], rest, rfl, rfl, rfl, starts⟩

/-- A visible character that remains in code without comments stands in code in the text, and opens no comment there. -/
theorem shows_of_keptFrom (kept : keptFrom .code text = before ++ c :: behind)
    (ends : before.foldl Mode.next .code = .code) (visible : isBlank c = false) : Shows .code text before c :=
  (shows_or_slash kept ends visible).resolve_right fun slash => Mode.noConfusion slash.1

/-! ## Directives -/

/-- The block of directives that the reader finds at an index: where its brace opens, and what it encloses. -/
structure DirectiveBlock (source : Text) (index opened : Nat) (raw : Text) : Prop where
  found : ∃ start key, skip source index = .ok start ∧ Key "_should".toList key ∧ Spans source start key opened
  spans : Spans source opened ('{' :: raw ++ ['}']) (opened + raw.length + 2)
  encloses : brace.Encloses raw

/-- A value begins at a place of the source. What stands there from the block on is what stands before the value once
the comments are gone. -/
structure BeginsAt (source : Text) (opened : Nat) (before value : Text) (place : Nat) : Prop where
  passed : ∃ passed, Spans source opened passed place ∧ Strips passed before
  here : ∃ c more rest, value = c :: more ∧ source.drop place = c :: rest ∧ startsComment (c :: rest) = false

variable {source value raw plain : Text} {opened place taken width : Nat} {error : SourceError} {fault : LiteralFault}
  {cursor cursor' : Cursor}

/-- A value has its line with and without comments. -/
theorem BeginsAt.lineAt_eq (begins : BeginsAt source opened before value place) :
    lineAt source place = lineAt source opened + before.count '\n' := by
  obtain ⟨passed, spans, strips⟩ := begins.passed
  rw [spans.lineAt_eq, ← strips.keeps, count_keptFrom]

/-- A value that the reader comes to begins somewhere in the source. -/
theorem ComesTo.exists_beginsAt (block : DirectiveBlock source cursor.index opened raw)
    (stripped : stripComments ('{' :: raw ++ ['}']) = .ok plain) (comes : ComesTo plain before value behind taken)
    (nonempty : value ≠ []) : ∃ place, BeginsAt source opened before value place := by
  obtain ⟨c, more, rfl⟩ := List.exists_cons_of_ne_nil nonempty
  have visible : isBlank c = false := by
    have starts := (stops_trim (c :: more)).1
    rwa [comes.trim_value, stops_cons] at starts
  have kept : keptFrom .code ('{' :: raw ++ ['}']) = before ++ c :: (more ++ behind) := by
    rw [(stripComments_eq_ok_iff.mp stripped).2, comes.split]
    simp
  obtain ⟨front, back, whole, code, left, starts⟩ := shows_of_keptFrom kept comes.ends_code visible
  have spans := block.spans
  rw [whole] at spans
  obtain ⟨first, second⟩ := spans.split
  refine ⟨opened + front.length, ⟨front, first, code, left⟩, c, more, _, rfl, second.here, ?_⟩
  cases back with
  | nil =>
    obtain ⟨-, last⟩ := List.append_inj' whole rfl
    obtain rfl : '}' = c := by simpa using last
    rfl
  | cons b back => simpa [startsComment, startsWith, after?] using starts

/-- The error that a reader fails with. -/
def SuiteReader.errorAt? {α : Type} (reader : SuiteReader α) (cursor : Cursor) : Option SourceError :=
  match reader cursor with
  | .ok _ _ => none
  | .error error _ => some error

/-- A reader whose error has a property fails with this property. -/
theorem SuiteReader.exists_eq_error_of_any {α : Type} {reader : SuiteReader α} {holds : SourceError → Bool}
    (found : (SuiteReader.errorAt? reader cursor).any holds = true) :
    ∃ error cursor', reader cursor = .error error cursor' ∧ holds error = true := by
  unfold SuiteReader.errorAt? at found
  cases ran : reader cursor with
  | ok value between =>
    rw [ran] at found
    cases found
  | error error between =>
    rw [ran] at found
    exact ⟨error, between, rfl, found⟩

/-- The search for a pattern fails only where the gap in front does. -/
theorem SuiteReader.find_eq_error {α : Type} {pattern : Text → Option α}
    (failed : SuiteReader.find source pattern cursor = .error error cursor') :
    skip source cursor.index = .error error := by
  rcases SuiteReader.bind_eq_error_iff.mp failed with ended | ⟨start, _, positioned, failed⟩
  · cases ended
  obtain ⟨rfl, rfl⟩ := SuiteReader.position_eq_ok_iff.mp positioned
  rcases SuiteReader.bind_eq_error_iff.mp failed with gap | ⟨_, _, -, failed⟩
  · rcases SuiteReader.bind_eq_error_iff.mp gap with ended | ⟨_, _, positioned, gap⟩
    · cases ended
    obtain ⟨rfl, rfl⟩ := SuiteReader.position_eq_ok_iff.mp positioned
    rcases SuiteReader.bind_eq_error_iff.mp gap with scan | ⟨_, _, -, ended⟩
    · exact (SuiteReader.ofExcept_eq_error_iff.mp scan).1
    · cases ended
  · rcases SuiteReader.bind_eq_error_iff.mp failed with ended | ⟨text, _, -, failed⟩
    · cases ended
    · cases matched : pattern text with
      | some found =>
        rw [matched] at failed
        cases failed
      | none =>
        rw [matched] at failed
        rcases SuiteReader.bind_eq_error_iff.mp failed with ended | ⟨_, _, -, ended⟩ <;> cases ended

/-- A block of directives fails to be read as a literal. -/
theorem exists_block_of_should (failed : SuiteReader.should source cursor = .error error cursor')
    (cause : error.cause = .literal fault) :
    ∃ opened raw found, DirectiveBlock source cursor.index opened raw ∧
      Literal.read ('{' :: raw ++ ['}']) = .error found ∧ error = found.relocate (lineAt source opened - 1) := by
  rcases SuiteReader.bind_eq_error_iff.mp failed with scan | ⟨found, between, ran, inBlock⟩
  · exact absurd (SuiteReader.find_eq_error scan) (ne_error_of_ofScan (skip_ofScan source _) cause)
  clear failed
  obtain ⟨start, skipped, matched, rfl⟩ := SuiteReader.find_eq_ok_iff.mp ran
  cases found with
  | none => cases inBlock
  | some text =>
    obtain ⟨key, isKey, here, braced⟩ := should?_eq_some_iff.mp matched
    have opens := SuiteReader.opens_of_behind here braced
    have keyed : Spans source start key (SuiteReader.indexOf source text) := by
      have visible : key ++ text ≠ [] := by
        obtain ⟨more, rfl⟩ := braced
        simp
      exact .of_drop here (SuiteReader.indexOf_of_drop here visible)
    rcases SuiteReader.bind_eq_error_iff.mp inBlock with scan | ⟨close, _, closed, reading⟩
    · have unmatched := (SuiteReader.ofExcept_eq_error_iff.mp scan).1
      exact absurd unmatched (ne_error_of_ofScan (matchBracket_ofScan .brace opens) cause)
    obtain ⟨raw, spans, encloses⟩ := (matchBracket_eq_ok_iff opens).mp (SuiteReader.ofExcept_eq_ok_iff.mp closed).1
    clear inBlock
    rcases SuiteReader.bind_eq_error_iff.mp reading with unread | ⟨literal, _, -, named⟩
    · obtain ⟨found, read, rfl⟩ := mapError_eq_error_iff.mp (SuiteReader.ofExcept_eq_error_iff.mp unread).1
      rw [spans.slice_eq] at read
      have width := spans.width
      simp only [List.length_append, List.length_cons, List.length_nil] at width
      rw [show close + 1 = SuiteReader.indexOf source text + raw.length + 2 by omega] at spans
      exact ⟨_, raw, found, ⟨⟨start, key, skipped, isKey, keyed⟩, spans, encloses⟩, read, rfl⟩
    · clear reading
      cases given : SuiteReader.directives {} (SuiteReader.entriesOf literal) with
      | error fault =>
        rw [given] at named
        cases named
        cases cause
      | ok directives =>
        rw [given] at named
        rcases SuiteReader.bind_eq_error_iff.mp named with ended | ⟨_, _, -, ended⟩ <;> cases ended

/-- A fault of a value among directives. The value is no literal, and the reader comes to it in the block without its
comments. The line of the fault is that of the index where the reader takes the value to start, and further on that
where the fault is found. -/
structure ValueFault (source : Text) (index : Nat) (fault : LiteralFault) (opened : Nat)
    (plain before value : Text) (taken width : Nat) (line : Int) : Prop where
  block : ∃ raw, DirectiveBlock source index opened raw ∧ stripComments ('{' :: raw ++ ['}']) = .ok plain
  comes : ∃ behind, ComesTo plain before value behind taken
  faulty : Faulty value fault width
  noLiteral : ∀ literal, ¬Writes value literal
  line_eq : line = lineAt source opened + (plain.take (taken + width)).count '\n'

/-- **Lines of faults in directives.** When directives are not read because of a value in them, this value is reached
behind values that are all read, and it begins at a place of the source. Unless it is the start of a literal with
something behind it, the error points to its line or to one above, and to its line exactly when no line break stands
between the index where the reader takes the value to start and the value. -/
theorem value_fault_line (failed : SuiteReader.should source cursor = .error error cursor')
    (cause : error.cause = .literal fault) (ofValue : fault.isOfValue = true) :
    ∃ opened plain before value taken width location,
      error.location = some location ∧
      ValueFault source cursor.index fault opened plain before value taken width location.line ∧
      (value ≠ [] → ∃ place, BeginsAt source opened before value place ∧
        (width = 0 → location.line ≤ lineAt source place ∧
          (location.line = lineAt source place ↔ '\n' ∉ before.drop taken))) := by
  obtain ⟨opened, raw, found, block, unread, rfl⟩ := exists_block_of_should failed cause
  obtain ⟨plain, stripped⟩ : ∃ plain, stripComments ('{' :: raw ++ ['}']) = .ok plain :=
    ⟨_, stripComments_eq_ok (strips_enclosed block.encloses)⟩
  rw [Literal.read, stripped] at unread
  obtain ⟨before, value, behind, taken, width, comes, faulty, rfl⟩ :=
    failsAt_of_readFrom (Nat.lt_succ_self _) unread cause ofValue
  have line : (lineAt plain (0 + taken + width) : Int) + (lineAt source opened - 1) =
      lineAt source opened + (plain.take (taken + width)).count '\n' := by
    rw [Nat.zero_add, lineAt]
    omega
  refine ⟨opened, plain, before, value, taken, width, _, rfl,
    ⟨⟨raw, block, stripped⟩, ⟨behind, comes⟩, faulty, faulty.not_writes, line⟩, fun nonempty => ?_⟩
  obtain ⟨place, begins⟩ := comes.exists_beginsAt block stripped nonempty
  refine ⟨place, begins, ?_⟩
  rintro rfl
  have front : plain.take (taken + 0) = before.take taken := by
    rw [comes.split, List.append_assoc]
    exact List.take_append_of_le_length comes.taken_le
  have counts : before.count '\n' = (before.take taken).count '\n' + (before.drop taken).count '\n' := by
    rw [← List.count_append, List.take_append_drop]
  have absent : '\n' ∉ before.drop taken ↔ (before.drop taken).count '\n' = 0 := List.count_eq_zero.symm
  dsimp only [Location.ofIndex]
  rw [line, front, begins.lineAt_eq, absent]
  omega

/-- A block of directives with a value on its second line. -/
def lateValue : Text :=
  "_should: \x7b ignore: \x7b a: true,\n b: x \x7d \x7d".toList

/-- A value on the second line is reported on the first. -/
theorem lateValue_reported_early :
    ∃ error cursor, SuiteReader.should lateValue {} = .error error cursor ∧
      error.cause = .literal (.notLiteral "x".toList) ∧ error.location.map (·.line) = some 1 ∧
      lateValue.drop 34 = "x \x7d \x7d".toList ∧ lineAt lateValue 34 = 2 := by
  have failed : (SuiteReader.errorAt? (SuiteReader.should lateValue) {}).any (fun error =>
      error.cause = .literal (.notLiteral "x".toList) ∧ error.location.map (·.line) = some 1) = true := by
    decide +kernel
  obtain ⟨error, cursor, ran, holds⟩ := SuiteReader.exists_eq_error_of_any failed
  obtain ⟨cause, line⟩ := of_decide_eq_true holds
  exact ⟨error, cursor, ran, cause, line, by decide +kernel, by decide +kernel⟩

/-- The line that is reported is too low since a line feed stands in front of the value. -/
theorem lateValue_fault_line :
    ∃ error cursor' location opened before taken place,
      SuiteReader.should lateValue {} = .error error cursor' ∧ error.cause = .literal (.notLiteral "x".toList) ∧
      error.location = some location ∧ BeginsAt lateValue opened before "x".toList place ∧
      location.line ≤ lineAt lateValue place ∧
      (location.line = lineAt lateValue place ↔ '\n' ∉ before.drop taken) := by
  have failed : (SuiteReader.errorAt? (SuiteReader.should lateValue) {}).any (fun error =>
      error.cause = .literal (.notLiteral "x".toList)) = true := by
    decide +kernel
  obtain ⟨error, cursor', ran, holds⟩ := SuiteReader.exists_eq_error_of_any failed
  have cause := of_decide_eq_true holds
  obtain ⟨opened, plain, before, value, taken, width, location, located, found, begins⟩ :=
    value_fault_line ran cause rfl
  obtain ⟨rfl, rfl⟩ : value = "x".toList ∧ width = 0 := by
    cases found.faulty with
    | word _ _ _ => exact ⟨rfl, rfl⟩
  obtain ⟨place, here, lines⟩ := begins (by decide)
  exact ⟨error, cursor', location, opened, before, taken, place, ran, cause, located, here, lines rfl⟩

end JasmineConversion
