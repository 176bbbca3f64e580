import JasmineConversion.Proofs.Suite.CaseReading

/-! # Reading the frames of containers

A container has a header, may have the mark of a suite, and has an end. Each of these is read
exactly as it is written.
-/

namespace JasmineConversion

open Text Source Pattern

namespace SuiteReader

variable {source : Text} {cursor cursor' : Cursor}

/-! ## Quoted values -/

/-- A quoted value that is matched behind a key is written there. -/
theorem exists_quoted_of_key? {start close : Nat} {name text : Text}
    (keyed : key? name (source.drop start) = some text) (quoted : text.head?.any Mode.isQuote = true)
    (matched : matchLiteral source (indexOf source text) = .ok close) :
    ∃ key quote content, Key name key ∧ Mode.isQuote quote = true ∧ LiteralContent quote content ∧
      Spans source start (key ++ (quote :: content ++ [quote])) (close + 1) ∧
      slice source (indexOf source text + 1) close = content := by
  obtain ⟨key, isKey, here, -⟩ := key?_eq_some_iff.mp keyed
  obtain ⟨quote, starts, isQuote⟩ := (Option.any_eq_true _ _).mp quoted
  have keySpans : Spans source start key (start + key.length) := .of_drop here rfl
  have value := keySpans.drop_stop here
  have nonempty : text ≠ [] := by
    rintro rfl
    simp at starts
  rw [indexOf_of_drop here (List.append_ne_nil_of_right_ne_nil _ nonempty)] at matched ⊢
  obtain ⟨content, spans, holds⟩ :=
    (matchLiteral_eq_ok_iff (Mode.isDelimiter_of_isQuote isQuote) (by rw [value, starts])).mp matched
  exact ⟨key, quote, content, isKey, isQuote, holds, keySpans.append spans, spans.slice_inside⟩

/-- A quoted value that is written behind a key is matched there. -/
theorem key?_of_quoted {start stop : Nat} {name key content : Text} {quote : Char}
    (isKey : Key name key) (isQuote : Mode.isQuote quote = true) (holds : LiteralContent quote content)
    (spans : Spans source start (key ++ (quote :: content ++ [quote])) stop) :
    ∃ text close, stop = close + 1 ∧ key? name (source.drop start) = some text ∧
      text.head? = some quote ∧ matchLiteral source (indexOf source text) = .ok close ∧
      slice source (indexOf source text + 1) close = content := by
  obtain ⟨keySpans, valueSpans⟩ := spans.split
  generalize start + key.length = value at *
  have value_ne_nil : source.drop value ≠ [] := by
    rw [valueSpans.here]
    simp
  have starts : (source.drop value).head? = some quote := by
    rw [valueSpans.here]
    rfl
  have keyed : key? name (source.drop start) = some (source.drop value) := by
    refine key?_eq_some_iff.mpr ⟨key, isKey, keySpans.here, ?_⟩
    rw [valueSpans.here]
    exact (stops_cons _ _ _).mpr (Mode.isBlank_of_isQuote isQuote)
  obtain ⟨close, rfl⟩ : ∃ close, stop = close + 1 :=
    ⟨value + (quote :: content).length, by rw [valueSpans.width, List.length_append]; rfl⟩
  refine ⟨_, close, rfl, keyed, starts, ?_⟩
  rw [indexOf_drop value_ne_nil]
  exact ⟨(matchLiteral_eq_ok_iff (Mode.isDelimiter_of_isQuote isQuote) starts).mpr
    ⟨content, valueSpans, holds⟩, valueSpans.slice_inside⟩

/-! ## Headers -/

/-- The brace of a container stands behind the call of a constructor, if one was looked for and
found. -/
theorem exists_opening {index : Nat} {allow : Bool} {called : Option (Text × Text)}
    (calls : (if allow then construction? (source.drop index) else none) = called)
    (braced : Braced ((called.map (·.2)).getD (source.drop index))) :
    ∃ before, Opening (called.map (·.1)) before ∧ (allow = false → called.map (·.1) = none) ∧
      source.drop index = before ++ (called.map (·.2)).getD (source.drop index) := by
  cases called with
  | none => exact ⟨[], .none, fun _ => rfl, rfl⟩
  | some head =>
    obtain ⟨constructor, text⟩ := head
    rw [Option.ite_none_right_eq_some, construction?_eq_some_iff] at calls
    obtain ⟨allowed, call, isCall, here, -⟩ := calls
    exact ⟨call, .some isCall, by simp [allowed], here⟩

/-- A header that is read is written inside the braces of its container, behind the call of a
constructor if there is one. -/
theorem exists_headerText_of_header {index : Nat} {allow : Bool} {found : Header}
    (ran : header source index allow = .ok (some found)) :
    ∃ before inner, Opening found.constructorName before ∧
      (allow = false → found.constructorName = none) ∧
      Spans source index (before ++ ('{' :: inner ++ ['}'])) (found.close + 1) ∧
      Bracket.brace.Encloses inner ∧
      ∀ {next}, skip source found.stop = .ok next → source.drop next ≠ [] →
        ∃ text, HeaderText found.name text ∧ Spans source (index + before.length + 1) text next := by
  rw [header] at ran
  dsimp only at ran
  generalize calls : (if allow then construction? (source.drop index) else none) = called at ran
  split at ran
  · simp [exceptPure_eq_ok_iff] at ran
  next opens =>
  have braced : Braced ((called.map (·.2)).getD (source.drop index)) := by
    simpa [startsWith_brace_iff] using opens
  obtain ⟨before, opening, constructed, here⟩ := exists_opening calls braced
  have lead : Spans source index before (index + before.length) := .of_drop here rfl
  obtain ⟨inside, begins⟩ := braced
  rw [indexOf_of_drop here (by simp [begins])] at ran
  have brace := lead.drop_stop here
  rw [begins] at brace
  simp only [exceptBind_eq_ok_iff] at ran
  obtain ⟨nameIndex, skipped, ran⟩ := ran
  split at ran
  · simp [exceptPure_eq_ok_iff] at ran
  next text keyed =>
  split at ran
  · simp [exceptPure_eq_ok_iff] at ran
  next quoted =>
  simp only [exceptBind_eq_ok_iff, exceptPure_eq_ok_iff, Option.some.injEq] at ran
  obtain ⟨nameClose, matchedName, afterName, skippedName, close, matched, rfl⟩ := ran
  obtain ⟨inner, spans, encloses⟩ := (matchBracket_brace_iff ⟨_, brace⟩).mp matched
  refine ⟨before, inner, opening, constructed, lead.append spans, encloses, ?_⟩
  intro next skippedStop more
  obtain ⟨gap, gapSpans, closed⟩ := exists_gap_of_skip skipped
  obtain ⟨key, quote, name, isKey, isQuote, content, nameSpans, isName⟩ :=
    exists_quoted_of_key? keyed (by simpa using quoted) matchedName
  obtain ⟨separator, apartSpans, apart⟩ :=
    exists_separator_of_separates ⟨afterName, skippedName, skippedStop⟩ more
  have isGap : Gap gap := by
    apply closed
    rw [nameSpans.here]
    simp
  refine ⟨_, ?_, gapSpans.append (nameSpans.append apartSpans)⟩
  simpa [isName] using HeaderText.intro isGap isKey isQuote content apart

/-- The call of a constructor is found where it is written, and the brace behind it. -/
theorem exists_called_of_opening {index opened : Nat} {allow : Bool} {constructor : Option Text}
    {before : Text} (opening : Opening constructor before) (allowed : allow = true ∨ constructor = none)
    (lead : Spans source index before opened) (braced : Braced (source.drop opened)) :
    ∃ called : Option (Text × Text),
      (if allow then construction? (source.drop index) else none) = called ∧
      called.map (·.1) = constructor ∧
      (called.map (·.2)).getD (source.drop index) = source.drop opened := by
  cases opening with
  | none =>
    obtain rfl : opened = index := by simpa using lead.width
    obtain ⟨inside, here⟩ := braced
    have absent : construction? (source.drop opened) = none := by
      rw [here]
      simp [construction?, after?]
    exact ⟨none, by simp [absent], rfl, rfl⟩
  | some isCall =>
    have isAllowed : allow = true := by simpa using allowed
    refine ⟨some (_, source.drop opened), ?_, rfl, rfl⟩
    rw [if_pos isAllowed, construction?_eq_some_iff]
    exact ⟨before, isCall, lead.here, braced⟩

/-- A header that is written is read, and a separator behind it is skipped with it. -/
theorem header_of_headerText {index opened close next : Nat} {allow : Bool} {constructor : Option Text}
    {before inner text name : Text} (opening : Opening constructor before)
    (allowed : allow = true ∨ constructor = none) (lead : Spans source index before opened)
    (spans : Spans source opened ('{' :: inner ++ ['}']) (close + 1))
    (encloses : Bracket.brace.Encloses inner) (named : HeaderText name text)
    (inside : Spans source (opened + 1) text next) (stops : Stops isLoose (source.drop next)) :
    ∃ stop, header source index allow = .ok (some ⟨name, stop, close, constructor⟩) ∧
      skip source stop = .ok next := by
  have braced : Braced (source.drop opened) := ⟨_, spans.here⟩
  obtain ⟨called, calls, constructed, opens⟩ := exists_called_of_opening opening allowed lead braced
  obtain @⟨gap, key, separator, quote, isGap, isKey, isQuote, content, apart⟩ := named
  have whole : Spans source (opened + 1) (gap ++ ((key ++ (quote :: name ++ [quote])) ++ separator))
      next := by simpa using inside
  obtain ⟨gapSpans, back⟩ := whole.split
  obtain ⟨nameSpans, apartSpans⟩ := back.split
  have skipped : skip source (opened + 1) = .ok (opened + 1 + gap.length) := by
    refine skip_eq_ok_of_gap gapSpans isGap ?_
    obtain ⟨tail, rfl, -, -⟩ := isKey.split
    rw [nameSpans.here]
    exact (stops_cons _ _ _).mpr (by decide)
  obtain ⟨value, nameClose, nameStop, keyed, starts, matchedName, isName⟩ :=
    key?_of_quoted isKey isQuote content nameSpans
  rw [nameStop] at apartSpans
  have matched := (matchBracket_brace_iff braced).mpr ⟨inner, spans, encloses⟩
  obtain ⟨afterName, skippedName, skippedStop⟩ := separates_of_separator apart apartSpans stops
  refine ⟨behindComma source afterName, ?_, skippedStop⟩
  have openedIndex : indexOf source (source.drop opened) = opened := by
    apply indexOf_drop
    rw [spans.here]
    simp
  simp only [header, calls, opens, openedIndex, constructed, startsWith_brace_iff.mpr braced,
    Bool.not_true, Bool.false_eq_true, if_false, exceptBind_eq_ok_iff]
  refine ⟨_, skipped, ?_⟩
  simp only [keyed, starts, isQuote, Option.any_some, Bool.not_true, Bool.false_eq_true, if_false,
    exceptBind_eq_ok_iff]
  refine ⟨_, matchedName, _, skippedName, _, matched, ?_⟩
  rw [isName]
  rfl

/-! ## Marks -/

/-- A separator is skipped exactly where one separates. -/
theorem skipSeparator_eq_ok_iff {done : Unit} :
    (do skipGap source; skipComma source; skipGap source : SuiteReader Unit) cursor =
        .ok done cursor' ↔
      Separates source cursor.index cursor'.index ∧ cursor.log = cursor'.log := by
  simp only [bind_eq_ok_iff, skipGap_eq_ok_iff, skipComma_eq_ok_iff, Separates]
  constructor
  · rintro ⟨_, _, ⟨between, first, rfl⟩, _, _, rfl, next, second, rfl⟩
    exact ⟨⟨between, first, second⟩, rfl⟩
  · rintro ⟨⟨between, first, second⟩, sameLog⟩
    exact ⟨(), _, ⟨between, first, rfl⟩, (), _, rfl, cursor'.index, second, by rw [sameLog]⟩

/-- A mark is seen exactly where its key stands behind a gap. -/
theorem hasTtype_eq_ok_iff {index : Nat} {marked : Bool} :
    hasTtype source index = .ok marked ↔
      ∃ next, skip source index = .ok next ∧
        (key? "ttype".toList (source.drop next)).isSome = marked := by
  simp only [hasTtype, exceptBind_eq_ok_iff, exceptPure_eq_ok_iff]

/-- More text stands behind an earlier index if some does behind a later one. -/
theorem ne_nil_of_le {index next : Nat} (le : index ≤ next) (more : source.drop next ≠ []) :
    source.drop index ≠ [] := by
  intro ended
  apply more
  rw [List.drop_eq_nil_iff] at ended ⊢
  exact Nat.le_trans ended le

/-- Moving over a separator moves over nothing else. -/
theorem exists_separator_of_skipSeparator {done : Unit}
    (ran : (do skipGap source; skipComma source; skipGap source : SuiteReader Unit) cursor =
      .ok done cursor') (more : source.drop cursor'.index ≠ []) :
    skip source cursor'.index = .ok cursor'.index ∧ cursor.log = cursor'.log ∧
      ∃ separator, Spans source cursor.index separator cursor'.index ∧ Separator separator := by
  obtain ⟨separates, sameLog⟩ := skipSeparator_eq_ok_iff.mp ran
  obtain ⟨between, -, last⟩ := id separates
  exact ⟨skip_eq_ok_self last, sameLog, exists_separator_of_separates separates more⟩

/-- A dotted value behind the key of a mark, and the separator behind it, make up a mark. -/
theorem exists_markText_of_dotted {start next : Nat} {text : Text}
    (keyed : key? "ttype".toList (source.drop start) = some text)
    (dotted : text.head?.any isDotted = true)
    (separates : Separates source (indexOf source (text.dropWhile isDotted)) next)
    (more : source.drop next ≠ []) :
    ∃ mark, Spans source start mark next ∧ MarkText (source.drop next) mark := by
  obtain ⟨key, isKey, here, -⟩ := key?_eq_some_iff.mp keyed
  have whole : source.drop start = (key ++ text.takeWhile isDotted) ++ text.dropWhile isDotted := by
    rw [here, List.append_assoc, List.takeWhile_append_dropWhile]
  have nonempty : text.dropWhile isDotted ≠ [] := by
    intro ended
    apply more
    rw [ended] at separates
    rw [List.drop_eq_nil_iff]
    exact le_of_separates separates
  rw [indexOf_of_drop whole (List.append_ne_nil_of_right_ne_nil _ nonempty)] at separates
  have lead : Spans source start (key ++ text.takeWhile isDotted) _ := .of_drop whole rfl
  obtain ⟨separator, apartSpans, apart⟩ := exists_separator_of_separates separates more
  have stops : Stops isDotted (separator ++ source.drop next) := by
    rw [← apartSpans.here, lead.drop_stop whole]
    exact stops_dropWhile isDotted text
  have value : text.takeWhile isDotted ≠ [] := by
    obtain ⟨c, starts, isPart⟩ := (Option.any_eq_true _ _).mp dotted
    obtain ⟨tail, rfl⟩ := List.head?_eq_some_iff.mp starts
    simp [isPart]
  exact ⟨_, lead.append apartSpans, .bare isKey value (List.all_eq_true.mp List.all_takeWhile) apart
    stops⟩

/-- Moving over the mark of a suite moves over nothing else. -/
theorem exists_markText_of_skipTtype (ran : skipTtype source cursor = .ok () cursor')
    (more : source.drop cursor'.index ≠ []) :
    ∃ start, skip source cursor.index = .ok start ∧
      skip source cursor'.index = .ok cursor'.index ∧ cursor.log = cursor'.log ∧
      (key? "ttype".toList (source.drop start) = none ∧ cursor'.index = start ∨
        ∃ mark, Spans source start mark cursor'.index ∧ MarkText (source.drop cursor'.index) mark) := by
  simp only [skipTtype, bind_eq_ok_iff, skipGap_eq_ok_iff, rest_eq_ok_iff] at ran
  obtain ⟨_, _, ⟨start, skipped, rfl⟩, _, _, ⟨rfl, rfl⟩, ran⟩ := ran
  refine ⟨start, skipped, ?_⟩
  cases keyed : key? "ttype".toList (source.drop start) with
  | none =>
    simp only [keyed, pure_eq_ok_iff] at ran
    obtain ⟨-, rfl⟩ := ran
    exact ⟨skip_eq_ok_self skipped, rfl, .inl ⟨rfl, rfl⟩⟩
  | some text =>
    simp only [keyed] at ran
    by_cases quoted : text.head?.any Mode.isQuote = true
    · rw [if_pos quoted, bind_eq_ok_iff] at ran
      obtain ⟨close, _, scanned, ran⟩ := ran
      obtain ⟨matched, rfl⟩ := ofExcept_eq_ok_iff.mp scanned
      rw [bind_eq_ok_iff] at ran
      obtain ⟨_, _, moved, ran⟩ := ran
      obtain rfl := moveTo_eq_ok_iff.mp moved
      obtain ⟨last, sameLog, separator, apartSpans, apart⟩ :=
        exists_separator_of_skipSeparator ran more
      obtain ⟨key, quote, content, isKey, isQuote, holds, spans, -⟩ :=
        exists_quoted_of_key? keyed quoted matched
      refine ⟨last, sameLog, .inr ⟨_, spans.append apartSpans, ?_⟩⟩
      simpa using MarkText.quoted isKey isQuote holds apart
    · rw [if_neg quoted] at ran
      by_cases dotted : text.head?.any isDotted = true
      · rw [if_pos dotted, bind_eq_ok_iff] at ran
        obtain ⟨_, _, moved, ran⟩ := ran
        obtain rfl := moveTo_eq_ok_iff.mp moved
        obtain ⟨last, sameLog, -⟩ := exists_separator_of_skipSeparator ran more
        exact ⟨last, sameLog, .inr <|
          exists_markText_of_dotted keyed dotted (skipSeparator_eq_ok_iff.mp ran).1 more⟩
      · rw [if_neg dotted, bind_eq_ok_iff] at ran
        obtain ⟨_, _, misplaced, -⟩ := ran
        exact absurd misplaced misplacedAt_ne_ok

/-- A mark that is written is moved over. -/
theorem skipTtype_of_markText {start next : Nat} {mark : Text}
    (skipped : skip source cursor.index = .ok start) (spans : Spans source start mark next)
    (written : MarkText (source.drop next) mark) (stops : Stops isLoose (source.drop next))
    (more : source.drop next ≠ []) :
    skipTtype source cursor = .ok () { cursor with index := next } := by
  simp only [skipTtype, bind_eq_ok_iff, skipGap_eq_ok_iff, rest_eq_ok_iff]
  refine ⟨(), _, ⟨start, skipped, rfl⟩, _, _, ⟨rfl, rfl⟩, ?_⟩
  cases written with
  | @quoted key value separator quote isKey isQuote content apart =>
    have whole : Spans source start ((key ++ (quote :: value ++ [quote])) ++ separator) next := by
      simpa using spans
    obtain ⟨valueSpans, apartSpans⟩ := whole.split
    obtain ⟨text, close, valueStop, keyed, starts, matched, -⟩ :=
      key?_of_quoted isKey isQuote content valueSpans
    rw [valueStop] at apartSpans
    simp only [keyed, starts, Option.any_some, isQuote, if_true]
    refine bind_eq_ok_iff.mpr ⟨close, _, ofExcept_eq_ok_iff.mpr ⟨matched, rfl⟩, ?_⟩
    refine bind_eq_ok_iff.mpr ⟨(), _, moveTo_eq_ok_iff.mpr rfl, ?_⟩
    exact skipSeparator_eq_ok_iff.mpr ⟨separates_of_separator apart apartSpans stops, rfl⟩
  | @bare key value separator isKey nonempty dotted apart ends =>
    have whole : Spans source start (key ++ (value ++ separator)) next := by simpa using spans
    obtain ⟨keySpans, back⟩ := whole.split
    obtain ⟨valueSpans, apartSpans⟩ := back.split
    rw [← apartSpans.here] at ends
    obtain ⟨c, tail, rfl⟩ := List.exists_cons_of_ne_nil nonempty
    have isPart : isDotted c = true := dotted c List.mem_cons_self
    have solid := isBlank_of_isDotted isPart
    have unquoted : Mode.isQuote c = false := by
      rw [Bool.eq_false_iff]
      intro quote
      rcases Mode.isQuote_iff.mp quote with rfl | rfl <;> exact absurd isPart (by decide)
    have keyed := key?_eq_some_iff.mpr ⟨key, isKey, keySpans.here, by
      rw [valueSpans.here]
      exact (stops_cons _ _ _).mpr solid⟩
    have starts : (source.drop (start + key.length)).head? = some c := by
      rw [valueSpans.here]
      rfl
    have dropped : (source.drop (start + key.length)).dropWhile isDotted =
        source.drop (start + key.length + (c :: tail).length) := by
      rw [valueSpans.here, dropWhile_append_of_stops dotted ends]
    simp only [keyed, starts, Option.any_some, unquoted, isPart, if_true, dropped,
      indexOf_drop (ne_nil_of_le apartSpans.start_le more), Bool.false_eq_true, if_false]
    refine bind_eq_ok_iff.mpr ⟨(), _, moveTo_eq_ok_iff.mpr rfl, ?_⟩
    exact skipSeparator_eq_ok_iff.mpr ⟨separates_of_separator apart apartSpans stops, rfl⟩

/-- Where there is no mark, only a gap is skipped. -/
theorem skipTtype_of_unmarked {start : Nat} (skipped : skip source cursor.index = .ok start)
    (unmarked : key? "ttype".toList (source.drop start) = none) :
    skipTtype source cursor = .ok () { cursor with index := start } := by
  simp only [skipTtype, bind_eq_ok_iff, skipGap_eq_ok_iff, rest_eq_ok_iff]
  refine ⟨(), _, ⟨start, skipped, rfl⟩, _, _, ⟨rfl, rfl⟩, ?_⟩
  simp only [unmarked]
  rfl

/-! ## Ends -/

/-- A container is closed exactly at its own brace, and a constructor's call behind it. -/
theorem closeContainer_eq_ok_iff {head : Header} {done : Unit} :
    closeContainer source head cursor = .ok done cursor' ↔
      skip source cursor.index = .ok head.close ∧
        (∃ behind, Closing head.constructorName behind ∧
          Spans source (head.close + 1) behind cursor'.index) ∧ cursor.log = cursor'.log := by
  obtain ⟨name, stop, close, constructor⟩ := head
  simp only [closeContainer, bind_eq_ok_iff, skipGap_eq_ok_iff, position_eq_ok_iff]
  constructor
  · rintro ⟨_, _, ⟨index, skipped, rfl⟩, _, _, ⟨rfl, rfl⟩, ran⟩
    -- What is found behind the members must be the brace that the header was matched with.
    by_cases closes : index = close
    · subst closes
      simp only [ne_eq, not_true_eq_false, if_false, bind_eq_ok_iff, moveTo_eq_ok_iff] at ran
      obtain ⟨_, _, rfl, ran⟩ := ran
      refine ⟨skipped, ?_⟩
      cases constructor with
      | none =>
        obtain ⟨-, rfl⟩ := pure_eq_ok_iff.mp ran
        exact ⟨⟨[], .none, .refl source _⟩, rfl⟩
      | some name =>
        simp only [bind_eq_ok_iff, skipGap_eq_ok_iff, rest_eq_ok_iff] at ran
        obtain ⟨_, _, ⟨index, skipped, rfl⟩, _, _, ⟨rfl, rfl⟩, ran⟩ := ran
        by_cases paren : startsWith [')'] (source.drop index) = true
        · simp only [paren, Bool.not_true, Bool.false_eq_true, if_false, bind_eq_ok_iff,
            position_eq_ok_iff, moveTo_eq_ok_iff] at ran
          obtain ⟨_, _, ⟨rfl, rfl⟩, rfl⟩ := ran
          obtain ⟨more, here⟩ := startsWith_singleton_iff.mp paren
          obtain ⟨gap, spans, closed⟩ := exists_gap_of_skip skipped
          have single : Spans source index [')'] (index + 1) := .of_drop here rfl
          exact ⟨⟨_, .some (closed (by simp [here])), spans.append single⟩, rfl⟩
        · simp [paren] at ran
    · simp [closes] at ran
  · rintro ⟨skipped, ⟨behind, closing, spans⟩, sameLog⟩
    refine ⟨(), _, ⟨close, skipped, rfl⟩, close, _, ⟨rfl, rfl⟩, ?_⟩
    simp only [ne_eq, not_true_eq_false, if_false, bind_eq_ok_iff, moveTo_eq_ok_iff]
    refine ⟨(), _, rfl, ?_⟩
    cases closing with
    | none =>
      refine pure_eq_ok_iff.mpr ⟨rfl, ?_⟩
      rw [sameLog, ← show cursor'.index = close + 1 by simpa using spans.width]
    | @some name gap isGap =>
      obtain ⟨gapSpans, single⟩ := spans.split
      have paren : startsWith [')'] (source.drop (close + 1 + gap.length)) = true := by
        rw [single.here]
        exact startsWith_singleton_iff.mpr ⟨_, rfl⟩
      have skippedGap : skip source (close + 1) = .ok (close + 1 + gap.length) := by
        refine skip_eq_ok_of_gap gapSpans isGap ?_
        rw [single.here]
        exact (stops_cons _ _ _).mpr (by decide)
      simp only [bind_eq_ok_iff, skipGap_eq_ok_iff, rest_eq_ok_iff]
      refine ⟨(), _, ⟨_, skippedGap, rfl⟩, _, _, ⟨rfl, rfl⟩, ?_⟩
      simp only [paren, Bool.not_true, Bool.false_eq_true, if_false, bind_eq_ok_iff,
        position_eq_ok_iff, moveTo_eq_ok_iff]
      refine ⟨_, _, ⟨rfl, rfl⟩, ?_⟩
      rw [sameLog, ← show cursor'.index = close + 1 + gap.length + 1 by simpa using single.width]

/-! ## Test cases -/

/-- The pieces of a test case are put together inside its braces. -/
theorem caseText_of_pieces {opened between start close : Nat} {name inner header mark text : Text}
    {marked : Bool} {found : List Member}
    (spans : Spans source opened ('{' :: inner ++ ['}']) (close + 1))
    (encloses : Bracket.brace.Encloses inner) (named : HeaderText name header)
    (headerSpans : Spans source (opened + 1) header between)
    (marking : MaybeMarked text marked mark) (markSpans : Spans source between mark start)
    (written : MembersText .accepted (lineAt source start) text found)
    (textSpans : Spans source start text close)
    (unmarked : marked = false → ¬ found.head?.any Member.marks = true) :
    CaseText .accepted (lineAt source opened) name marked ('{' :: inner ++ ['}']) found := by
  obtain ⟨brace, inside, -⟩ := spans.inside
  have lead := headerSpans.append markSpans
  have line : lineAt source start = lineAt source opened + (header ++ mark).count '\n' := by
    simpa using (brace.append lead).lineAt_eq
  obtain rfl : inner = header ++ mark ++ text := inside.unique (lead.append textSpans)
  rw [line] at written
  simpa using CaseText.intro named marking written unmarked encloses

/-- The members and the end of a test case stand in the text as they are read. -/
theorem exists_membersText_of_testCaseBody {head : Header} {constructorName : Option Text}
    {testCase : TestCase} (ran : testCaseBody source head constructorName cursor = .ok testCase cursor')
    (more : source.drop head.close ≠ []) :
    ∃ start text found behind, skip source cursor.index = .ok start ∧
      Spans source start text head.close ∧
      MembersText .accepted (lineAt source start) text found ∧
      Closing head.constructorName behind ∧ Spans source (head.close + 1) behind cursor'.index ∧
      testCase.Comprises found ∧ testCase.name = head.name ∧
      testCase.constructorName = constructorName := by
  simp only [testCaseBody, bind_eq_ok_iff, pure_eq_ok_iff] at ran
  obtain ⟨_, between, ran, _, _, closed, rfl, rfl⟩ := ran
  obtain ⟨skippedEnd, ⟨behind, closing, closingSpans⟩, -⟩ := closeContainer_eq_ok_iff.mp closed
  have before := le_of_skip skippedEnd
  obtain ⟨start, text, found, skipped, spans, written, ended, comprises, name, constructed, -⟩ :=
    exists_membersText_of_members ran (ne_nil_of_le before more)
  rw [Nat.le_antisymm before ended] at spans
  exact ⟨start, text, found, behind, skipped, spans, written, closing, closingSpans,
    comprises (TestCase.comprises_nil _ _), name, constructed⟩

/-- What reading a test case does: it goes back, or it finds the header of one without a mark and
reads what follows. -/
theorem testCase_cases {outcome : Option TestCase}
    (ran : SuiteReader.testCase source cursor = .ok outcome cursor') :
    outcome = none ∧ cursor' = cursor ∨
      ∃ start head testCase between, outcome = some testCase ∧ skip source cursor.index = .ok start ∧
        header source start true = .ok (some head) ∧
        ¬ head.constructorName.any suiteClasses.contains = true ∧
        hasTtype source head.stop = .ok false ∧
        testCaseBody source head (head.constructorName.filter fun name => !caseClasses.contains name)
          ⟨head.stop, cursor.log⟩ = .ok testCase between ∧ cursor'.index = between.index := by
  simp only [SuiteReader.testCase, bind_eq_ok_iff, position_eq_ok_iff, skipGap_eq_ok_iff] at ran
  obtain ⟨_, _, ⟨rfl, rfl⟩, _, _, ⟨start, skipped, rfl⟩, _, _, ⟨rfl, rfl⟩, found, _, scanned, ran⟩ := ran
  obtain ⟨headed, rfl⟩ := ofExcept_eq_ok_iff.mp scanned
  cases found with
  | none =>
    simp only [bind_eq_ok_iff, moveTo_eq_ok_iff, pure_eq_ok_iff] at ran
    obtain ⟨_, _, rfl, rfl, rfl⟩ := ran
    exact .inl ⟨rfl, rfl⟩
  | some head =>
    by_cases suiteClass : head.constructorName.any suiteClasses.contains = true
    · simp only [suiteClass, if_true, bind_eq_ok_iff, moveTo_eq_ok_iff, pure_eq_ok_iff] at ran
      obtain ⟨_, _, rfl, rfl, rfl⟩ := ran
      exact .inl ⟨rfl, rfl⟩
    · have noSuite := Bool.eq_false_iff.mpr suiteClass
      simp only [noSuite, Bool.false_eq_true, if_false, bind_eq_ok_iff, ofExcept_eq_ok_iff] at ran
      obtain ⟨marked, _, ⟨mark, rfl⟩, ran⟩ := ran
      cases marked with
      | true =>
        simp only [if_true, bind_eq_ok_iff, moveTo_eq_ok_iff, pure_eq_ok_iff] at ran
        obtain ⟨_, _, rfl, rfl, rfl⟩ := ran
        exact .inl ⟨rfl, rfl⟩
      | false =>
        simp only [Bool.false_eq_true, if_false, bind_eq_ok_iff, moveTo_eq_ok_iff, note_eq_ok_iff,
          pure_eq_ok_iff] at ran
        obtain ⟨_, _, rfl, found, between, ran, _, _, rfl, rfl, rfl⟩ := ran
        exact .inr ⟨start, head, found, between, rfl, skipped, headed, suiteClass, mark, ran, rfl⟩

/-- Where no test case is found, the cursor goes back. -/
theorem testCase_eq_none (ran : SuiteReader.testCase source cursor = .ok none cursor') :
    cursor' = cursor := by
  obtain ⟨-, same⟩ | ⟨_, _, _, _, found, -⟩ := testCase_cases ran
  · exact same
  · cases found

/-- A test case that is read is written. -/
theorem exists_caseText_of_testCase {testCase : TestCase}
    (ran : SuiteReader.testCase source cursor = .ok (some testCase) cursor') :
    ∃ start constructor before text behind found, skip source cursor.index = .ok start ∧
      Spans source start (before ++ text ++ behind) cursor'.index ∧ Opening constructor before ∧
      Closing constructor behind ∧ ¬ constructor.any suiteClasses.contains = true ∧
      CaseText .accepted (lineAt source start + before.count '\n') testCase.name false text found ∧
      testCase.Comprises found ∧
      testCase.constructorName = constructor.filter fun name => !caseClasses.contains name := by
  obtain ⟨absent, -⟩ | ⟨start, head, _, between, ⟨⟩, skipped, headed, noSuite, mark, ran, stops⟩ :=
    testCase_cases ran
  · cases absent
  obtain ⟨before, inner, opening, -, spans, encloses, named⟩ := exists_headerText_of_header headed
  obtain ⟨lead, braces⟩ := spans.split
  obtain ⟨-, -, brace⟩ := braces.inside
  have more : source.drop head.close ≠ [] := by simp [brace]
  obtain ⟨begin, text, members, behind, skippedBegin, textSpans, written, closing, closingSpans,
    comprises, name, constructed⟩ := exists_membersText_of_testCaseBody ran more
  obtain ⟨header, isHeader, headerSpans⟩ := named skippedBegin (ne_nil_of_le textSpans.start_le more)
  rw [← stops] at closingSpans
  refine ⟨start, _, before, _, behind, members, skipped, (lead.append braces).append closingSpans,
    opening, closing, noSuite, ?_, comprises, constructed⟩
  rw [← lead.lineAt_eq, name]
  refine caseText_of_pieces braces encloses isHeader headerSpans .none (.refl source _) written
    textSpans ?_
  obtain ⟨next, skippedNext, unmarked⟩ := hasTtype_eq_ok_iff.mp mark
  obtain rfl := Except.ok.inj (skippedBegin.symm.trans skippedNext)
  rw [textSpans.here, brace, written.isSome_key?_ttype] at unmarked
  simp [unmarked]

/-- The members and the end of a test case are read as they are written. -/
theorem testCaseBody_of_membersText {head : Header} {constructorName : Option Text} {start next : Nat}
    {testCase : TestCase} {text behind : Text} {found : List Member}
    (skipped : skip source cursor.index = .ok start) (spans : Spans source start text head.close)
    (written : MembersText .accepted (lineAt source start) text found)
    (brace : source.drop head.close = '}' :: source.drop (head.close + 1))
    (closing : Closing head.constructorName behind)
    (closingSpans : Spans source (head.close + 1) behind next) (comprises : testCase.Comprises found)
    (name : testCase.name = head.name) (constructed : testCase.constructorName = constructorName) :
    testCaseBody source head constructorName cursor = .ok testCase { cursor with index := next } := by
  have stops : Stops isLoose (source.drop head.close) := by
    rw [brace]
    exact (stops_cons _ _ _).mpr (by decide)
  have enough : text.length < source.length + 1 := by
    have lengths := congrArg List.length spans.here
    simp only [List.length_append, List.length_drop] at lengths
    omega
  have ran : members source head.close (source.length + 1) { name := head.name, constructorName } cursor =
      .ok testCase { cursor with index := head.close } :=
    members_of_membersText written skipped spans rfl stops enough (TestCase.comprises_nil _ _)
      comprises name.symm constructed.symm
  have closed : closeContainer source head { cursor with index := head.close } =
      .ok () { cursor with index := next } := by
    refine closeContainer_eq_ok_iff.mpr ⟨skip_of_stops ?_, ⟨behind, closing, closingSpans⟩, rfl⟩
    exact stops.mono fun c loose => (isLoose_eq_false_iff.mp loose).1
  simp only [testCaseBody, bind_eq_ok_iff, pure_eq_ok_iff]
  exact ⟨_, _, ran, (), _, closed, rfl, rfl⟩

/-- The header of a test case is found where it is written, with its mark and its members behind
it. -/
theorem header_of_caseText {start opened closed : Nat} {allow marked : Bool}
    {constructor : Option Text} {before text name : Text} {found : List Member}
    (opening : Opening constructor before) (allowed : allow = true ∨ constructor = none)
    (lead : Spans source start before opened) (spans : Spans source opened text closed)
    (written : CaseText .accepted (lineAt source opened) name marked text found) :
    ∃ stop close index begin mark rest, closed = close + 1 ∧
      header source start allow = .ok (some ⟨name, stop, close, constructor⟩) ∧
      skip source stop = .ok index ∧ hasTtype source stop = .ok marked ∧
      MaybeMarked (source.drop begin) marked mark ∧ Spans source index mark begin ∧
      Spans source begin rest close ∧ MembersText .accepted (lineAt source begin) rest found ∧
      source.drop close = '}' :: source.drop (close + 1) := by
  obtain @⟨header, mark, rest, _, named, marking, written, unmarked, inside⟩ := written
  have whole : Spans source opened (['{'] ++ ((header ++ mark) ++ (rest ++ ['}']))) closed := by
    simpa using spans
  obtain ⟨brace, back⟩ := whole.split
  obtain ⟨front, back⟩ := back.split
  obtain ⟨restSpans, last⟩ := back.split
  have line := (brace.append front).lineAt_eq
  obtain ⟨headerSpans, markSpans⟩ := front.split
  generalize opened + ['{'].length + (header ++ mark).length = begin at *
  generalize begin + rest.length = close at *
  obtain rfl : closed = close + 1 := last.width
  have isMembers : MembersText .accepted (lineAt source begin) rest found := by
    rw [line]
    simpa using written
  have marks : MaybeMarked (source.drop begin) marked mark := by
    rw [restSpans.here, last.here]
    exact marking.append ((stops_cons _ _ _).mpr (by decide))
  obtain ⟨stops, isMarked⟩ : Stops isLoose (source.drop (opened + ['{'].length + header.length)) ∧
      (key? "ttype".toList (source.drop (opened + ['{'].length + header.length))).isSome = marked := by
    rw [markSpans.here]
    cases marks with
    | none =>
      rw [List.nil_append, restSpans.here, last.here]
      refine ⟨stops_of_membersText isMembers ((stops_cons _ _ _).mpr (by decide)), ?_⟩
      exact (isMembers.isSome_key?_ttype _).trans (Bool.eq_false_iff.mpr (unmarked rfl))
    | some isMark => exact ⟨isMark.stops _, isMark.isSome_key?_ttype⟩
  have braces : Spans source opened ('{' :: (header ++ mark ++ rest) ++ ['}']) (close + 1) := by
    simpa using spans
  obtain ⟨stop, headed, skippedIndex⟩ := header_of_headerText opening allowed lead braces inside named
    headerSpans stops
  exact ⟨stop, close, _, begin, mark, rest, rfl, headed, skippedIndex,
    hasTtype_eq_ok_iff.mpr ⟨_, skippedIndex, isMarked⟩, marks, markSpans, restSpans, isMembers, last.here⟩

/-- A test case that is written is read. -/
theorem testCase_of_caseText {start opened closed next : Nat} {constructor : Option Text}
    {before text behind : Text} {found : List Member} {testCase : TestCase}
    (skipped : skip source cursor.index = .ok start) (opening : Opening constructor before)
    (closing : Closing constructor behind) (lead : Spans source start before opened)
    (spans : Spans source opened text closed) (closingSpans : Spans source closed behind next)
    (noSuite : ¬ constructor.any suiteClasses.contains = true)
    (written : CaseText .accepted (lineAt source opened) testCase.name false text found)
    (comprises : testCase.Comprises found)
    (constructed : testCase.constructorName =
      constructor.filter fun name => !caseClasses.contains name) :
    ∃ log, SuiteReader.testCase source cursor = .ok (some testCase) ⟨next, log⟩ := by
  obtain ⟨stop, close, index, begin, mark, rest, rfl, headed, skippedIndex, unmarked, marking,
    markSpans, restSpans, isMembers, brace⟩ := header_of_caseText opening
      (show true = true ∨ constructor = none from .inl rfl) lead spans written
  cases marking with
  | none =>
  obtain rfl : begin = index := by simpa using markSpans.width
  have ran : testCaseBody source ⟨testCase.name, stop, close, constructor⟩
      (constructor.filter fun name => !caseClasses.contains name) ⟨stop, cursor.log⟩ =
        .ok testCase ⟨next, cursor.log⟩ :=
    testCaseBody_of_membersText skippedIndex restSpans isMembers brace closing closingSpans comprises
      rfl constructed
  have plain := Bool.eq_false_iff.mpr noSuite
  apply Exists.intro
  simp only [SuiteReader.testCase, bind_eq_ok_iff, position_eq_ok_iff, skipGap_eq_ok_iff]
  refine ⟨_, _, ⟨rfl, rfl⟩, (), _, ⟨start, skipped, rfl⟩, _, _, ⟨rfl, rfl⟩, _, _,
    ofExcept_eq_ok_iff.mpr ⟨headed, rfl⟩, ?_⟩
  simp only [plain, Bool.false_eq_true, if_false, bind_eq_ok_iff, ofExcept_eq_ok_iff]
  refine ⟨false, _, ⟨unmarked, rfl⟩, ?_⟩
  simp only [Bool.false_eq_true, if_false, bind_eq_ok_iff, moveTo_eq_ok_iff, note_eq_ok_iff]
  exact ⟨(), _, rfl, _, _, ran, (), _, rfl, rfl⟩

end SuiteReader

end JasmineConversion
