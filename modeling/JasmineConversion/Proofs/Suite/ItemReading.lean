import JasmineConversion.Proofs.Suite.Room

/-! # Reading the items of suites

The items of a suite are read one after the other, and each of them may be a suite again. What is
read stands between the brackets of the list without overlap and with nothing but separators in
between, and whatever is written so is read.
-/

namespace JasmineConversion

open Text Source Pattern JasmineConversion.Bracket

namespace SuiteReader

variable {source : Text} {cursor cursor' : Cursor}

/-- A square bracket matches where it encloses a text. -/
theorem matchBracket_square_iff {index close : Nat} {rest : Text}
    (here : source.drop index = '[' :: rest) :
    matchBracket source index = .ok close ↔
      ∃ raw, Spans source index ('[' :: raw ++ [']']) (close + 1) ∧ square.Encloses raw :=
  matchBracket_eq_ok_iff (show _ = some square.opener by rw [here]; rfl)

/-- Items that a reader finds in the room of a list are written there. -/
def FindsItems (source : Text) (children : (name : Text) → (close : Nat) → SuiteReader (List Container)) :
    Prop :=
  ∀ ⦃name close cursor cursor' found⦄, children name close cursor = .ok found cursor' →
    Room source cursor.index close →
    ∃ start text, skip source cursor.index = .ok start ∧ Spans source start text close ∧
      ItemsText .accepted (lineAt source start) text found

/-- What follows the header and the mark of a suite: the list of its items, and its end. -/
theorem exists_list_of_suiteItems
    {children : (name : Text) → (close : Nat) → SuiteReader (List Container)} {head : Header}
    {found : List Container} (ran : suiteItems source children head cursor = .ok found cursor')
    (more : source.drop head.close ≠ []) :
    ∃ start, skip source cursor.index = .ok start ∧ start ≤ head.close ∧
      (∃ behind, Closing head.constructorName behind ∧
        Spans source (head.close + 1) behind cursor'.index) ∧
      (items? (source.drop start) = none ∧ found = [] ∧ start = head.close ∨
        ∃ key raw separator opened close log between, Key "items".toList key ∧
          Spans source start key opened ∧ Spans source opened ('[' :: raw ++ [']']) (close + 1) ∧
          square.Encloses raw ∧ Separator separator ∧ Spans source (close + 1) separator head.close ∧
          children head.name close ⟨opened + 1, log⟩ = .ok found between) := by
  simp only [suiteItems, bind_eq_ok_iff, skipGap_eq_ok_iff, rest_eq_ok_iff] at ran
  obtain ⟨_, _, ⟨start, skipped, rfl⟩, _, _, ⟨rfl, rfl⟩, ran⟩ := ran
  refine ⟨start, skipped, ?_⟩
  cases list : items? (source.drop start) with
  | none =>
    simp only [list, bind_eq_ok_iff, closeContainer_eq_ok_iff, pure_eq_ok_iff] at ran
    obtain ⟨_, _, ⟨closed, closing, -⟩, rfl, rfl⟩ := ran
    have ended := Except.ok.inj ((skip_eq_ok_self skipped).symm.trans closed)
    exact ⟨Nat.le_of_eq ended, closing, .inl ⟨rfl, rfl, ended⟩⟩
  | some text =>
    obtain ⟨key, isKey, here⟩ := items?_eq_some_iff.mp list
    have keySpans : Spans source start key (start + key.length) := .of_drop here rfl
    have bracket := keySpans.drop_stop here
    have opened : indexOf source text - 1 = start + key.length := by
      have whole : source.drop start = (key ++ ['[']) ++ text := by simpa using here
      rw [indexOf_of_drop whole (by simp), List.length_append]
      rfl
    simp only [list, opened, bind_eq_ok_iff, ofExcept_eq_ok_iff, moveTo_eq_ok_iff,
      matchBracket_square_iff bracket] at ran
    obtain ⟨close, _, ⟨⟨raw, spans, encloses⟩, rfl⟩, _, _, rfl, _, between, children, _, _, rfl, ran⟩ := ran
    simp only [skipGap_eq_ok_iff, skipComma_eq_ok_iff, closeContainer_eq_ok_iff, pure_eq_ok_iff] at ran
    obtain ⟨_, _, ⟨index, first, rfl⟩, _, _, rfl, _, _, ⟨closed, closing, -⟩, rfl, rfl⟩ := ran
    obtain ⟨separator, apartSpans, apart⟩ := exists_separator_of_separates ⟨index, first, closed⟩ more
    exact ⟨(keySpans.append (spans.append apartSpans)).start_le, closing, .inr ⟨key, raw, separator, _,
      close, _, between, isKey, keySpans, spans, encloses, apart, apartSpans, children⟩⟩

/-- The braces in a list are closed in it, because those around it are closed behind it. -/
theorem brace_encloses_list {before raw separator : Text} (passes : brace.Passes before)
    (apart : Separator separator) (list : square.Encloses raw)
    (encloses : brace.Encloses (before ++ '[' :: raw ++ ']' :: separator)) : brace.Encloses raw := by
  have lead : brace.Passes (before ++ ['[']) := passes.append (passes_singleton (by decide))
  have split : before ++ '[' :: raw ++ ']' :: separator =
      (before ++ ['[']) ++ (raw ++ ([']'] ++ separator)) := by simp
  rw [Encloses, split, scan_append, lead, Option.bind_some, scan_append,
    Option.bind_eq_some_iff] at encloses
  obtain ⟨⟨mode, depth⟩, run, rest⟩ := encloses
  obtain rfl : mode = .code := (mode_of_scan run).trans (mode_of_scan list).symm
  have behind : brace.Passes ([']'] ++ separator) := (passes_singleton (by decide)).append apart.passes
  rw [behind, Option.some.injEq, Prod.mk.injEq] at rest
  rw [Encloses, run, rest.2]

/-- The pieces of a suite are put together inside its braces. -/
theorem exists_frame_of_list {children : (name : Text) → (close : Nat) → SuiteReader (List Container)}
    {opened between start index close stop : Nat} {name inner header mark key raw separator : Text}
    {marked : Bool} {log : List LogRecord} {last : Cursor} {found : List Container}
    (finds : FindsItems source children)
    (braces : Spans source opened ('{' :: inner ++ ['}']) (stop + 1))
    (encloses : brace.Encloses inner) (named : HeaderText name header)
    (headerSpans : Spans source (opened + 1) header between)
    (marking : MaybeMarked (source.drop start) marked mark) (markSpans : Spans source between mark start)
    (isKey : Key "items".toList key) (keySpans : Spans source start key index)
    (list : Spans source index ('[' :: raw ++ [']']) (close + 1)) (listed : square.Encloses raw)
    (apart : Separator separator) (apartSpans : Spans source (close + 1) separator stop)
    (ran : children name close ⟨index + 1, log⟩ = .ok found last) :
    ∃ front items back, SuiteFrame .accepted name marked items front back ∧
      '{' :: inner ++ ['}'] = front ++ items ++ back ∧
      ItemsText .accepted (lineAt source opened + front.count '\n') items found := by
  obtain ⟨brace, insideBraces, -⟩ := braces.inside
  obtain ⟨bracket, insideList, closes⟩ := list.inside
  have lead := headerSpans.append (markSpans.append keySpans)
  have whole : inner = header ++ mark ++ key ++ '[' :: raw ++ ']' :: separator := by
    simpa using insideBraces.unique (lead.append (list.append apartSpans))
  have passes : Bracket.brace.Passes (header ++ mark ++ key) :=
    (named.passes.append marking.passes).append (isKey.passes_of_parts (by decide))
  have room : Room source (index + 1) close :=
    ⟨⟨_, closes⟩, raw, insideList, brace_encloses_list passes apart listed (whole ▸ encloses)⟩
  obtain ⟨begin, items, skipped, itemsSpans, written⟩ := finds ran room
  obtain ⟨gap, gapSpans, closed⟩ := exists_gap_of_skip skipped
  have isGap : Gap gap := closed (room.skip skipped).more
  obtain rfl : raw = gap ++ items := insideList.unique (gapSpans.append itemsSpans)
  have line : lineAt source begin =
      lineAt source opened + ('{' :: header ++ mark ++ key ++ '[' :: gap).count '\n' := by
    simpa using (brace.append (lead.append (bracket.append gapSpans))).lineAt_eq
  refine ⟨_, items, _, .intro named isKey isGap apart ?_ listed ?_, ?_, line ▸ written⟩
  · have behind := (keySpans.append (list.append apartSpans)).here
    rw [behind] at marking
    simpa using marking.of_append
  · simpa [whole, Dialect.accepted] using encloses
  · simp [whole]

/-- What a suite is written as, in its braces: around a list of items, or without one. -/
inductive SuiteText (line : Nat) (name : Text) : Text → List Container → Prop
  | listed {front items back : Text} {found : List Container}
      (frame : SuiteFrame .accepted name true items front back)
      (written : ItemsText .accepted (line + front.count '\n') items found) :
      SuiteText line name (front ++ items ++ back) found
  | bare {header mark : Text} (named : HeaderText name header) (marking : MarkText [] mark)
      (inside : brace.Encloses (header ++ mark)) :
      SuiteText line name ('{' :: header ++ mark ++ ['}']) []

/-- What reading a nested suite does: it goes back, or it finds the header of one with a mark and
reads what follows. -/
theorem suiteWith_cases {children : (name : Text) → (close : Nat) → SuiteReader (List Container)}
    {outcome : Option Container} (ran : suiteWith source children cursor = .ok outcome cursor') :
    outcome = none ∧ cursor' = cursor ∨
      ∃ start head marked found between, outcome = some (.suite head.name found) ∧
        skip source cursor.index = .ok start ∧ header source start true = .ok (some head) ∧
        ¬ (head.constructorName.any fun name => !suiteClasses.contains name) = true ∧
        hasTtype source head.stop = .ok true ∧
        skipTtype source ⟨head.stop, cursor.log⟩ = .ok () marked ∧
        suiteItems source children head marked = .ok found between ∧
        cursor'.index = between.index := by
  simp only [suiteWith, bind_eq_ok_iff, position_eq_ok_iff, skipGap_eq_ok_iff] at ran
  obtain ⟨_, _, ⟨rfl, rfl⟩, _, _, ⟨start, skipped, rfl⟩, _, _, ⟨rfl, rfl⟩, found, _, scanned, ran⟩ := ran
  obtain ⟨headed, rfl⟩ := ofExcept_eq_ok_iff.mp scanned
  cases found with
  | none =>
    simp only [bind_eq_ok_iff, moveTo_eq_ok_iff, pure_eq_ok_iff] at ran
    obtain ⟨_, _, rfl, rfl, rfl⟩ := ran
    exact .inl ⟨rfl, rfl⟩
  | some head =>
    by_cases other : (head.constructorName.any fun name => !suiteClasses.contains name) = true
    · simp only [other, if_true, bind_eq_ok_iff, moveTo_eq_ok_iff, pure_eq_ok_iff] at ran
      obtain ⟨_, _, rfl, rfl, rfl⟩ := ran
      exact .inl ⟨rfl, rfl⟩
    · have ofSuite := Bool.eq_false_iff.mpr other
      simp only [ofSuite, Bool.false_eq_true, if_false, bind_eq_ok_iff, ofExcept_eq_ok_iff] at ran
      obtain ⟨isMarked, _, ⟨mark, rfl⟩, ran⟩ := ran
      cases isMarked with
      | false =>
        simp only [Bool.not_false, if_true, bind_eq_ok_iff, moveTo_eq_ok_iff, pure_eq_ok_iff] at ran
        obtain ⟨_, _, rfl, rfl, rfl⟩ := ran
        exact .inl ⟨rfl, rfl⟩
      | true =>
        simp only [Bool.not_true, Bool.false_eq_true, if_false, bind_eq_ok_iff, moveTo_eq_ok_iff,
          note_eq_ok_iff, pure_eq_ok_iff] at ran
        obtain ⟨_, _, rfl, _, marked, skippedMark, found, between, ran, _, _, rfl, rfl, rfl⟩ := ran
        exact .inr ⟨start, head, marked, found, between, rfl, skipped, headed, other, mark,
          skippedMark, ran, rfl⟩

/-- Where no nested suite is found, the cursor goes back. -/
theorem suiteWith_eq_none {children : (name : Text) → (close : Nat) → SuiteReader (List Container)}
    (ran : suiteWith source children cursor = .ok none cursor') : cursor' = cursor := by
  obtain ⟨-, same⟩ | ⟨_, _, _, _, _, found, -⟩ := suiteWith_cases ran
  · exact same
  · cases found

/-- A nested suite that is read is written. -/
theorem exists_suiteText_of_suiteWith
    {children : (name : Text) → (close : Nat) → SuiteReader (List Container)}
    (finds : FindsItems source children) {tree : Container}
    (ran : suiteWith source children cursor = .ok (some tree) cursor') :
    ∃ start constructor before inner behind name found, skip source cursor.index = .ok start ∧
      Spans source start (before ++ ('{' :: inner ++ ['}']) ++ behind) cursor'.index ∧
      Opening constructor before ∧ Closing constructor behind ∧
      ¬ (constructor.any fun name => !suiteClasses.contains name) = true ∧
      brace.Encloses inner ∧ tree = .suite name found ∧
      SuiteText (lineAt source start + before.count '\n') name ('{' :: inner ++ ['}']) found := by
  obtain ⟨absent, -⟩ | ⟨start, head, marked, found, between, ⟨⟩, skipped, headed, ofSuite, mark,
    skippedMark, ran, ends⟩ := suiteWith_cases ran
  · cases absent
  obtain ⟨before, inner, opening, -, spans, encloses, named⟩ := exists_headerText_of_header headed
  obtain ⟨lead, braces⟩ := spans.split
  obtain ⟨-, -, brace⟩ := braces.inside
  have more : source.drop head.close ≠ [] := by simp [brace]
  obtain ⟨begin, skippedBegin, inside, ⟨behind, closing, closingSpans⟩, list⟩ :=
    exists_list_of_suiteItems ran more
  rw [← ends] at closingSpans
  have moreBegin := ne_nil_of_le inside more
  obtain ⟨index, skippedIndex, stays, -, marking⟩ := exists_markText_of_skipTtype skippedMark
    (ne_nil_of_le (le_of_skip skippedBegin) moreBegin)
  obtain rfl := Except.ok.inj (stays.symm.trans skippedBegin)
  obtain ⟨next, skippedNext, isMarked⟩ := hasTtype_eq_ok_iff.mp mark
  obtain rfl := Except.ok.inj (skippedIndex.symm.trans skippedNext)
  rcases marking with ⟨absent, -⟩ | ⟨mark, markSpans, written⟩
  · simp only [absent, Option.isSome_none, Bool.false_eq_true] at isMarked
  obtain ⟨header, isHeader, headerSpans⟩ :=
    named skippedIndex (ne_nil_of_le markSpans.start_le moreBegin)
  refine ⟨start, _, before, inner, behind, head.name, found, skipped,
    (lead.append braces).append closingSpans, opening, closing, ofSuite, encloses, rfl, ?_⟩
  rw [← lead.lineAt_eq]
  rcases list with ⟨-, rfl, ended⟩ | ⟨key, raw, separator, opened, close, log, last, isKey,
    keySpans, listSpans, listed, apart, apartSpans, children⟩
  · rw [ended] at markSpans written
    obtain ⟨-, insideBraces, -⟩ := braces.inside
    obtain rfl : inner = header ++ mark := insideBraces.unique (headerSpans.append markSpans)
    have marking : MarkText [] mark :=
      (show MarkText ([] ++ source.drop head.close) mark from written).of_append
    simpa using SuiteText.bare isHeader marking encloses
  · obtain ⟨front, items, back, frame, whole, written⟩ := exists_frame_of_list finds braces
      encloses isHeader headerSpans (.some written) markSpans isKey keySpans listSpans listed apart
      apartSpans children
    rw [whole]
    exact .listed frame written

/-- One step of reading items: at the end of the list there are no more, and before it there is
one, a separator, and the others. -/
theorem exists_child_of_items {bound close : Nat} {name : Text} {found : List Container}
    (ran : items source (bound + 1) name close cursor = .ok found cursor') :
    ∃ start, skip source cursor.index = .ok start ∧
      (close ≤ start ∧ found = [] ∨
        ∃ child more between first, found = child :: more ∧
          (suiteWith source (items source bound) ⟨start, cursor.log⟩ = .ok (some child) between ∨
            ∃ inner, child = .testCase inner ∧
              testCase source ⟨start, cursor.log⟩ = .ok (some inner) between) ∧
          skip source between.index = .ok first ∧
          items source bound name close ⟨behindComma source first, between.log⟩ = .ok more cursor') := by
  simp only [items, bind_eq_ok_iff, skipGap_eq_ok_iff, position_eq_ok_iff] at ran
  obtain ⟨_, _, ⟨start, skipped, rfl⟩, _, _, ⟨rfl, rfl⟩, ran⟩ := ran
  refine ⟨start, skipped, ?_⟩
  by_cases ended : start ≥ close
  · simp only [ended, if_true, pure_eq_ok_iff] at ran
    exact .inl ⟨ended, ran.1.symm⟩
  · simp only [ended, if_false, bind_eq_ok_iff] at ran
    obtain ⟨outcome, between, asSuite, ran⟩ := ran
    cases outcome with
    | some child =>
      simp only [bind_eq_ok_iff, pure_eq_ok_iff, skipGap_eq_ok_iff, skipComma_eq_ok_iff] at ran
      obtain ⟨_, _, ⟨rfl, rfl⟩, _, _, ⟨first, skipped, rfl⟩, _, _, rfl, more, _, ran, rfl, rfl⟩ := ran
      exact .inr ⟨child, more, between, first, rfl, .inl asSuite, skipped, ran⟩
    | none =>
      obtain rfl := suiteWith_eq_none asSuite
      simp only [bind_eq_ok_iff] at ran
      obtain ⟨outcome, between, asCase, ran⟩ := ran
      cases outcome with
      | none => simp at ran
      | some inner =>
        simp only [bind_eq_ok_iff, pure_eq_ok_iff, skipGap_eq_ok_iff, skipComma_eq_ok_iff] at ran
        obtain ⟨_, _, ⟨rfl, rfl⟩, _, _, ⟨first, skipped, rfl⟩, _, _, rfl, more, _, ran, rfl, rfl⟩ := ran
        exact .inr ⟨_, more, between, first, rfl, .inr ⟨inner, rfl, asCase⟩, skipped, ran⟩

/-- A test case is written between braces that enclose a text. -/
theorem exists_braces_of_caseText {line : Nat} {name text : Text} {marked : Bool} {found : List Member}
    (written : CaseText .accepted line name marked text found) :
    ∃ inner, text = '{' :: inner ++ ['}'] ∧ brace.Encloses inner := by
  obtain ⟨named, marking, written, unmarked, inside⟩ := written
  exact ⟨_, by simp, inside⟩

/-- Items that are read stand in the room of their list with nothing but separators behind
them. -/
theorem findsItems_items (source : Text) (bound : Nat) : FindsItems source (items source bound) := by
  induction bound with
  | zero =>
    intro name close cursor cursor' found ran
    simp [items] at ran
  | succ bound ih =>
    intro name close cursor cursor' found ran room
    obtain ⟨start, skipped, step⟩ := exists_child_of_items ran
    have roomStart := room.skip skipped
    have stays := skip_eq_ok_self skipped
    refine ⟨start, ?_⟩
    rcases step with ⟨ended, rfl⟩ | ⟨child, more, between, first, rfl, read, skippedFirst, others⟩
    · obtain rfl := Nat.le_antisymm roomStart.le ended
      exact ⟨[], skipped, .refl source start, .nil _⟩
    -- What follows the first item is the same for a suite and for a test case.
    · have further : ∀ {index}, between.index = index → Room source index close →
          ∃ separator next rest, Spans source index separator next ∧ Separator separator ∧
            Spans source next rest close ∧ ItemsText .accepted (lineAt source next) rest more := by
        rintro _ rfl roomNext
        have roomComma := (roomNext.skip skippedFirst).comma
        obtain ⟨next, rest, skippedNext, restSpans, written⟩ := ih others roomComma
        obtain ⟨separator, apartSpans, apart⟩ := exists_separator_of_separates
          ⟨first, skippedFirst, skippedNext⟩ (roomComma.skip skippedNext).more
        exact ⟨separator, next, rest, apartSpans, apart, restSpans, written⟩
      rcases read with asSuite | ⟨inner, rfl, asCase⟩
      · obtain ⟨_, constructor, before, inner, behind, suiteName, children, skipped', spans, opening,
          closing, ofSuite, encloses, rfl, written⟩ := exists_suiteText_of_suiteWith ih asSuite
        obtain rfl := Except.ok.inj (stays.symm.trans skipped')
        obtain ⟨front, closingSpans⟩ := spans.split
        obtain ⟨lead, braces⟩ := front.split
        obtain ⟨separator, next, rest, apartSpans, apart, restSpans, others⟩ :=
          further rfl ((roomStart.braces opening lead braces encloses).closing closing closingSpans)
        have whole := spans.append apartSpans
        rw [whole.lineAt_eq] at others
        refine ⟨_, skipped, whole.append restSpans, ?_⟩
        generalize '{' :: inner ++ ['}'] = text at written others
        cases written with
        | @listed front items back _ frame nested =>
          have regroup : before ++ (front ++ items ++ back) ++ behind ++ separator =
              before ++ front ++ items ++ back ++ behind ++ separator := by simp
          rw [regroup] at others ⊢
          rw [Nat.add_assoc, ← List.count_append] at nested
          exact .suite opening closing ofSuite frame nested apart others
        | @bare header mark named marking inside =>
          have regroup : before ++ ('{' :: header ++ mark ++ ['}']) ++ behind ++ separator =
              before ++ '{' :: header ++ mark ++ '}' :: behind ++ separator := by simp
          rw [regroup] at others ⊢
          exact .bareSuite opening closing ofSuite named marking inside apart others
      · obtain ⟨_, constructor, before, text, behind, members, skipped', spans, opening, closing,
          noSuite, written, comprises, constructed⟩ := exists_caseText_of_testCase asCase
        obtain rfl := Except.ok.inj (stays.symm.trans skipped')
        obtain ⟨front, closingSpans⟩ := spans.split
        obtain ⟨lead, braces⟩ := front.split
        obtain ⟨content, rfl, encloses⟩ := exists_braces_of_caseText written
        obtain ⟨separator, next, rest, apartSpans, apart, restSpans, others⟩ :=
          further rfl ((roomStart.braces opening lead braces encloses).closing closing closingSpans)
        have whole := spans.append apartSpans
        rw [whole.lineAt_eq] at others
        exact ⟨_, skipped, whole.append restSpans,
          .testCase opening closing noSuite written comprises rfl constructed apart others⟩

/-! ## From the text to the items -/

/-- A list of items that is written is read by whatever reads its items. -/
theorem suiteItems_of_list {children : (name : Text) → (close : Nat) → SuiteReader (List Container)}
    {head : Header} {start opened close next : Nat} {key raw separator behind : Text}
    {between : Cursor} {found : List Container} (skipped : skip source cursor.index = .ok start)
    (isKey : Key "items".toList key) (keySpans : Spans source start key opened)
    (list : Spans source opened ('[' :: raw ++ [']']) (close + 1)) (listed : square.Encloses raw)
    (apart : Separator separator) (apartSpans : Spans source (close + 1) separator head.close)
    (brace : source.drop head.close = '}' :: source.drop (head.close + 1))
    (closing : Closing head.constructorName behind)
    (closingSpans : Spans source (head.close + 1) behind next)
    (ran : children head.name close ⟨opened + 1, cursor.log⟩ = .ok found between) :
    suiteItems source children head cursor = .ok found ⟨next, between.log⟩ := by
  obtain ⟨bracket, -, -⟩ := list.inside
  have here : source.drop start = key ++ '[' :: source.drop (opened + 1) := by
    rw [keySpans.here, bracket.here]
    rfl
  have found := items?_eq_some_iff.mpr ⟨key, isKey, here⟩
  have openedIndex : indexOf source (source.drop (opened + 1)) - 1 = opened := by
    have whole : source.drop start = (key ++ ['[']) ++ source.drop (opened + 1) := by simpa using here
    rw [indexOf_of_drop whole (by simp), List.length_append, keySpans.width]
    rfl
  have matched := (matchBracket_square_iff bracket.here).mpr ⟨raw, list, listed⟩
  have stops : Stops isLoose (source.drop head.close) := by
    rw [brace]
    exact (stops_cons _ _ _).mpr (by decide)
  obtain ⟨first, skippedFirst, skippedLast⟩ := separates_of_separator apart apartSpans stops
  simp only [suiteItems, bind_eq_ok_iff, skipGap_eq_ok_iff, rest_eq_ok_iff]
  refine ⟨(), _, ⟨start, skipped, rfl⟩, _, _, ⟨rfl, rfl⟩, ?_⟩
  simp only [found, openedIndex, bind_eq_ok_iff, ofExcept_eq_ok_iff, moveTo_eq_ok_iff,
    skipGap_eq_ok_iff, skipComma_eq_ok_iff, closeContainer_eq_ok_iff, pure_eq_ok_iff]
  exact ⟨close, _, ⟨matched, rfl⟩, (), _, rfl, _, between, ran, (), _, rfl, (), _,
    ⟨first, skippedFirst, rfl⟩, (), _, rfl, (), ⟨next, between.log⟩,
    ⟨skippedLast, ⟨behind, closing, closingSpans⟩, rfl⟩, rfl, rfl⟩

/-- A suite without a list of items has none. -/
theorem suiteItems_of_end {children : (name : Text) → (close : Nat) → SuiteReader (List Container)}
    {head : Header} {next : Nat} {behind : Text} (skipped : skip source cursor.index = .ok head.close)
    (brace : source.drop head.close = '}' :: source.drop (head.close + 1))
    (closing : Closing head.constructorName behind)
    (closingSpans : Spans source (head.close + 1) behind next) :
    suiteItems source children head cursor = .ok [] ⟨next, cursor.log⟩ := by
  have absent : items? (source.drop head.close) = none := by
    rw [brace]
    simp [items?, key?, after?]
  simp only [suiteItems, bind_eq_ok_iff, skipGap_eq_ok_iff, rest_eq_ok_iff]
  refine ⟨(), _, ⟨_, skipped, rfl⟩, _, _, ⟨rfl, rfl⟩, ?_⟩
  simp only [absent, bind_eq_ok_iff, closeContainer_eq_ok_iff, pure_eq_ok_iff]
  exact ⟨(), ⟨next, cursor.log⟩,
    ⟨skip_eq_ok_self skipped, ⟨behind, closing, closingSpans⟩, rfl⟩, trivial, rfl⟩

/-- A nested suite that is written is read by whatever reads what follows its mark. -/
theorem suiteWith_of_mark {children : (name : Text) → (close : Nat) → SuiteReader (List Container)}
    {start opened close between begin next : Nat} {constructor : Option Text}
    {before inner header mark name : Text} {log : List LogRecord} {found : List Container}
    (skipped : skip source cursor.index = .ok start) (opening : Opening constructor before)
    (ofSuite : ¬ (constructor.any fun name => !suiteClasses.contains name) = true)
    (lead : Spans source start before opened)
    (braces : Spans source opened ('{' :: inner ++ ['}']) (close + 1))
    (encloses : brace.Encloses inner) (named : HeaderText name header)
    (headerSpans : Spans source (opened + 1) header between)
    (marking : MarkText (source.drop begin) mark) (markSpans : Spans source between mark begin)
    (stops : Stops isLoose (source.drop begin)) (inside : begin ≤ close)
    (ran : ∀ stop, suiteItems source children ⟨name, stop, close, constructor⟩
      ⟨begin, cursor.log⟩ = .ok found ⟨next, log⟩) :
    ∃ log, suiteWith source children cursor = .ok (some (.suite name found)) ⟨next, log⟩ := by
  obtain ⟨-, -, closes⟩ := braces.inside
  have nonempty : source.drop close ≠ [] := by simp [closes]
  have more := ne_nil_of_le inside nonempty
  have starts : Stops isLoose (source.drop between) := by
    rw [markSpans.here]
    exact marking.stops _
  obtain ⟨stop, headed, skippedMark⟩ := header_of_headerText opening
    (show true = true ∨ constructor = none from .inl rfl) lead braces encloses named headerSpans starts
  have marked : hasTtype source stop = .ok true := by
    refine hasTtype_eq_ok_iff.mpr ⟨between, skippedMark, ?_⟩
    rw [markSpans.here]
    exact marking.isSome_key?_ttype
  have plain := Bool.eq_false_iff.mpr ofSuite
  apply Exists.intro
  simp only [suiteWith, bind_eq_ok_iff, position_eq_ok_iff, skipGap_eq_ok_iff]
  refine ⟨_, _, ⟨rfl, rfl⟩, (), _, ⟨start, skipped, rfl⟩, _, _, ⟨rfl, rfl⟩, _, _,
    ofExcept_eq_ok_iff.mpr ⟨headed, rfl⟩, ?_⟩
  simp only [plain, Bool.false_eq_true, if_false, bind_eq_ok_iff, ofExcept_eq_ok_iff]
  refine ⟨true, _, ⟨marked, rfl⟩, ?_⟩
  simp only [Bool.not_true, Bool.false_eq_true, if_false, bind_eq_ok_iff, moveTo_eq_ok_iff,
    note_eq_ok_iff]
  exact ⟨(), _, rfl, (), _, skipTtype_of_markText skippedMark markSpans marking stops more, _, _,
    ran stop, (), _, rfl, rfl⟩

/-- A test case is not taken for a suite. -/
theorem suiteWith_of_caseText
    {children : (name : Text) → (close : Nat) → SuiteReader (List Container)}
    {start opened closed : Nat} {constructor : Option Text} {before text name : Text}
    {found : List Member} (skipped : skip source cursor.index = .ok start)
    (opening : Opening constructor before) (lead : Spans source start before opened)
    (spans : Spans source opened text closed)
    (written : CaseText .accepted (lineAt source opened) name false text found) :
    suiteWith source children cursor = .ok none cursor := by
  obtain ⟨stop, close, index, begin, mark, rest, -, headed, -, unmarked, -⟩ :=
    header_of_caseText opening (show true = true ∨ constructor = none from .inl rfl) lead spans written
  simp only [suiteWith, bind_eq_ok_iff, position_eq_ok_iff, skipGap_eq_ok_iff]
  refine ⟨_, _, ⟨rfl, rfl⟩, (), _, ⟨start, skipped, rfl⟩, _, _, ⟨rfl, rfl⟩, _, _,
    ofExcept_eq_ok_iff.mpr ⟨headed, rfl⟩, ?_⟩
  by_cases other : (constructor.any fun name => !suiteClasses.contains name) = true
  · simp only [other, if_true, bind_eq_ok_iff, moveTo_eq_ok_iff]
    exact ⟨(), _, rfl, rfl⟩
  · have plain := Bool.eq_false_iff.mpr other
    simp only [plain, Bool.false_eq_true, if_false, bind_eq_ok_iff, ofExcept_eq_ok_iff]
    refine ⟨false, _, ⟨unmarked, rfl⟩, ?_⟩
    simp only [Bool.not_false, if_true, bind_eq_ok_iff, moveTo_eq_ok_iff]
    exact ⟨(), _, rfl, rfl⟩

/-- The pieces of a suite stand inside its braces. -/
theorem pieces_of_suiteFrame {opened closed : Nat} {name items front back : Text} {marked : Bool}
    (frame : SuiteFrame .accepted name marked items front back)
    (spans : Spans source opened (front ++ items ++ back) closed) :
    ∃ inner header mark key gap separator between start index begin close stop, closed = stop + 1 ∧
      Spans source opened ('{' :: inner ++ ['}']) (stop + 1) ∧ brace.Encloses inner ∧
      HeaderText name header ∧ Spans source (opened + 1) header between ∧
      MaybeMarked (source.drop start) marked mark ∧ Spans source between mark start ∧
      Key "items".toList key ∧ Spans source start key index ∧
      Spans source index ('[' :: (gap ++ items) ++ [']']) (close + 1) ∧
      square.Encloses (gap ++ items) ∧ Gap gap ∧ Spans source (index + 1) gap begin ∧
      Spans source begin items close ∧ Separator separator ∧
      Spans source (close + 1) separator stop ∧
      lineAt source begin = lineAt source opened + front.count '\n' := by
  obtain @⟨header, mark, key, gap, separator, named, isKey, isGap, apart, marking, listed, inside⟩ := frame
  have whole : Spans source opened (['{'] ++ (header ++ (mark ++ (key ++
      (['['] ++ (gap ++ (items ++ ([']'] ++ (separator ++ ['}']))))))))) closed := by
    simpa using spans
  obtain ⟨brace, back⟩ := whole.split
  obtain ⟨headerSpans, back⟩ := back.split
  obtain ⟨markSpans, behindMark⟩ := back.split
  obtain ⟨keySpans, back⟩ := behindMark.split
  obtain ⟨bracket, back⟩ := back.split
  obtain ⟨gapSpans, back⟩ := back.split
  obtain ⟨itemsSpans, back⟩ := back.split
  obtain ⟨closer, back⟩ := back.split
  obtain ⟨apartSpans, last⟩ := back.split
  have marks : MaybeMarked (source.drop (opened + ['{'].length + header.length + mark.length)) marked
      mark := by
    have behind : source.drop (opened + ['{'].length + header.length + mark.length) =
        (key ++ '[' :: gap ++ items ++ ']' :: separator) ++ '}' :: source.drop closed := by
      rw [behindMark.here]
      simp
    rw [behind]
    exact marking.append ((stops_cons _ _ _).mpr (by decide))
  refine ⟨_, header, mark, key, gap, separator, _, _, _, _, _, _, last.width, ?_, inside, named,
    headerSpans, marks, markSpans, isKey, keySpans, ?_, listed, isGap, gapSpans, itemsSpans, apart,
    apartSpans, ?_⟩
  · rw [show _ + 1 = closed from last.width.symm]
    simpa using spans
  · simpa using bracket.append ((gapSpans.append itemsSpans).append closer)
  · have front := brace.append (headerSpans.append (markSpans.append (keySpans.append
      (bracket.append gapSpans))))
    simpa using front.lineAt_eq

/-- The opening of a container starts with nothing loose. -/
theorem stops_of_opening {constructor : Option Text} {before : Text}
    (opening : Opening constructor before) (rest : Text) : Stops isLoose (before ++ '{' :: rest) := by
  cases opening with
  | none => exact (stops_cons _ _ _).mpr (by decide)
  | some isCall =>
    obtain ⟨apart, before, behind, -, -, -, -, -, -, rfl⟩ := isCall
    exact (stops_cons _ _ _).mpr (by decide)

/-- Items start with a character that no separator goes on with, unless there are none. -/
theorem stops_of_itemsText {dialect : Dialect} {line : Nat} {text rest : Text}
    {found : List Container} (written : ItemsText dialect line text found)
    (stops : Stops isLoose rest) : Stops isLoose (text ++ rest) := by
  cases written with
  | nil => exact stops
  | testCase opening _ _ written _ _ _ _ _ =>
    obtain ⟨-, -, -, -, -⟩ := written
    simpa using stops_of_opening opening _
  | suite opening _ _ frame _ _ _ =>
    obtain ⟨-, -, -, -, -, -, -⟩ := frame
    simpa using stops_of_opening opening _
  | bareSuite opening _ _ _ _ _ _ _ => simpa using stops_of_opening opening _

/-- Items are read by a reader wherever they are written. -/
def ReadsItems (source : Text) (children : (name : Text) → (close : Nat) → SuiteReader (List Container))
    (line : Nat) (text : Text) (found : List Container) : Prop :=
  ∀ ⦃name close start⦄ ⦃cursor : Cursor⦄, skip source cursor.index = .ok start →
    Spans source start text close → lineAt source start = line →
    source.drop close = ']' :: source.drop (close + 1) →
    ∃ log, children name close cursor = .ok found ⟨close, log⟩

/-- The list of a suite is read where it is written, if its items are. -/
theorem suiteItems_of_frame {children : (name : Text) → (close : Nat) → SuiteReader (List Container)}
    {dialect : Dialect} {start index begin close next line : Nat} (head : Header)
    {key gap items separator behind : Text} {found : List Container} (isKey : Key "items".toList key)
    (keySpans : Spans source start key index)
    (list : Spans source index ('[' :: (gap ++ items) ++ [']']) (close + 1))
    (listed : square.Encloses (gap ++ items)) (isGap : Gap gap)
    (gapSpans : Spans source (index + 1) gap begin) (itemsSpans : Spans source begin items close)
    (apart : Separator separator) (apartSpans : Spans source (close + 1) separator head.close)
    (brace : source.drop head.close = '}' :: source.drop (head.close + 1))
    (closing : Closing head.constructorName behind)
    (closingSpans : Spans source (head.close + 1) behind next)
    (atLine : lineAt source begin = line) (written : ItemsText dialect line items found)
    (read : ReadsItems source children line items found)
    (skipped : skip source cursor.index = .ok start) :
    ∃ log, ∀ stop, suiteItems source children { head with stop } cursor = .ok found ⟨next, log⟩ := by
  obtain ⟨-, -, bracket⟩ := list.inside
  have stops : Stops isLoose (source.drop begin) := by
    rw [itemsSpans.here, bracket]
    exact stops_of_itemsText written ((stops_cons _ _ _).mpr (by decide))
  have skippedGap := skip_eq_ok_of_gap gapSpans isGap
    (stops.mono fun c loose => (isLoose_eq_false_iff.mp loose).1)
  obtain ⟨log, ran⟩ := read (show skip source (Cursor.mk (index + 1) cursor.log).index = _ from
    skippedGap) itemsSpans atLine bracket
  exact ⟨log, fun stop => suiteItems_of_list skipped isKey keySpans list listed apart apartSpans brace
    closing closingSpans ran⟩

/-- A nested suite with a list is read where it is written, if its items are. -/
theorem suiteWith_of_frame {children : (name : Text) → (close : Nat) → SuiteReader (List Container)}
    {dialect : Dialect} {start opened closed next : Nat} {constructor : Option Text}
    {before front items back behind name : Text} {found : List Container}
    (skipped : skip source cursor.index = .ok start) (opening : Opening constructor before)
    (closing : Closing constructor behind)
    (ofSuite : ¬ (constructor.any fun name => !suiteClasses.contains name) = true)
    (lead : Spans source start before opened)
    (frame : SuiteFrame .accepted name true items front back)
    (spans : Spans source opened (front ++ items ++ back) closed)
    (closingSpans : Spans source closed behind next)
    (written : ItemsText dialect (lineAt source opened + front.count '\n') items found)
    (read : ReadsItems source children (lineAt source opened + front.count '\n') items found) :
    ∃ log, suiteWith source children cursor = .ok (some (.suite name found)) ⟨next, log⟩ := by
  obtain ⟨inner, header, mark, key, gap, separator, between, markStop, index, begin, close, stop, rfl,
    braces, encloses, named, headerSpans, marking, markSpans, isKey, keySpans, list, listed, isGap,
    gapSpans, itemsSpans, apart, apartSpans, atLine⟩ := pieces_of_suiteFrame frame spans
  obtain ⟨-, -, brace⟩ := braces.inside
  cases marking with
  | some isMark =>
  have stops : Stops isLoose (source.drop markStop) := by
    obtain ⟨tail, rfl, -, -⟩ := isKey.split
    rw [keySpans.here]
    exact (stops_cons _ _ _).mpr (by decide)
  have inside := (keySpans.append (list.append apartSpans)).start_le
  obtain ⟨log, ran⟩ : ∃ log, ∀ stop', suiteItems source children ⟨name, stop', stop, constructor⟩
      ⟨markStop, cursor.log⟩ = .ok found ⟨next, log⟩ :=
    suiteItems_of_frame ⟨name, 0, stop, constructor⟩ isKey keySpans list listed isGap
      gapSpans itemsSpans apart apartSpans brace closing closingSpans atLine written read
      (skip_of_stops (stops.mono fun c loose => (isLoose_eq_false_iff.mp loose).1))
  exact suiteWith_of_mark skipped opening ofSuite lead braces encloses named headerSpans isMark markSpans
    stops inside ran

/-- An item is read as a suite, or as a test case where no suite is found. -/
def ReadsItem (source : Text) (bound start : Nat) (child : Container) (next : Nat) : Prop :=
  ∀ log, ∃ log', suiteWith source (items source bound) ⟨start, log⟩ = .ok (some child) ⟨next, log'⟩ ∨
    suiteWith source (items source bound) ⟨start, log⟩ = .ok none ⟨start, log⟩ ∧
      ∃ inner, child = .testCase inner ∧ testCase source ⟨start, log⟩ = .ok (some inner) ⟨next, log'⟩

/-- Before the end of a list, an item is read, and behind a separator the others. -/
theorem readsItems_cons {bound line : Nat} {item separator rest : Text} {child : Container}
    {more : List Container} (nonempty : item ≠ []) (apart : Separator separator)
    (others : ItemsText .accepted (line + (item ++ separator).count '\n') rest more)
    (read : ∀ {start next}, skip source start = .ok start → Spans source start item next →
      lineAt source start = line → ReadsItem source bound start child next)
    (further : ReadsItems source (items source bound) (line + (item ++ separator).count '\n') rest more) :
    ReadsItems source (items source (bound + 1)) line (item ++ separator ++ rest) (child :: more) := by
  intro name close start cursor skipped spans atLine bracket
  obtain ⟨front, restSpans⟩ := spans.split
  obtain ⟨itemSpans, apartSpans⟩ := front.split
  have stops : Stops isLoose (source.drop (start + (item ++ separator).length)) := by
    rw [restSpans.here, bracket]
    exact stops_of_itemsText others ((stops_cons _ _ _).mpr (by decide))
  obtain ⟨first, skippedFirst, skippedNext⟩ := separates_of_separator apart apartSpans stops
  obtain ⟨log, ranItem⟩ := read (skip_eq_ok_self skipped) itemSpans atLine cursor.log
  obtain ⟨log', ran⟩ := further (show skip source (Cursor.mk (behindComma source first) log).index = _
    from skippedNext) restSpans (by rw [front.lineAt_eq, atLine]) bracket
  refine ⟨log', ?_⟩
  have later : ¬ start ≥ close := by
    have positive := List.length_pos_iff.mpr nonempty
    rw [spans.width, List.length_append, List.length_append]
    omega
  simp only [items, bind_eq_ok_iff, skipGap_eq_ok_iff, position_eq_ok_iff]
  refine ⟨(), _, ⟨start, skipped, rfl⟩, start, _, ⟨rfl, rfl⟩, ?_⟩
  simp only [later, if_false, bind_eq_ok_iff]
  rcases ranItem with asSuite | ⟨noSuite, inner, rfl, asCase⟩
  · refine ⟨_, _, asSuite, ?_⟩
    simp only [bind_eq_ok_iff, pure_eq_ok_iff, skipGap_eq_ok_iff, skipComma_eq_ok_iff]
    exact ⟨child, _, ⟨rfl, rfl⟩, (), _, ⟨first, skippedFirst, rfl⟩, (), _, rfl, more, _, ran, rfl, rfl⟩
  · refine ⟨_, _, noSuite, ?_⟩
    simp only [bind_eq_ok_iff]
    refine ⟨_, _, asCase, ?_⟩
    simp only [bind_eq_ok_iff, pure_eq_ok_iff, skipGap_eq_ok_iff, skipComma_eq_ok_iff]
    exact ⟨_, _, ⟨rfl, rfl⟩, (), _, ⟨first, skippedFirst, rfl⟩, (), _, rfl, more, _, ran, rfl, rfl⟩

/-- A nested suite without a list is read where it is written. -/
theorem suiteWith_of_bare {children : (name : Text) → (close : Nat) → SuiteReader (List Container)}
    {start opened closed next : Nat} {constructor : Option Text} {before header mark behind name : Text}
    (skipped : skip source cursor.index = .ok start) (opening : Opening constructor before)
    (closing : Closing constructor behind)
    (ofSuite : ¬ (constructor.any fun name => !suiteClasses.contains name) = true)
    (lead : Spans source start before opened) (named : HeaderText name header)
    (marking : MarkText [] mark) (encloses : brace.Encloses (header ++ mark))
    (spans : Spans source opened ('{' :: (header ++ mark) ++ ['}']) closed)
    (closingSpans : Spans source closed behind next) :
    ∃ log, suiteWith source children cursor = .ok (some (.suite name [])) ⟨next, log⟩ := by
  obtain ⟨close, rfl⟩ : ∃ close, closed = close + 1 := ⟨_, by rw [spans.width, List.length_append]; rfl⟩
  obtain ⟨-, inside, brace⟩ := spans.inside
  obtain ⟨headerSpans, markSpans⟩ := inside.split
  have stops : ∀ {p : Char → Bool}, p '}' = false → Stops p (source.drop close) := by
    intro p ends
    rw [brace]
    exact (stops_cons _ _ _).mpr ends
  exact suiteWith_of_mark skipped opening ofSuite lead spans encloses named headerSpans
    (marking.append (stops (by decide))) markSpans (stops (by decide)) (Nat.le_refl _) fun stop =>
      suiteItems_of_end (skip_of_stops (stops (by decide))) brace closing closingSpans

/-- The bound for the items behind one that is not empty. -/
theorem exists_bound {item separator rest : Text} {bound : Nat} (nonempty : item ≠ [])
    (enough : (item ++ separator ++ rest).length < bound) :
    ∃ less, bound = less + 1 ∧ rest.length < less := by
  have positive := List.length_pos_iff.mpr nonempty
  simp only [List.length_append] at enough
  exact ⟨bound - 1, by omega, by omega⟩

/-- Items that are written up to the closing bracket are read. -/
theorem readsItems_of_itemsText {line bound : Nat} {text : Text} {found : List Container}
    (written : ItemsText .accepted line text found) (enough : text.length < bound) :
    ReadsItems source (items source bound) line text found := by
  induction written generalizing bound with
  | nil line =>
    intro name close start cursor skipped spans atLine bracket
    have ended : start = close := by simpa using spans.width.symm
    obtain ⟨bound, rfl⟩ := Nat.exists_eq_add_one.mpr enough
    exact ⟨cursor.log, by simp [items, skipped, ended, and_assoc]⟩
  | @testCase line before text behind separator rest caseName constructor members inner more opening
      closing noSuite written comprises named constructed apart others ih =>
    subst named
    have nonempty : before ++ text ++ behind ≠ [] := by
      obtain ⟨_, rfl, -⟩ := exists_braces_of_caseText written
      simp
    obtain ⟨bound, rfl, shorter⟩ := exists_bound nonempty enough
    refine readsItems_cons nonempty apart others ?_ (ih shorter)
    intro start next stays spans atLine log
    obtain ⟨front, closingSpans⟩ := spans.split
    obtain ⟨lead, textSpans⟩ := front.split
    rw [← atLine, ← lead.lineAt_eq] at written
    obtain ⟨log', asCase⟩ : ∃ log', SuiteReader.testCase source ⟨start, log⟩ =
        .ok (some inner) ⟨next, log'⟩ :=
      testCase_of_caseText stays opening closing lead textSpans closingSpans noSuite written comprises
        constructed
    exact ⟨log', .inr ⟨suiteWith_of_caseText stays opening lead textSpans written, inner, rfl, asCase⟩⟩
  | @suite line before front items back behind separator rest suiteName constructor children more
      opening closing ofSuite frame written apart others ihNested ih =>
    have regroup : before ++ front ++ items ++ back ++ behind ++ separator =
        (before ++ (front ++ items ++ back) ++ behind) ++ separator := by simp
    -- The front holds the bracket, so the items inside fit a smaller bound.
    have positive : 0 < front.length := by
      obtain ⟨-, -, -, -, -, -, -⟩ := frame
      simp
    have nonempty : before ++ (front ++ items ++ back) ++ behind ≠ [] := by
      simp [List.length_pos_iff.mp positive]
    rw [regroup] at others enough ih ⊢
    obtain ⟨bound, rfl, shorter⟩ := exists_bound nonempty enough
    refine readsItems_cons nonempty apart others ?_ (ih shorter)
    intro start next stays spans atLine log
    obtain ⟨lead, closingSpans⟩ := spans.split
    obtain ⟨beforeSpans, textSpans⟩ := lead.split
    have nested : items.length < bound := by
      simp only [List.length_append] at enough
      omega
    have line : line + (before ++ front).count '\n' =
        lineAt source (start + before.length) + front.count '\n' := by
      rw [beforeSpans.lineAt_eq, atLine, List.count_append, Nat.add_assoc]
    have readNested := ihNested nested
    rw [line] at written readNested
    obtain ⟨log', asSuite⟩ : ∃ log', suiteWith source (SuiteReader.items source bound) ⟨start, log⟩ =
        .ok (some (.suite suiteName children)) ⟨next, log'⟩ :=
      suiteWith_of_frame stays opening closing ofSuite beforeSpans frame textSpans closingSpans written
        readNested
    exact ⟨log', .inl asSuite⟩
  | @bareSuite line before header mark behind separator rest suiteName constructor more opening closing
      ofSuite named marking inside apart others ih =>
    have regroup : before ++ '{' :: header ++ mark ++ '}' :: behind ++ separator =
        (before ++ ('{' :: (header ++ mark) ++ ['}']) ++ behind) ++ separator := by simp
    have nonempty : before ++ ('{' :: (header ++ mark) ++ ['}']) ++ behind ≠ [] := by simp
    rw [regroup] at others enough ih ⊢
    obtain ⟨bound, rfl, shorter⟩ := exists_bound nonempty enough
    refine readsItems_cons nonempty apart others ?_ (ih shorter)
    intro start next stays spans atLine log
    obtain ⟨lead, closingSpans⟩ := spans.split
    obtain ⟨beforeSpans, textSpans⟩ := lead.split
    obtain ⟨log', asSuite⟩ : ∃ log', suiteWith source (SuiteReader.items source bound) ⟨start, log⟩ =
        .ok (some (.suite suiteName [])) ⟨next, log'⟩ :=
      suiteWith_of_bare stays opening closing ofSuite beforeSpans named marking inside textSpans
        closingSpans
    exact ⟨log', .inl asSuite⟩

end SuiteReader

end JasmineConversion
