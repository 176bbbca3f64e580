import JasmineConversion.Proofs.Suite.OuterReading

/-! # Every character of a container is read once

The members of a test case tile the text between its header and its closing brace, and the items of
a suite tile the text between the brackets of its list. Each piece is one member or item of the
tree, and only white space, comments and single commas lie between pieces. The indexes are those of
the source, and braces and brackets are the ones that the scanner matches.
-/

namespace JasmineConversion

open Text Source Pattern JasmineConversion.Bracket

/-- Pieces stand one behind the other between two indexes, each with a separator behind it. No piece
is empty, and none reaches past the last index. -/
inductive Tiles {α : Type} (source : Text) (written : (start : Nat) → α → (stop : Nat) → Prop) :
    (start : Nat) → List α → (stop : Nat) → Prop
  | nil (index : Nat) : Tiles source written index [] index
  | cons {start stop next last : Nat} {separator : Text} {piece : α} {more : List α}
      (here : written start piece stop) (ahead : start < stop) (apart : Separator separator)
      (apartSpans : Spans source stop separator next) (inside : next ≤ last)
      (others : Tiles source written next more last) :
      Tiles source written start (piece :: more) last

/-- A member of a test case stands between two indexes. -/
def MemberAt (source : Text) (start : Nat) (member : Member) (stop : Nat) : Prop :=
  ∃ text, Spans source start text stop ∧
    MemberText .accepted (lineAt source start) text member

/-- The braces of a container with its header, and the mark of a suite if there is one. What the
container holds starts at `first`. -/
structure BracesAt (source name : Text) (opened first close : Nat) : Prop where
  matched : matchBracket source opened = .ok close
  headed : ∃ header mark marked, HeaderText name header ∧
    MaybeMarked (source.drop first) marked mark ∧ Spans source (opened + 1) (header ++ mark) first
  inside : first ≤ close

mutual

/-- A container stands between two braces, and what it holds tiles the text between them. -/
inductive ContainerAt (source : Text) : (opened : Nat) → Container → (close : Nat) → Prop
  | testCase {opened first close : Nat} {inner : TestCase} {members : List Member}
      (braces : BracesAt source inner.name opened first close)
      (tiled : Tiles source (MemberAt source) first members close)
      (comprises : inner.Comprises members) : ContainerAt source opened (.testCase inner) close
  | suite {opened first bracket begin last close : Nat} {name key gap separator : Text}
      {children : List Container} (braces : BracesAt source name opened first close)
      (isKey : Key "items".toList key) (keySpans : Spans source first key bracket)
      (matched : matchBracket source bracket = .ok last) (isGap : Gap gap)
      (gapSpans : Spans source (bracket + 1) gap begin)
      (tiled : Tiles source (ItemAt source) begin children last)
      (apart : Separator separator) (apartSpans : Spans source (last + 1) separator close) :
      ContainerAt source opened (.suite name children) close
  | bareSuite {opened close : Nat} {name : Text} (braces : BracesAt source name opened close close) :
      ContainerAt source opened (.suite name []) close

/-- An item stands between two indexes: a container, inside the call of a constructor if there is
one. -/
inductive ItemAt (source : Text) : (start : Nat) → Container → (stop : Nat) → Prop
  | intro {start opened close stop : Nat} {before behind : Text} {constructor : Option Text}
      {item : Container} (opening : Opening constructor before)
      (openingSpans : Spans source start before opened) (here : ContainerAt source opened item close)
      (closing : Closing constructor behind) (closingSpans : Spans source (close + 1) behind stop) :
      ItemAt source start item stop

end

variable {source : Text}

/-- Members tile the text that they are written in. -/
theorem tiles_of_membersText {line start stop : Nat} {text : Text} {members : List Member}
    (written : MembersText .accepted line text members) (spans : Spans source start text stop)
    (atLine : lineAt source start = line) : Tiles source (MemberAt source) start members stop := by
  induction written generalizing start with
  | nil line =>
    obtain rfl : stop = start := by simpa using spans.width
    exact .nil stop
  | cons first apart others ih =>
    obtain ⟨front, restSpans⟩ := spans.split
    obtain ⟨textSpans, apartSpans⟩ := front.split
    rw [← atLine] at first
    refine .cons ⟨_, textSpans, first⟩ ?_ apart apartSpans restSpans.start_le
      (ih restSpans (by rw [front.lineAt_eq, atLine]))
    obtain ⟨c, more, rfl, -⟩ := first.exists_cons
    simp

/-- A test case that is written stands between its braces. -/
theorem containerAt_of_caseText {opened closed : Nat} {text : Text} {marked : Bool}
    {inner : TestCase} {members : List Member} (spans : Spans source opened text closed)
    (written : CaseText .accepted (lineAt source opened) inner.name marked text members)
    (comprises : inner.Comprises members) :
    ∃ close, closed = close + 1 ∧ ContainerAt source opened (.testCase inner) close := by
  obtain @⟨header, mark, rest, _, named, marking, written, -, inside⟩ := written
  obtain ⟨close, rfl⟩ : ∃ close, closed = close + 1 := ⟨_, by rw [spans.width, List.length_append]; rfl⟩
  have braces : Spans source opened ('{' :: (header ++ mark ++ rest) ++ ['}']) (close + 1) := by
    simpa using spans
  obtain ⟨brace, within, closes⟩ := braces.inside
  obtain ⟨lead, restSpans⟩ := within.split
  refine ⟨close, rfl, .testCase ⟨?_, ⟨header, mark, marked, named, ?_, lead⟩, restSpans.start_le⟩
    (tiles_of_membersText written restSpans ?_) comprises⟩
  · exact (SuiteReader.matchBracket_brace_iff ⟨_, braces.here⟩).mpr ⟨_, braces, inside⟩
  · rw [restSpans.here, closes]
    exact marking.append ((stops_cons _ _ _).mpr (by decide))
  · simpa using (brace.append lead).lineAt_eq

/-- A suite whose items tile its list stands between its braces. -/
theorem containerAt_of_frame {opened closed : Nat} {name front items back : Text} {marked : Bool}
    {children : List Container} (spans : Spans source opened (front ++ items ++ back) closed)
    (frame : SuiteFrame .accepted name marked items front back)
    (tiled : ∀ {begin last}, Spans source begin items last →
      lineAt source begin = lineAt source opened + front.count '\n' →
      Tiles source (ItemAt source) begin children last) :
    ∃ close, closed = close + 1 ∧ ContainerAt source opened (.suite name children) close := by
  obtain ⟨inner, header, mark, key, gap, separator, between, first, bracket, begin, last, close, rfl,
    braces, encloses, named, headerSpans, marking, markSpans, isKey, keySpans, list, listed, isGap,
    gapSpans, itemsSpans, apart, apartSpans, atLine⟩ := SuiteReader.pieces_of_suiteFrame frame spans
  refine ⟨close, rfl, .suite ⟨?_, ⟨header, mark, marked, named, marking, headerSpans.append markSpans⟩, ?_⟩
    isKey keySpans ?_ isGap gapSpans (tiled itemsSpans atLine) apart apartSpans⟩
  · exact (SuiteReader.matchBracket_brace_iff ⟨_, braces.here⟩).mpr ⟨_, braces, encloses⟩
  · exact (keySpans.append (list.append apartSpans)).start_le
  · exact (SuiteReader.matchBracket_square_iff list.here).mpr ⟨_, list, listed⟩

/-- A suite without items stands between its braces. -/
theorem containerAt_of_bare {opened closed : Nat} {name header mark : Text}
    (spans : Spans source opened ('{' :: (header ++ mark) ++ ['}']) closed)
    (named : HeaderText name header) (marking : MarkText [] mark)
    (inside : brace.Encloses (header ++ mark)) :
    ∃ close, closed = close + 1 ∧ ContainerAt source opened (.suite name []) close := by
  obtain ⟨close, rfl⟩ : ∃ close, closed = close + 1 := ⟨_, by rw [spans.width, List.length_append]; rfl⟩
  obtain ⟨-, within, closes⟩ := spans.inside
  refine ⟨close, rfl, .bareSuite ⟨?_, ⟨header, mark, true, named, .some ?_, within⟩, Nat.le_refl _⟩⟩
  · exact (SuiteReader.matchBracket_brace_iff ⟨_, spans.here⟩).mpr ⟨_, spans, inside⟩
  · rw [closes]
    exact marking.append ((stops_cons _ _ _).mpr (by decide))

/-- An item with its constructor and its separator, in front of the items that follow. -/
theorem tiles_cons {start stop : Nat} {before text behind separator rest : Text}
    {constructor : Option Text} {item : Container} {more : List Container}
    (opening : Opening constructor before) (closing : Closing constructor behind)
    (nonempty : text ≠ []) (apart : Separator separator)
    (spans : Spans source start (before ++ text ++ behind ++ separator ++ rest) stop)
    (here : ∀ {opened closed}, Spans source opened text closed →
      lineAt source opened = lineAt source start + before.count '\n' →
      ∃ close, closed = close + 1 ∧ ContainerAt source opened item close)
    (others : ∀ {next}, Spans source next rest stop →
      lineAt source next = lineAt source start + (before ++ text ++ behind ++ separator).count '\n' →
      Tiles source (ItemAt source) next more stop) :
    Tiles source (ItemAt source) start (item :: more) stop := by
  obtain ⟨whole, restSpans⟩ := spans.split
  obtain ⟨front, apartSpans⟩ := whole.split
  obtain ⟨lead, closingSpans⟩ := front.split
  obtain ⟨openingSpans, textSpans⟩ := lead.split
  obtain ⟨close, closed, written⟩ := here textSpans openingSpans.lineAt_eq
  rw [closed] at closingSpans
  refine .cons (.intro opening openingSpans written closing closingSpans) ?_ apart apartSpans
    restSpans.start_le (others restSpans whole.lineAt_eq)
  have positive := List.length_pos_iff.mpr nonempty
  simp only [List.length_append]
  omega

/-- Items tile the text that they are written in. -/
theorem tiles_of_itemsText {line start stop : Nat} {text : Text} {found : List Container}
    (written : ItemsText .accepted line text found) (spans : Spans source start text stop)
    (atLine : lineAt source start = line) : Tiles source (ItemAt source) start found stop := by
  induction written generalizing start stop with
  | nil line =>
    obtain rfl : stop = start := by simpa using spans.width
    exact .nil stop
  | @testCase line before text behind separator rest name constructor members inner more opening closing
      _ written comprises named _ apart others ih =>
    subst named atLine
    have nonempty : text ≠ [] := by
      obtain ⟨_, rfl, -⟩ := SuiteReader.exists_braces_of_caseText written
      simp
    refine tiles_cons opening closing nonempty apart spans ?_ ih
    intro opened closed textSpans textLine
    exact containerAt_of_caseText textSpans (textLine ▸ written) comprises
  | @suite line before front items back behind separator rest name constructor children more opening
      closing _ frame written apart others ihNested ih =>
    subst atLine
    have regroup : before ++ front ++ items ++ back ++ behind ++ separator =
        before ++ (front ++ items ++ back) ++ behind ++ separator := by simp
    rw [regroup] at spans ih
    have nonempty : front ++ items ++ back ≠ [] := by
      obtain ⟨-, -, -, -, -, -, -⟩ := frame
      simp
    refine tiles_cons opening closing nonempty apart spans ?_ ih
    intro opened closed textSpans textLine
    apply containerAt_of_frame textSpans frame
    intro begin last itemsSpans itemsLine
    apply ihNested itemsSpans
    rw [itemsLine, textLine, List.count_append, Nat.add_assoc]
  | @bareSuite line before header mark behind separator rest name constructor more opening closing _
      named marking inside apart others ih =>
    subst atLine
    have regroup : before ++ '{' :: header ++ mark ++ '}' :: behind ++ separator =
        before ++ ('{' :: (header ++ mark) ++ ['}']) ++ behind ++ separator := by simp
    rw [regroup] at spans ih
    refine tiles_cons opening closing (by simp) apart spans ?_ ih
    intro opened closed textSpans _
    exact containerAt_of_bare textSpans named marking inside

/-- A container that is written stands between its braces. -/
theorem containerAt_of_containerText {opened closed : Nat} {declared : Bool} {text : Text}
    {tree : Container} (spans : Spans source opened text closed)
    (written : ContainerText .accepted (lineAt source opened) declared text tree) :
    ∃ close, closed = close + 1 ∧ ContainerAt source opened tree close := by
  cases written with
  | testCase written _ comprises named _ =>
    subst named
    exact containerAt_of_caseText spans written comprises
  | suite _ frame written =>
    apply containerAt_of_frame spans frame
    intro begin last itemsSpans itemsLine
    exact tiles_of_itemsText written itemsSpans itemsLine

/-- The outer container takes up the text between its indexes: an anchor, the container in its
braces, and the parentheses that close it with what ends it. -/
def OuterContainer.Covers (found : OuterContainer) (source : Text) : Prop :=
  ∃ indent package extClass tree head opened close parentheses ending,
    AnchorHead indent package extClass head ∧ Spans source found.start head opened ∧
    ContainerAt source opened tree close ∧ found.tree = tree.qualify package ∧
    OuterClose extClass.isSome parentheses ∧ Ending (source.drop found.stop) ending ∧
    Spans source (close + 1) (parentheses ++ ending) found.stop

/-- Nothing of the outer container is left out and nothing is read twice: every container of the
tree stands in its own braces, and what it holds tiles the text between them. -/
theorem read_covers {found : OuterContainer} (ran : OuterContainer.read source = .ok found) :
    found.Covers source := by
  obtain ⟨anchor, region, -, spans, -, whole⟩ := SuiteReader.exists_outerText_of_read ran
  generalize ofTree : found.tree = tree at whole
  obtain @⟨indent, package, head, text, parentheses, ending, extClass, tree, anchored, written, closes,
    ends⟩ := whole
  obtain ⟨front, endingSpans⟩ := spans.split
  obtain ⟨front, closeSpans⟩ := front.split
  obtain ⟨headSpans, textSpans⟩ := front.split
  rw [← headSpans.lineAt_eq] at written
  obtain ⟨close, closed, here⟩ := containerAt_of_containerText textSpans written
  rw [closed] at closeSpans
  exact ⟨anchor.indent, package, extClass, tree, head, _, close, parentheses, ending, anchored, headSpans,
    here, ofTree, closes, ends, closeSpans.append endingSpans⟩

/-- A suite in a suite, with braces and brackets in comments and literals, a placeholder, and commas
left out. -/
def nestedSuites : Text :=
  "tests.a.add(\x7bname: 'b', /* \x7b] */ items: [\x7bname: 'c', test_x: function() \x7b go(']'); \x7d\x7d
    \x7bname: 'd', ttype: suite, items: [\x7bname: 'e', '': function(x) \x7b\x7d\x7d]\x7d,]\x7d);".toList

/-- The members of nested suites cover their text. -/
theorem read_covers_nested_suites :
    ∃ found, OuterContainer.read nestedSuites = .ok found ∧ found.Covers nestedSuites := by
  obtain ⟨found, ran, -⟩ := exists_eq_ok_of_any (by decide +kernel :
    (OuterContainer.read nestedSuites).toOption.any (fun found => found.start == 0) = true)
  exact ⟨found, ran, read_covers ran⟩

end JasmineConversion
