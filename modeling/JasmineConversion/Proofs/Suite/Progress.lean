import JasmineConversion.Proofs.Suite.ItemReading

/-! # Progress of the cursor

A reader that finds nothing leaves the cursor where it was, and a reader that finds something moves it
on inside the source. So every round of a loop over members or items moves the cursor on, no loop
reaches the bound on its rounds, and the loops are those without a bound.
-/

namespace JasmineConversion

open Text Source Pattern

namespace SuiteReader

variable {source : Text} {cursor cursor' : Cursor} {α : Type}

/-- The cursor has moved on inside the source. -/
def MovesOn (source : Text) (cursor cursor' : Cursor) : Prop :=
  cursor.index < cursor'.index ∧ cursor'.index ≤ source.length

/-- A reader whose value tells whether it found something. If it found nothing the cursor is where it
was, and if it did the cursor has moved on. -/
def HoldsPlace (source : Text) (found : α → Bool) (reader : SuiteReader α) : Prop :=
  ∀ ⦃cursor value cursor'⦄, reader cursor = .ok value cursor' →
    if found value then MovesOn source cursor cursor' else cursor'.index = cursor.index

/-- A reader holds its place if it goes back where it finds nothing and moves on where it finds
something. -/
theorem holdsPlace_of_option {reader : SuiteReader (Option α)}
    (absent : ∀ ⦃cursor cursor'⦄, reader cursor = .ok none cursor' → cursor' = cursor)
    (present : ∀ ⦃cursor value cursor'⦄, reader cursor = .ok (some value) cursor' →
      MovesOn source cursor cursor') :
    HoldsPlace source Option.isSome reader := by
  intro cursor value cursor' ran
  cases value with
  | none => exact congrArg Cursor.index (absent ran)
  | some value => exact present ran

/-- A construct behind a gap moves the cursor on. -/
theorem movesOn_of_spans {start : Nat} {text : Text} (skipped : skip source cursor.index = .ok start)
    (spans : Spans source start text cursor'.index) (nonempty : text ≠ []) :
    MovesOn source cursor cursor' := by
  obtain ⟨further, inside⟩ := spans.inside_of_ne_nil nonempty
  exact ⟨Nat.lt_of_le_of_lt (le_of_skip skipped) further, inside⟩

/-- A member that is written moves the cursor on. -/
theorem movesOn_of_memberText {dialect : Dialect} {start line : Nat} {text : Text} {found : Member}
    (skipped : skip source cursor.index = .ok start) (spans : Spans source start text cursor'.index)
    (written : MemberText dialect line text found) : MovesOn source cursor cursor' := by
  obtain ⟨c, rest, rfl, -⟩ := written.exists_cons
  exact movesOn_of_spans skipped spans (List.cons_ne_nil c rest)

/-! ## Members -/

/-- The reader of hooks holds its place. -/
theorem hook_holdsPlace (source name : Text) : HoldsPlace source Option.isSome (hook source name) := by
  refine holdsPlace_of_option ?_ ?_
  · intro cursor cursor' ran
    obtain ⟨-, -, -, rfl⟩ := hook_eq_none_iff.mp ran
    rfl
  · intro cursor code cursor' ran
    obtain ⟨start, key, parameters, function, skipped, -, -, spans, written, -⟩ :=
      hook_eq_some_iff.mp ran
    obtain ⟨rest, rfl⟩ := written.head?_eq
    exact movesOn_of_spans skipped spans (by simp)

/-- The reader of directives holds its place. -/
theorem should_holdsPlace (source : Text) : HoldsPlace source Option.isSome (should source) := by
  refine holdsPlace_of_option ?_ ?_
  · intro cursor cursor' ran
    obtain ⟨-, -, -, rfl⟩ := should_eq_none_iff.mp ran
    rfl
  · intro cursor found cursor' ran
    obtain ⟨start, text, skipped, spans, written, -⟩ := should_eq_some_iff.mp ran
    exact movesOn_of_memberText skipped spans written

/-- The reader of tests holds its place. -/
theorem test_holdsPlace (source : Text) : HoldsPlace source Option.isSome (test source) := by
  refine holdsPlace_of_option ?_ ?_
  · intro cursor cursor' ran
    obtain ⟨-, -, -, -, rfl⟩ := test_eq_none_iff.mp ran
    rfl
  · intro cursor found cursor' ran
    obtain ⟨start, text, skipped, spans, written, -⟩ := test_eq_some_iff.mp ran
    exact movesOn_of_memberText skipped spans written

/-- The reader of members without a name holds its place. -/
theorem placeholder_holdsPlace (source : Text) : HoldsPlace source id (placeholder source) := by
  intro cursor found cursor' ran
  cases found with
  | false =>
    obtain ⟨-, -, -, rfl⟩ := placeholder_eq_false_iff.mp ran
    rfl
  | true =>
    obtain ⟨start, text, skipped, spans, written, -⟩ := placeholder_eq_true_iff.mp ran
    exact movesOn_of_memberText skipped spans written

/-- The reader of helper methods goes back where it finds none. -/
theorem helper_eq_none (ran : helper source cursor = .ok none cursor') : cursor' = cursor := by
  simp only [helper, bind_eq_ok_iff, find_eq_ok_iff] at ran
  obtain ⟨outcome, _, ⟨start, -, -, rfl⟩, ran⟩ := ran
  cases outcome with
  | none =>
    rw [pure_eq_ok_iff] at ran
    exact ran.2.symm
  | some found => simp at ran

/-- The reader of helper methods holds its place. -/
theorem helper_holdsPlace (source : Text) : HoldsPlace source Option.isSome (helper source) := by
  refine holdsPlace_of_option (fun _ _ => helper_eq_none) ?_
  intro cursor found cursor' ran
  obtain ⟨name, parameters, code⟩ := found
  obtain ⟨start, key, function, skipped, -, -, spans, written, -⟩ := helper_eq_some_iff.mp ran
  obtain ⟨rest, rfl⟩ := written.head?_eq
  exact movesOn_of_spans skipped spans (by simp)

/-! ## Containers -/

/-- The reader of test cases holds its place. -/
theorem testCase_holdsPlace (source : Text) : HoldsPlace source Option.isSome (testCase source) := by
  refine holdsPlace_of_option (fun _ _ => testCase_eq_none) ?_
  intro cursor found cursor' ran
  obtain ⟨start, constructor, before, text, behind, members, skipped, spans, -, -, -, written, -⟩ :=
    exists_caseText_of_testCase ran
  obtain ⟨inner, rfl, -⟩ := exists_braces_of_caseText written
  exact movesOn_of_spans skipped spans (by simp)

/-- The reader of suites holds its place if that of their items finds them. -/
theorem suiteWith_holdsPlace {children : (name : Text) → (close : Nat) → SuiteReader (List Container)}
    (finds : FindsItems source children) :
    HoldsPlace source Option.isSome (suiteWith source children) := by
  refine holdsPlace_of_option (fun _ _ => suiteWith_eq_none) ?_
  intro cursor found cursor' ran
  obtain ⟨start, constructor, before, inner, behind, name, items, skipped, spans, -⟩ :=
    exists_suiteText_of_suiteWith finds ran
  exact movesOn_of_spans skipped spans (by simp)

theorem suite_holdsPlace (source : Text) : HoldsPlace source Option.isSome (suite source) :=
  suiteWith_holdsPlace (findsItems_items source _)

/-! ## Rounds -/

/-- One round of reading members: the test case with one more of them, or nothing at their end. -/
def memberRound (source : Text) (close : Nat) (testCase : TestCase) : SuiteReader (Option TestCase) := do
  skipGap source
  if (← position) ≥ close then return none
  else
    let testCase ← member source testCase
    skipGap source
    skipComma source
    return some testCase

/-- One round of reading items: one more of them, or nothing at their end. -/
def itemRound (source : Text) (children : (name : Text) → (close : Nat) → SuiteReader (List Container))
    (name : Text) (close : Nat) : SuiteReader (Option Container) := do
  skipGap source
  if (← position) ≥ close then return none
  else
    let child ← do
      match ← suiteWith source children with
      | some child => pure child
      | none =>
        match ← testCase source with
        | some child => pure (.testCase child)
        | none => misplaced source (.suiteItem name)
    skipGap source
    skipComma source
    return some child

/-- A round that does not end its loop moves the cursor on. -/
def Progresses (source : Text) (round : SuiteReader (Option α)) : Prop :=
  ∀ ⦃cursor value cursor'⦄, round cursor = .ok (some value) cursor' → MovesOn source cursor cursor'

/-- Skipping stays inside of the text. -/
theorem le_length_of_skip {index next : Nat} (skipped : skip source index = .ok next)
    (inside : index ≤ source.length) : next ≤ source.length := by
  obtain ⟨gap, spans, -⟩ := exists_gap_of_skip skipped
  exact spans.stop_le_length inside

/-- What separates a construct from the next one only moves the cursor further on. -/
theorem MovesOn.separator {cursor between : Cursor} {first next : Nat}
    (moved : MovesOn source ⟨first, cursor.log⟩ between)
    (skippedFirst : skip source cursor.index = .ok first)
    (skippedNext : skip source between.index = .ok next) :
    MovesOn source cursor ⟨behindComma source next, between.log⟩ := by
  obtain ⟨further, inside⟩ := moved
  have begins := le_of_skip skippedFirst
  have ends := le_of_skip skippedNext
  have nextInside := le_length_of_skip skippedNext inside
  simp only [MovesOn, behindComma] at further ⊢
  split
  · next comma =>
    obtain ⟨rest, here⟩ := startsWith_singleton_iff.mp comma
    have lengths := congrArg List.length here
    rw [List.length_drop, List.length_cons] at lengths
    omega
  · omega

/-- A round over a member moves on. -/
theorem memberRound_progresses (source : Text) (close : Nat) (testCase : TestCase) :
    Progresses source (memberRound source close testCase) := by
  intro cursor value cursor' ran
  simp only [memberRound, bind_eq_ok_iff, skipGap_eq_ok_iff, position_eq_ok_iff] at ran
  obtain ⟨_, _, ⟨start, skipped, rfl⟩, _, _, ⟨rfl, rfl⟩, ran⟩ := ran
  by_cases ended : start ≥ close
  · simp [ended] at ran
  · simp only [ended, if_false, bind_eq_ok_iff, skipGap_eq_ok_iff, skipComma_eq_ok_iff,
      pure_eq_ok_iff] at ran
    obtain ⟨found, between, ran, _, _, ⟨next, skippedNext, rfl⟩, _, _, rfl, -, rfl⟩ := ran
    obtain ⟨first, text, member, skippedFirst, spans, written, -⟩ := exists_memberText_of_member ran
    exact (movesOn_of_memberText skippedFirst spans written).separator skipped skippedNext

/-- A round over an item moves on. -/
theorem itemRound_progresses {children : (name : Text) → (close : Nat) → SuiteReader (List Container)}
    (finds : FindsItems source children) (name : Text) (close : Nat) :
    Progresses source (itemRound source children name close) := by
  intro cursor value cursor' ran
  simp only [itemRound, bind_eq_ok_iff, skipGap_eq_ok_iff, position_eq_ok_iff] at ran
  obtain ⟨_, _, ⟨start, skipped, rfl⟩, _, _, ⟨rfl, rfl⟩, ran⟩ := ran
  by_cases ended : start ≥ close
  · simp [ended] at ran
  · simp only [ended, if_false, bind_eq_ok_iff] at ran
    obtain ⟨outcome, between, asSuite, ran⟩ := ran
    cases outcome with
    | some child =>
      simp only [bind_eq_ok_iff, pure_eq_ok_iff, skipGap_eq_ok_iff, skipComma_eq_ok_iff] at ran
      obtain ⟨_, _, ⟨rfl, rfl⟩, _, _, ⟨next, skippedNext, rfl⟩, _, _, rfl, -, rfl⟩ := ran
      exact (suiteWith_holdsPlace finds asSuite).separator skipped skippedNext
    | none =>
      obtain rfl := suiteWith_eq_none asSuite
      simp only [bind_eq_ok_iff] at ran
      obtain ⟨outcome, between, asCase, ran⟩ := ran
      cases outcome with
      | none => simp at ran
      | some inner =>
        simp only [bind_eq_ok_iff, pure_eq_ok_iff, skipGap_eq_ok_iff, skipComma_eq_ok_iff] at ran
        obtain ⟨_, _, ⟨rfl, rfl⟩, _, _, ⟨next, skippedNext, rfl⟩, _, _, rfl, -, rfl⟩ := ran
        exact (testCase_holdsPlace source asCase).separator skipped skippedNext

/-! ## Loops -/

/-- Reading members is one round, and reading more of them unless that was the end. -/
theorem members_succ (source : Text) (close bound : Nat) (testCase : TestCase) :
    members source close (bound + 1) testCase = (do
      match ← memberRound source close testCase with
      | none => return testCase
      | some testCase => members source close bound testCase) := by
  rw [members, memberRound]
  simp only [bind_assoc]
  refine congrArg _ (funext fun _ => congrArg _ (funext fun index => ?_))
  split <;> simp

/-- Reading items is one round, and reading more of them unless that was the end. -/
theorem items_succ (source : Text) (bound : Nat) (name : Text) (close : Nat) :
    items source (bound + 1) name close = (do
      match ← itemRound source (items source bound) name close with
      | none => return []
      | some child => return child :: (← items source bound name close)) := by
  rw [items, itemRound]
  simp only [bind_assoc]
  refine congrArg _ (funext fun _ => congrArg _ (funext fun index => ?_))
  split
  · rfl
  · simp only [bind_assoc]
    refine congrArg _ (funext fun outcome => ?_)
    cases outcome with
    | some child => simp
    | none =>
      simp only [bind_assoc]
      refine congrArg _ (funext fun outcome => ?_)
      cases outcome <;> simp

/-- More rounds than there are characters ahead change nothing for members. -/
theorem members_of_bound (source : Text) (close : Nat) {bound : Nat} (testCase : TestCase)
    (enough : source.length - cursor.index < bound) :
    members source close (bound + 1) testCase cursor = members source close bound testCase cursor := by
  induction bound generalizing cursor testCase with
  | zero => cases enough
  | succ bound ih =>
    rw [members_succ source close (bound + 1), members_succ]
    refine bind_apply_congr rfl ?_
    intro next between ran
    cases next with
    | none => rfl
    | some testCase =>
      obtain ⟨further, inside⟩ := memberRound_progresses source close _ ran
      exact ih testCase (by omega)

/-- A quoted literal that is matched ends behind its start. -/
theorem lt_of_matchLiteral {index close : Nat} {text : Text} (here : source.drop index = text)
    (quoted : text.head?.any Mode.isQuote = true) (matched : matchLiteral source index = .ok close) :
    index < close := by
  cases text with
  | nil => cases quoted
  | cons quote text =>
    rw [List.head?_cons, Option.any_some] at quoted
    obtain ⟨content, spans, -⟩ :=
      (matchLiteral_eq_ok_iff (Mode.isDelimiter_of_isQuote quoted) (by rw [here]; rfl)).mp matched
    have width := spans.width
    simp only [List.length_append, List.length_cons, List.length_nil] at width
    omega

/-- A header ends behind its start. -/
theorem lt_stop_of_header {index : Nat} {allow : Bool} {head : Header}
    (ran : header source index allow = .ok (some head)) : index < head.stop := by
  rw [header] at ran
  dsimp only at ran
  generalize calls : (if allow then construction? (source.drop index) else none) = called at ran
  split at ran
  · simp [exceptPure_eq_ok_iff] at ran
  next opens =>
  have braced : Braced ((called.map (·.2)).getD (source.drop index)) := by
    simpa [startsWith_brace_iff] using opens
  obtain ⟨before, -, -, here⟩ := exists_opening calls braced
  obtain ⟨inside, begins⟩ := braced
  rw [indexOf_of_drop here (by simp [begins])] at ran
  simp only [exceptBind_eq_ok_iff] at ran
  obtain ⟨nameIndex, skipped, ran⟩ := ran
  split at ran
  · simp [exceptPure_eq_ok_iff] at ran
  next text keyed =>
  split at ran
  · simp [exceptPure_eq_ok_iff] at ran
  next quoted =>
  simp only [Bool.not_eq_true', Bool.not_eq_false] at quoted
  simp only [exceptBind_eq_ok_iff, exceptPure_eq_ok_iff, Option.some.injEq] at ran
  obtain ⟨nameClose, matched, afterName, skippedName, close, -, rfl⟩ := ran
  obtain ⟨key, -, keyHere, -⟩ := key?_eq_some_iff.mp keyed
  have nonempty : text ≠ [] := by
    rintro rfl
    cases quoted
  have keySpans : Spans source nameIndex key (nameIndex + key.length) := .of_drop keyHere rfl
  rw [indexOf_of_drop keyHere (List.append_ne_nil_of_right_ne_nil _ nonempty)] at matched
  have named := lt_of_matchLiteral (keySpans.drop_stop keyHere) quoted matched
  have begins := le_of_skip skipped
  have ends := le_of_skip skippedName
  dsimp only
  split <;> omega

/-- Skipping a mark goes forward. -/
theorem le_of_skipTtype (ran : skipTtype source cursor = .ok () cursor') :
    cursor.index ≤ cursor'.index := by
  simp only [skipTtype, bind_eq_ok_iff, skipGap_eq_ok_iff, rest_eq_ok_iff] at ran
  obtain ⟨_, _, ⟨start, skipped, rfl⟩, _, _, ⟨rfl, rfl⟩, ran⟩ := ran
  have begins := le_of_skip skipped
  cases keyed : key? "ttype".toList (source.drop start) with
  | none =>
    simp only [keyed, pure_eq_ok_iff] at ran
    obtain ⟨-, rfl⟩ := ran
    exact begins
  | some text =>
    simp only [keyed] at ran
    obtain ⟨key, isKey, here, -⟩ := key?_eq_some_iff.mp keyed
    obtain ⟨tail, rfl, -, -⟩ := isKey.split
    by_cases quoted : text.head?.any Mode.isQuote = true
    · rw [if_pos quoted, bind_eq_ok_iff] at ran
      obtain ⟨close, _, scanned, ran⟩ := ran
      obtain ⟨matched, rfl⟩ := ofExcept_eq_ok_iff.mp scanned
      rw [bind_eq_ok_iff] at ran
      obtain ⟨_, _, moved, ran⟩ := ran
      obtain rfl := moveTo_eq_ok_iff.mp moved
      obtain ⟨separates, -⟩ := skipSeparator_eq_ok_iff.mp ran
      have value : Spans source start ("ttype".toList ++ tail)
        (start + ("ttype".toList ++ tail).length) :=
        .of_drop here rfl
      rw [indexOf_of_drop here (by simp)] at matched
      have further := lt_of_matchLiteral (value.drop_stop here) quoted matched
      have ends := le_of_separates separates
      dsimp only at ends
      omega
    · rw [if_neg quoted] at ran
      -- Without a value behind it, the key alone is left where it is.
      by_cases dotted : text.head?.any isDotted = true
      · rw [if_pos dotted, bind_eq_ok_iff] at ran
        obtain ⟨_, _, moved, ran⟩ := ran
        obtain rfl := moveTo_eq_ok_iff.mp moved
        obtain ⟨separates, -⟩ := skipSeparator_eq_ok_iff.mp ran
        have whole : source.drop start =
            ("ttype".toList ++ tail ++ text.takeWhile isDotted) ++ text.dropWhile isDotted := by
          rw [here]
          simp only [List.append_assoc, List.takeWhile_append_dropWhile]
        have ends := le_of_separates separates
        rw [indexOf_of_drop whole (by simp)] at ends
        dsimp only at ends
        omega
      · rw [if_neg dotted, bind_eq_ok_iff] at ran
        obtain ⟨_, _, misplaced, -⟩ := ran
        exact absurd misplaced misplacedAt_ne_ok

variable {children children' : (name : Text) → (close : Nat) → SuiteReader (List Container)}

/-- Readers of items that agree on what lies ahead. -/
def AgreeBehind (source : Text) (index : Nat)
    (children children' : (name : Text) → (close : Nat) → SuiteReader (List Container)) : Prop :=
  ∀ name close (cursor : Cursor), index < cursor.index → cursor.index ≤ source.length →
    children name close cursor = children' name close cursor

/-- Readers of items that agree behind the cursor can be exchanged. -/
theorem suiteItems_congr {index : Nat} (agree : AgreeBehind source index children children')
    (head : Header)
    (behind : index ≤ cursor.index) :
    suiteItems source children head cursor = suiteItems source children' head cursor := by
  unfold suiteItems
  refine bind_apply_congr rfl ?_
  intro _ between ran
  obtain ⟨start, skipped, rfl⟩ := skipGap_eq_ok_iff.mp ran
  refine bind_apply_congr rfl ?_
  intro _ between ran
  obtain ⟨rfl, rfl⟩ := rest_eq_ok_iff.mp ran
  cases list : items? (source.drop start) with
  | none => rfl
  | some text =>
    obtain ⟨key, isKey, here⟩ := items?_eq_some_iff.mp list
    have whole : source.drop start = (key ++ ['[']) ++ text := by simpa using here
    have opened : indexOf source text - 1 = start + key.length := by
      rw [indexOf_of_drop whole (by simp), List.length_append]
      rfl
    have lead : Spans source start (key ++ ['[']) (start + key.length + 1) :=
      .of_drop whole (by simp; omega)
    obtain ⟨further, inside⟩ := lead.inside_of_ne_nil (by simp)
    have begins := le_of_skip skipped
    simp only [opened]
    refine bind_apply_congr rfl ?_
    intro close between ran
    obtain ⟨-, rfl⟩ := ofExcept_eq_ok_iff.mp ran
    refine bind_apply_congr rfl ?_
    intro _ between ran
    obtain rfl := moveTo_eq_ok_iff.mp ran
    refine bind_apply_congr (agree _ _ _ ?_ inside) fun _ _ _ => rfl
    change index < start + key.length + 1
    omega

/-- Readers of items that agree behind the cursor can be exchanged in a suite. -/
theorem suiteWith_congr {index : Nat} (agree : AgreeBehind source index children children')
    (behind : index ≤ cursor.index) :
    suiteWith source children cursor = suiteWith source children' cursor := by
  unfold suiteWith
  refine bind_apply_congr rfl ?_
  intro _ between ran
  obtain ⟨rfl, rfl⟩ := position_eq_ok_iff.mp ran
  refine bind_apply_congr rfl ?_
  intro _ between ran
  obtain ⟨start, skipped, rfl⟩ := skipGap_eq_ok_iff.mp ran
  refine bind_apply_congr rfl ?_
  intro _ between ran
  obtain ⟨rfl, rfl⟩ := position_eq_ok_iff.mp ran
  refine bind_apply_congr rfl ?_
  intro outcome between ran
  obtain ⟨headed, rfl⟩ := ofExcept_eq_ok_iff.mp ran
  cases outcome with
  | none => rfl
  | some head =>
    by_cases other : (head.constructorName.any fun name => !suiteClasses.contains name) = true
    · simp only [other, if_true]
    · simp only [other]
      refine bind_apply_congr rfl ?_
      intro marked between ran
      obtain ⟨-, rfl⟩ := ofExcept_eq_ok_iff.mp ran
      cases marked with
      | false => rfl
      | true =>
        refine bind_apply_congr rfl ?_
        intro _ between ran
        obtain rfl := moveTo_eq_ok_iff.mp ran
        refine bind_apply_congr rfl ?_
        intro _ between ran
        have begins := le_of_skip skipped
        have named := lt_stop_of_header headed
        have marked := le_of_skipTtype ran
        dsimp only at named marked
        refine bind_apply_congr (suiteItems_congr agree head ?_) fun _ _ _ => rfl
        omega

/-- Readers of items that agree behind the cursor can be exchanged in a round. -/
theorem itemRound_congr {index : Nat} (agree : AgreeBehind source index children children') (name : Text)
    (close : Nat) (behind : index ≤ cursor.index) :
    itemRound source children name close cursor = itemRound source children' name close cursor := by
  unfold itemRound
  refine bind_apply_congr rfl ?_
  intro _ between ran
  obtain ⟨start, skipped, rfl⟩ := skipGap_eq_ok_iff.mp ran
  refine bind_apply_congr rfl ?_
  intro _ between ran
  obtain ⟨rfl, rfl⟩ := position_eq_ok_iff.mp ran
  have further := Nat.le_trans behind (le_of_skip skipped)
  split
  · rfl
  · exact bind_apply_congr (suiteWith_congr agree further) fun _ _ _ => rfl

/-- More rounds than there are characters ahead change nothing for items. -/
theorem items_of_bound (source : Text) {bound : Nat} (name : Text) (close : Nat)
    (enough : source.length - cursor.index < bound) :
    items source (bound + 1) name close cursor = items source bound name close cursor := by
  induction bound generalizing cursor name close with
  | zero => cases enough
  | succ bound ih =>
    have agree : AgreeBehind source cursor.index (items source (bound + 1)) (items source bound) :=
      fun name close between behind inside => ih name close (by omega)
    conv => rhs; rw [items_succ]
    rw [items_succ source (bound + 1)]
    refine bind_apply_congr (itemRound_congr agree name close (Nat.le_refl _)) ?_
    intro outcome between ran
    cases outcome with
    | none => rfl
    | some child =>
      obtain ⟨behind, inside⟩ := itemRound_progresses (findsItems_items source _) name close ran
      exact bind_apply_congr (agree name close between behind inside) fun _ _ _ => rfl

/-- The cursor contract of the readers. Every reader that finds nothing leaves the cursor where it was,
and every reader that finds something moves it on inside the source. Every round over members or items
fails, ends its loop or moves the cursor on. So the bounds on the rounds are never reached: with them,
both loops are what they are without any bound. -/
theorem readers_hold_place (source : Text) :
    (HoldsPlace source Option.isSome (suite source) ∧ HoldsPlace source Option.isSome (testCase source) ∧
      HoldsPlace source Option.isSome (should source) ∧ HoldsPlace source Option.isSome (setUp source) ∧
      HoldsPlace source Option.isSome (tearDown source) ∧ HoldsPlace source Option.isSome (test source) ∧
      HoldsPlace source id (placeholder source) ∧ HoldsPlace source Option.isSome (helper source)) ∧
    (∀ close testCase, Progresses source (memberRound source close testCase) ∧
      members source close (source.length + 1) testCase = (do
        match ← memberRound source close testCase with
        | none => return testCase
        | some testCase => members source close (source.length + 1) testCase)) ∧
    ∀ name close, Progresses source (itemRound source (items source (source.length + 1)) name close) ∧
      items source (source.length + 1) name close = (do
        match ← itemRound source (items source (source.length + 1)) name close with
        | none => return []
        | some child => return child :: (← items source (source.length + 1) name close)) := by
  have enough : ∀ index : Nat, source.length - index < source.length + 1 := fun index => by omega
  refine ⟨⟨suite_holdsPlace source, testCase_holdsPlace source, should_holdsPlace source,
    hook_holdsPlace source _, hook_holdsPlace source _, test_holdsPlace source,
    placeholder_holdsPlace source, helper_holdsPlace source⟩, ?_, ?_⟩
  · intro close testCase
    refine ⟨memberRound_progresses source close testCase, ?_⟩
    rw [← members_succ]
    exact funext fun cursor => (members_of_bound source close testCase (enough _)).symm
  · intro name close
    refine ⟨itemRound_progresses (findsItems_items source _) name close, ?_⟩
    rw [← items_succ]
    exact funext fun cursor => (items_of_bound source name close (enough _)).symm

end SuiteReader

end JasmineConversion
