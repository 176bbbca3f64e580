import JasmineConversion.Proofs.Suite.Pattern
import JasmineConversion.Proofs.Text.Position

/-! # The anchor of the outer container

The outer container opens with an anchor at the start of a line. The first anchor of a text is the
one that is found, and text in front of the line of an anchor cannot make another one together
with it.
-/

namespace JasmineConversion.Pattern

open Text

/-- The call of the outer container's class. -/
def ExtCall (name head : Text) : Prop :=
  ∃ apart behind, isBlankText apart = true ∧ apart ≠ [] ∧ isBlankText behind = true ∧
    (∀ c ∈ name, isWord c = true) ∧
    (endsWith "Suite".toList name = true ∨ endsWith "Case".toList name = true) ∧
    head = "new".toList ++ apart ++ "Ext.test.".toList ++ name ++ '(' :: behind

/-- What stands between the anchor's parenthesis and the brace: the call of a class, or nothing. -/
inductive ExtOpening : Option Text → Text → Prop
  | none : ExtOpening none []
  | some {name call : Text} (isCall : ExtCall name call) : ExtOpening (some name) call

/-- The call in front of a brace starts with no white space. -/
theorem ExtOpening.stops {extClass : Option Text} {call body : Text}
    (opening : ExtOpening extClass call) (braced : Braced body) : Stops isBlank (call ++ body) := by
  cases opening with
  | none => exact braced.stops (by decide)
  | some isCall =>
    obtain ⟨apart, behind, -, -, -, -, -, rfl⟩ := isCall
    exact (stops_cons _ _ _).mpr (by decide)

/-- The opening of the outer container, up to its brace. -/
def AnchorHead (indent package : Text) (extClass : Option Text) (head : Text) : Prop :=
  ∃ behind call, (∀ c ∈ indent, isIndent c = true) ∧ (∀ c ∈ package, isDotted c = true) ∧
    package ≠ [] ∧ isBlankText behind = true ∧ ExtOpening extClass call ∧
    head = indent ++ "tests.".toList ++ package ++ ".add(".toList ++ behind ++ call

/-- The call of a class is found exactly where one is written. -/
theorem extClass?_eq_some_iff {text name body : Text} :
    extClass? text = some (name, body) ↔
      ∃ call, ExtCall name call ∧ text = call ++ body ∧ Stops isBlank body := by
  simp only [extClass?, Option.bind_eq_bind, Option.bind_eq_some_iff, after?_eq_some_iff]
  constructor
  · rintro ⟨rest, rfl, found⟩
    split at found
    · cases found
    · next shorter =>
      obtain ⟨⟨apart, apartBlank, nonempty, split⟩, -⟩ := length_trimStart_ne_iff.mp ⟨rfl, shorter⟩
      simp only [Option.bind_eq_some_iff, after?_eq_some_iff, Option.ite_none_right_eq_some,
        Bool.or_eq_true, Option.some.injEq, Prod.mk.injEq] at found
      obtain ⟨inner, called, arguments, opened, kind, rfl, rfl⟩ := found
      obtain ⟨⟨behind, behindBlank, splitBody⟩, stops⟩ :=
        trimStart_eq_iff.mp (rfl : trimStart arguments = _)
      refine ⟨_, ⟨apart, behind, apartBlank, nonempty, behindBlank,
        List.all_eq_true.mp List.all_takeWhile, kind, rfl⟩, ?_, stops⟩
      have whole : inner = inner.takeWhile isWord ++ (['('] ++ (behind ++ trimStart arguments)) := by
        rw [← splitBody, ← opened, List.takeWhile_append_dropWhile]
      calc "new".toList ++ rest
          = "new".toList ++ (apart ++ ("Ext.test.".toList ++ (inner.takeWhile isWord ++
              (['('] ++ (behind ++ trimStart arguments))))) := by rw [← whole, ← called, ← split]
        _ = _ := by simp
  · rintro ⟨_, ⟨apart, behind, apartBlank, nonempty, behindBlank, word, kind, rfl⟩, rfl, stops⟩
    have stopsName : Stops isWord ('(' :: (behind ++ body)) := (stops_cons _ _ _).mpr (by decide)
    obtain ⟨trimmed, shorter⟩ := length_trimStart_ne_iff.mpr ⟨⟨apart, apartBlank, nonempty, rfl⟩,
      (show Stops isBlank ("Ext.test.".toList ++ (name ++ '(' :: (behind ++ body))) from
        (stops_cons _ _ _).mpr (by decide))⟩
    refine ⟨apart ++ ("Ext.test.".toList ++ (name ++ '(' :: (behind ++ body))), by simp, ?_⟩
    rw [trimmed, if_neg shorter]
    simp only [after?_append, Option.bind_some, takeWhile_append_of_stops word stopsName,
      dropWhile_append_of_stops word stopsName, after?_singleton_cons, if_true,
      trimStart_append behindBlank stops]
    rw [if_pos (by simpa using kind)]

/-- A brace is no call of a class. -/
theorem extClass?_eq_none_of_braced {text : Text} (braced : Braced text) : extClass? text = none := by
  obtain ⟨rest, rfl⟩ := braced
  have other : after? "new".toList ('{' :: rest) = none := rfl
  rw [extClass?, other]
  rfl

/-- A dotted name is cut into the package and the word for adding exactly if it ends with this. -/
theorem dotted_eq_iff {dotted package : Text} :
    dotted.take (dotted.length - 4) = package ∧ endsWith ".add".toList dotted = true ↔
      dotted = package ++ ".add".toList := by
  rw [endsWith_iff]
  constructor
  · rintro ⟨rfl, front, rfl⟩
    simp
  · rintro rfl
    exact ⟨by simp, package, rfl⟩

/-- An anchor is found exactly where its head is written in front of a brace. -/
theorem anchor?_eq_some_iff {line indent package body : Text} {extClass : Option Text} :
    anchor? line = some ⟨indent, package, extClass, body⟩ ↔
      ∃ head, AnchorHead indent package extClass head ∧ line = head ++ body ∧ Braced body := by
  simp only [anchor?, Option.bind_eq_bind, Option.bind_eq_some_iff, after?_eq_some_iff]
  constructor
  · rintro ⟨rest, tests, argument, opened, found⟩
    obtain ⟨blank, tail, rfl, indented, -, takenIndent, droppedIndent⟩ := exists_run isIndent line
    obtain ⟨dotted, tail', rfl, parts, -, takenDotted, droppedDotted⟩ := exists_run isDotted rest
    rw [takenIndent, takenDotted] at found
    rw [droppedIndent] at tests
    rw [droppedDotted] at opened
    subst tests opened
    split at found
    · cases found
    · next named =>
      simp only [Bool.or_eq_true, not_or, Bool.not_eq_true', Bool.not_eq_false,
        List.isEmpty_iff] at named
      obtain ⟨nonempty, added⟩ := named
      have split := dotted_eq_iff.mp ⟨rfl, added⟩
      -- The package is what stands between the two fixed words.
      generalize dotted.take (dotted.length - 4) = name at found nonempty split
      subst split
      obtain ⟨⟨behind, behindBlank, trimmed⟩, -⟩ := trimStart_eq_iff.mp (rfl : trimStart argument = _)
      generalize trimStart argument = rest at found trimmed
      subst trimmed
      have dotted : ∀ c ∈ name, isDotted c = true := fun c member =>
        parts c (List.mem_append_left _ member)
      split at found
      · next extName inner isClass =>
        simp only [Option.ite_none_right_eq_some, Option.some.injEq, Anchor.mk.injEq,
          startsWith_brace_iff] at found
        obtain ⟨braced, rfl, rfl, rfl, rfl⟩ := found
        obtain ⟨call, isCall, rfl, -⟩ := extClass?_eq_some_iff.mp isClass
        exact ⟨_, ⟨behind, call, indented, dotted, nonempty, behindBlank, .some isCall, rfl⟩, by simp,
          braced⟩
      · simp only [Option.ite_none_right_eq_some, Option.some.injEq, Anchor.mk.injEq,
          startsWith_brace_iff] at found
        obtain ⟨braced, rfl, rfl, rfl, rfl⟩ := found
        exact ⟨_, ⟨behind, [], indented, dotted, nonempty, behindBlank, .none, rfl⟩, by simp, braced⟩
  · rintro ⟨_, ⟨behind, call, indented, dotted, nonempty, behindBlank, opening, rfl⟩, rfl, braced⟩
    have whole : indent ++ "tests.".toList ++ package ++ ".add(".toList ++ behind ++ call ++ body =
        indent ++ ("tests.".toList ++ (package ++ ".add".toList ++ '(' :: (behind ++ (call ++ body)))) := by
      simp
    have stopsIndent : Stops isIndent ("tests.".toList ++ (package ++ ".add".toList ++
        '(' :: (behind ++ (call ++ body)))) := (stops_cons _ _ _).mpr (by decide)
    have parts : ∀ c ∈ package ++ ".add".toList, isDotted c = true := by
      intro c member
      rcases List.mem_append.mp member with inside | added
      · exact dotted c inside
      · exact (by decide : ∀ c ∈ ".add".toList, isDotted c = true) c added
    have stopsDotted : Stops isDotted ('(' :: (behind ++ (call ++ body))) :=
      (stops_cons _ _ _).mpr (by decide)
    obtain ⟨taken, added⟩ := dotted_eq_iff.mpr (rfl : package ++ ".add".toList = _)
    have trimmed : trimStart (behind ++ (call ++ body)) = call ++ body :=
      trimStart_append behindBlank (opening.stops braced)
    have named : ¬ (package.isEmpty || !true) = true := by
      simp only [Bool.not_true, Bool.or_false, List.isEmpty_iff]
      exact nonempty
    refine ⟨package ++ ".add".toList ++ '(' :: (behind ++ (call ++ body)), ?_,
      behind ++ (call ++ body), ?_, ?_⟩
    · rw [whole, dropWhile_append_of_stops indented stopsIndent]
    · rw [dropWhile_append_of_stops parts stopsDotted]
      rfl
    · rw [whole, takeWhile_append_of_stops indented stopsIndent,
        takeWhile_append_of_stops parts stopsDotted, taken, added, trimmed, if_neg named]
      cases opening with
      | none =>
        rw [List.nil_append, extClass?_eq_none_of_braced braced]
        simp only [startsWith_brace_iff.mpr braced, if_true]
      | some isCall =>
        rw [extClass?_eq_some_iff.mpr ⟨_, isCall, rfl, braced.stops (by decide)⟩]
        simp only [startsWith_brace_iff.mpr braced, if_true]

/-! ## The first anchor -/

/-- Behind a line feed in an anchor, the first character that is not blank is one of three. -/
theorem AnchorHead.behind_newline {indent package head before behind : Text} {extClass : Option Text}
    (isHead : AnchorHead indent package extClass head) (same : head = before ++ '\n' :: behind)
    (rest : Text) :
    ∃ c more, trimStart (behind ++ '{' :: rest) = c :: more ∧ c ∈ ['n', 'E', '{'] := by
  have solid : ∀ {blank c more}, isBlankText blank = true → isBlank c = false →
      trimStart (blank ++ c :: more) = c :: more :=
    fun allBlank stop => trimStart_append allBlank ((stops_cons _ _ _).mpr stop)
  have inside : ∀ {blank front back}, isBlankText blank = true → blank = front ++ '\n' :: back →
      isBlankText back = true := by
    rintro blank front back allBlank rfl
    simp only [isBlankText_append, isBlankText_cons, Bool.and_eq_true] at allBlank
    exact allBlank.2.2
  obtain ⟨gap, call, indented, dotted, -, gapBlank, opening, rfl⟩ := isHead
  rw [List.append_assoc] at same
  -- The line feed is in one of the two gaps: no other part of a head can hold one.
  rcases append_eq_append_cons_iff.mp same with ⟨tail, lead, -⟩ | ⟨tail, -, same⟩
  · have newline : '\n' ∈ indent ++ "tests.".toList ++ package ++ ".add(".toList := by
      rw [lead]
      simp
    simp only [List.mem_append] at newline
    rcases newline with ((indent | tests) | package) | add
    · exact absurd (indented _ indent) (by decide)
    · exact absurd tests (by decide)
    · exact absurd (dotted _ package) (by decide)
    · exact absurd add (by decide)
  · rcases append_eq_append_cons_iff.mp same with ⟨more, split, rfl⟩ | ⟨more, -, same⟩
    · have moreBlank := inside gapBlank split
      cases opening with
      | none => exact ⟨'{', rest, by simpa using solid moreBlank (by decide), by decide⟩
      | some isCall =>
        obtain ⟨apart, behind, -, -, -, -, -, rfl⟩ := isCall
        exact ⟨'n', _, by simpa using solid moreBlank (by decide), by decide⟩
    · cases opening with
      | none => simp at same
      | @some name _ isCall =>
        obtain ⟨apart, gap, apartBlank, -, gapBlank, word, -, rfl⟩ := isCall
        have inCall : "new".toList ++ (apart ++ ("Ext.test.".toList ++ (name ++ (['('] ++ gap)))) =
            more ++ '\n' :: behind := by
          simpa using same
        rcases append_eq_append_cons_iff.mp inCall with ⟨_, inNew, -⟩ | ⟨more, -, inCall⟩
        · exact absurd (inNew ▸ List.mem_append_cons_self : '\n' ∈ "new".toList) (by decide)
        rcases append_eq_append_cons_iff.mp inCall with ⟨tail, split, rfl⟩ | ⟨more, -, inCall⟩
        · exact ⟨'E', _, by simpa using solid (inside apartBlank split) (by decide), by decide⟩
        rcases append_eq_append_cons_iff.mp inCall with ⟨_, inExt, -⟩ | ⟨more, -, inCall⟩
        · exact absurd (inExt ▸ List.mem_append_cons_self : '\n' ∈ "Ext.test.".toList) (by decide)
        rcases append_eq_append_cons_iff.mp inCall with ⟨_, rfl, -⟩ | ⟨more, -, inCall⟩
        · exact absurd (word '\n' List.mem_append_cons_self) (by decide)
        rcases append_eq_append_cons_iff.mp inCall with ⟨_, inParen, -⟩ | ⟨more, -, split⟩
        · exact absurd (inParen ▸ List.mem_append_cons_self : '\n' ∈ ['(']) (by decide)
        exact ⟨'{', rest, solid (inside gapBlank split) (by decide), by decide⟩

/-- The line of an anchor starts with the first letter of its word. -/
theorem exists_trimStart_of_anchor? {line : Text} {anchor : Anchor}
    (found : anchor? line = some anchor) : ∃ more, trimStart line = 't' :: more := by
  obtain ⟨_, ⟨behind, call, indented, -, -, -, -, rfl⟩, rfl, -⟩ := anchor?_eq_some_iff.mp found
  have blank : isBlankText anchor.indent = true :=
    isBlankText_iff.mpr fun c member => isBlank_of_isIndent (indented c member)
  simp only [List.append_assoc]
  exact ⟨_, trimStart_append blank ((stops_cons _ _ _).mpr (by decide))⟩

/-- An anchor does not reach from one line into a line that opens with an anchor. -/
theorem anchor?_append_eq_none {front rest : Text} {anchor : Anchor} (absent : anchor? front = none)
    (ends : endsWith ['\n'] front = true) (found : anchor? rest = some anchor) :
    anchor? (front ++ rest) = none := by
  rw [Option.eq_none_iff_forall_ne_some]
  rintro ⟨indent, package, extClass, body⟩ crossing
  obtain ⟨before, rfl⟩ := endsWith_iff.mp ends
  obtain ⟨head, isHead, same, body, rfl⟩ := anchor?_eq_some_iff.mp crossing
  rcases append_eq_append_cons_iff.mp same with ⟨tail, split, -⟩ | ⟨tail, rfl, split⟩
  · have complete := anchor?_eq_some_iff.mpr ⟨head, isHead, split, tail, rfl⟩
    rw [absent] at complete
    cases complete
  · obtain ⟨c, more, trimmed, among⟩ :=
      isHead.behind_newline
        (show _ = before ++ '\n' :: tail from List.append_assoc before ['\n'] tail) body
    obtain ⟨more, opens⟩ := exists_trimStart_of_anchor? found
    rw [← split, opens] at trimmed
    obtain ⟨rfl, -⟩ := List.cons.inj trimmed
    exact absurd among (by decide)

/-- The first anchor of a text does not change with text in front that has none and ends before
its line. -/
theorem findAnchorFrom_append {rest : Text} {anchor : Anchor} (found : anchor? rest = some anchor)
    (pre : Text) (fresh : Bool) (index : Nat) (absent : findAnchorFrom fresh index pre = none)
    (ends : pre = [] ∧ fresh = true ∨ endsWith ['\n'] pre = true) :
    findAnchorFrom fresh index (pre ++ rest) = some (index + pre.length, anchor) := by
  induction pre generalizing fresh index with
  | nil =>
    obtain rfl : fresh = true := by simpa [endsWith, startsWith, after?] using ends
    cases rest with
    | nil => cases found
    | cons c rest => simp [findAnchorFrom, found]
  | cons c pre ih =>
    have fed : endsWith ['\n'] (c :: pre) = true := by simpa using ends
    simp only [findAnchorFrom] at absent
    have before : (if fresh then anchor? (c :: pre) else none) = none := by
      cases here : if fresh then anchor? (c :: pre) else none with
      | none => rfl
      | some _ => simp [here] at absent
    have here : (if fresh then anchor? (c :: (pre ++ rest)) else none) = none := by
      cases fresh with
      | false => rfl
      | true => exact anchor?_append_eq_none before fed found
    simp only [before] at absent
    have last : pre = [] ∧ (c == '\n') = true ∨ endsWith ['\n'] pre = true := by
      obtain ⟨front, split⟩ := endsWith_iff.mp fed
      rcases List.cons_eq_append_iff.mp split with ⟨-, alone⟩ | ⟨front, -, rfl⟩
      · obtain ⟨rfl, rfl⟩ := List.cons.inj alone
        exact .inl ⟨rfl, rfl⟩
      · exact .inr (endsWith_iff.mpr ⟨front, rfl⟩)
    simp only [List.cons_append, findAnchorFrom, here]
    rw [ih _ _ absent last, List.length_cons]
    congr 2
    omega

/-- The anchor that is found opens the text from its index on, at the start of a line. -/
theorem anchor?_of_findAnchorFrom {fresh : Bool} {index start : Nat} {text : Text} {anchor : Anchor}
    (found : findAnchorFrom fresh index text = some (start, anchor)) :
    ∃ offset, start = index + offset ∧ anchor? (text.drop offset) = some anchor ∧
      (text.take offset = [] ∧ fresh = true ∨ endsWith ['\n'] (text.take offset) = true) := by
  induction text generalizing fresh index with
  | nil => cases found
  | cons c text ih =>
    simp only [findAnchorFrom] at found
    split at found
    · next here =>
      simp only [Option.some.injEq, Prod.mk.injEq] at found
      obtain ⟨rfl, rfl⟩ := found
      cases fresh with
      | false => cases here
      | true => exact ⟨0, rfl, here, .inl ⟨rfl, rfl⟩⟩
    · obtain ⟨offset, rfl, here, starts⟩ := ih found
      refine ⟨offset + 1, by omega, here, .inr ?_⟩
      rw [List.take_succ_cons]
      apply endsWith_iff.mpr
      rcases starts with ⟨empty, feed⟩ | ends
      · rw [beq_iff_eq] at feed
        exact ⟨[], by rw [empty, feed]; rfl⟩
      · obtain ⟨front, split⟩ := endsWith_iff.mp ends
        exact ⟨c :: front, by rw [split]; rfl⟩

/-- An anchor that is found stands at its index. -/
theorem anchor?_of_findAnchor {text : Text} {start : Nat} {anchor : Anchor}
    (found : findAnchor text = some (start, anchor)) : anchor? (text.drop start) = some anchor := by
  obtain ⟨offset, rfl, here, -⟩ := anchor?_of_findAnchorFrom found
  rw [Nat.zero_add]
  exact here

/-- An anchor that is found stands at the start of a line. -/
theorem fresh_of_findAnchor {text : Text} {start : Nat} {anchor : Anchor}
    (found : findAnchor text = some (start, anchor)) :
    text.take start = [] ∨ endsWith ['\n'] (text.take start) = true := by
  obtain ⟨offset, rfl, -, starts⟩ := anchor?_of_findAnchorFrom found
  rw [Nat.zero_add]
  exact starts.imp_left And.left

end JasmineConversion.Pattern
