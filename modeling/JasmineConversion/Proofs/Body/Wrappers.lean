import JasmineConversion.Proofs.Body.Progress

/-! # Wrappers as they are written

A wrapper is told by the text it is written in: a `try` block at the start of a line whose body mentions the marker,
and a `catch` clause behind it. A step over a body looks at the first `try` block ahead. It goes on behind the keyword,
and no other `try` block starts a line before that.
-/

namespace JasmineConversion

open Text Source JasmineConversion.Bracket

namespace Body

/-- The head of a `try` block up to its brace: an indent, the keyword, and white space. -/
inductive TryHead (indent : Text) : Text → Prop
  | intro {gap : Text} (indents : ∀ c ∈ indent, isIndent c = true) (blank : isBlankText gap = true) :
      TryHead indent (indent ++ "try".toList ++ gap)

/-- The head of a `catch` clause up to its brace. White space may stand in front of it. -/
inductive CatchHead : Text → Prop
  | intro {first second inner third : Text} (leads : isBlankText first = true) (opens : isBlankText second = true)
      (single : ')' ∉ inner) (closes : isBlankText third = true) :
      CatchHead (first ++ "catch".toList ++ second ++ '(' :: inner ++ ')' :: third)

/-- A line starts behind a text. -/
def StartsLine (before : Text) : Prop :=
  ∀ c ∈ before.getLast?, c = '\n'

/-- A `try` block in code, which starts a line behind the text before it. -/
structure TryIn (code before indent head : Text) : Prop where
  here : before ++ head ++ ['{'] <+: code
  starts : StartsLine before
  isHead : TryHead indent head

/-- A wrapper in code: a `try` block with a body that mentions the marker, and a `catch` clause behind it. -/
structure WrapperIn (marker : Content) (code before indent head raw clause : Text) : Prop where
  here : before ++ head ++ '{' :: raw ++ '}' :: clause ++ ['{'] <+: code
  starts : StartsLine before
  isHead : TryHead indent head
  encloses : brace.Encloses raw
  mentions : marker.occursIn raw = true
  caught : CatchHead clause

variable {marker : Content} {code before indent head raw clause text line : Text} {index : Nat} {block : TryBlock}

/-! ## Heads -/

/-- A block is read exactly where its head is written in front of a brace. -/
theorem tryBlock?_eq_some_iff : tryBlock? index line = some block ↔
    ∃ indent head rest, TryHead indent head ∧ line = head ++ '{' :: rest ∧
      block = ⟨index, index + indent.length, index + head.length⟩ := by
  constructor
  · intro found
    unfold tryBlock? at found
    obtain ⟨rest, keyword, found⟩ := Option.bind_eq_some_iff.mp found
    dsimp only at found
    split at found
    · next braced =>
      obtain ⟨inside, begins⟩ := startsWith_singleton_iff.mp braced
      obtain ⟨⟨gap, blank, split⟩, -⟩ := trimStart_eq_iff.mp begins
      have whole : line = line.takeWhile isIndent ++ "try".toList ++ gap ++ '{' :: inside := by
        rw [List.append_assoc, List.append_assoc, ← split, ← after?_eq_some_iff.mp keyword,
          List.takeWhile_append_dropWhile]
      refine ⟨_, _, inside, .intro (List.all_eq_true.mp List.all_takeWhile) blank, whole, ?_⟩
      obtain rfl := Option.some.inj found
      have lengths := congrArg List.length whole
      rw [List.length_append] at lengths
      rw [begins, lengths, Nat.add_sub_cancel]
    · cases found
  · rintro ⟨indent, _, rest, @⟨gap, indents, blank⟩, rfl, rfl⟩
    have split : indent ++ "try".toList ++ gap ++ '{' :: rest = indent ++ ("try".toList ++ (gap ++ '{' :: rest)) := by
      simp
    have stops : Stops isIndent ("try".toList ++ (gap ++ '{' :: rest)) := (stops_cons _ _ _).mpr (by decide)
    have trimmed : trimStart (gap ++ '{' :: rest) = '{' :: rest :=
      trimStart_append blank ((stops_cons _ _ _).mpr (by decide))
    unfold tryBlock?
    rw [split, takeWhile_append_of_stops indents stops, dropWhile_append_of_stops indents stops, after?_append]
    simp only [Option.bind_eq_bind, Option.bind_some, trimmed, startsWith_singleton_cons, decide_true, if_true,
      Option.some.injEq, TryBlock.mk.injEq, true_and, List.length_append, List.length_cons]
    omega

/-- A clause is read exactly where its head is written in front of a brace. -/
theorem catch?_eq_some_iff : catch? text = some clause ↔
    ∃ head rest, CatchHead head ∧ clause = '{' :: rest ∧ text = head ++ clause := by
  constructor
  · intro found
    unfold catch? at found
    obtain ⟨behindKeyword, keyword, found⟩ := Option.bind_eq_some_iff.mp found
    obtain ⟨behindOpener, opener, found⟩ := Option.bind_eq_some_iff.mp found
    obtain ⟨behindCloser, closer, found⟩ := Option.bind_eq_some_iff.mp found
    dsimp only at found
    split at found
    · next braced =>
      obtain ⟨rest, begins⟩ := startsWith_singleton_iff.mp braced
      obtain rfl := Option.some.inj found
      obtain ⟨⟨first, leads, rfl⟩, -⟩ := trimStart_eq_iff.mp (after?_eq_some_iff.mp keyword)
      obtain ⟨⟨second, opens, rfl⟩, -⟩ := trimStart_eq_iff.mp (after?_eq_some_iff.mp opener)
      obtain ⟨⟨third, closes, rfl⟩, -⟩ := trimStart_eq_iff.mp begins
      have inner := List.takeWhile_append_dropWhile (p := (· != ')')) (l := behindOpener)
      rw [after?_eq_some_iff.mp closer] at inner
      have single : ')' ∉ behindOpener.takeWhile (· != ')') := by
        intro member
        exact absurd (List.all_eq_true.mp List.all_takeWhile _ member) (by decide)
      refine ⟨_, rest, .intro leads opens single closes, begins, ?_⟩
      rw [begins]
      conv => lhs; rw [← inner]
      simp
    · cases found
  · rintro ⟨_, rest, @⟨first, second, inner, third, leads, opens, single, closes⟩, rfl, rfl⟩
    have split : first ++ "catch".toList ++ second ++ '(' :: inner ++ ')' :: third ++ '{' :: rest =
        first ++ ("catch".toList ++ (second ++ ('(' :: (inner ++ (')' :: (third ++ '{' :: rest)))))) := by
      simp
    have noCloser : ∀ c ∈ inner, (c != ')') = true := by
      intro c member
      rw [bne_iff_ne]
      rintro rfl
      exact single member
    unfold catch?
    have keyword : Stops isBlank ("catch".toList ++ (second ++ '(' :: (inner ++ ')' :: (third ++ '{' :: rest)))) :=
      (stops_cons _ _ _).mpr (by decide)
    rw [split, trimStart_append leads keyword, after?_append]
    simp only [Option.bind_eq_bind, Option.bind_some]
    rw [trimStart_append opens ((stops_cons _ _ _).mpr (by decide)), after?_singleton_cons, if_pos rfl,
      Option.bind_some, dropWhile_append_of_stops noCloser ((stops_cons _ _ _).mpr (by decide)),
      after?_singleton_cons, if_pos rfl, Option.bind_some,
      trimStart_append closes ((stops_cons _ _ _).mpr (by decide))]
    simp

/-! ## Finding blocks -/

/-- A position starts a line exactly if what is in front of it is empty or ends in a line feed. -/
theorem startsLine_iff (within : before <+: code) : startsLine code before.length = true ↔ StartsLine before := by
  obtain ⟨rest, rfl⟩ := within
  rcases List.eq_nil_or_concat before with rfl | ⟨front, c, rfl⟩
  · simp [startsLine, StartsLine]
  · rw [List.concat_eq_append]
    have last : (front ++ [c] ++ rest)[(front ++ [c]).length - 1]? = some c := by simp
    rw [startsLine, last]
    simp [StartsLine]

/-- A block is found exactly where it stands. -/
theorem TryIn.tryBlock? (found : TryIn code before indent head) :
    tryBlock? before.length (code.drop before.length) =
      some ⟨before.length, before.length + indent.length, before.length + head.length⟩ := by
  obtain ⟨rest, rfl⟩ := found.here
  refine tryBlock?_eq_some_iff.mpr ⟨indent, head, rest, found.isHead, ?_, rfl⟩
  simp

/-- A block that is read at the start of a line is a block of the code. -/
theorem exists_tryIn (within : before <+: code) (starts : StartsLine before)
    (found : Body.tryBlock? before.length (code.drop before.length) = some block) :
    ∃ indent head, TryIn code before indent head ∧
      block = ⟨before.length, before.length + indent.length, before.length + head.length⟩ := by
  obtain ⟨indent, head, rest, isHead, here, rfl⟩ := tryBlock?_eq_some_iff.mp found
  refine ⟨indent, head, ⟨⟨rest, ?_⟩, starts, isHead⟩, rfl⟩
  obtain ⟨behind, rfl⟩ := within
  rw [List.drop_left] at here
  simp [here]

theorem TryIn.prefix (found : TryIn code before indent head) : before <+: code :=
  (List.prefix_append _ _).trans ((List.prefix_append _ _).trans found.here)

theorem TryIn.length_lt (found : TryIn code before indent head) : before.length < code.length := by
  have shorter := found.here.length_le
  simp only [List.length_append, List.length_singleton] at shorter
  omega

theorem TryHead.takeWhile (isHead : TryHead indent head) : head.takeWhile isIndent = indent := by
  obtain ⟨indents, -⟩ := isHead
  rw [List.append_assoc]
  exact takeWhile_append_of_stops indents ((stops_cons _ _ _).mpr (by decide))

/-- There is one block at most behind a text. -/
theorem TryIn.unique {before' indent' head' : Text} (found : TryIn code before indent head)
    (found' : TryIn code before' indent' head') (same : before.length = before'.length) :
    before = before' ∧ indent = indent' ∧ head = head' := by
  have blocks := found.tryBlock?
  rw [same, found'.tryBlock?, Option.some.injEq, TryBlock.mk.injEq] at blocks
  obtain rfl : before = before' := by
    rw [List.prefix_iff_eq_take.mp found.prefix, List.prefix_iff_eq_take.mp found'.prefix, same]
  obtain ⟨rest, rfl⟩ := found.here
  obtain ⟨rest', split⟩ := found'.here
  obtain rfl : head = head' := by
    simp only [List.append_assoc, List.append_cancel_left_eq] at split
    exact ((List.append_inj split (by omega)).1).symm
  exact ⟨rfl, found.isHead.takeWhile.symm.trans found'.isHead.takeWhile, rfl⟩

/-- No line starts between the start of a block and the end of its keyword. -/
theorem TryIn.keyword_le {before' indent' head' : Text} (found : TryIn code before indent head)
    (found' : TryIn code before' indent' head') (behind : before.length < before'.length) :
    before.length + indent.length + 3 ≤ before'.length := by
  refine Nat.le_of_not_lt fun early => ?_
  obtain ⟨rest, whole⟩ : ∃ rest, code = before ++ ((indent ++ "try".toList) ++ rest) := by
    obtain ⟨rest, here⟩ := found.here
    obtain @⟨gap, -, -⟩ := found.isHead
    exact ⟨gap ++ ['{'] ++ rest, by rw [← here]; simp⟩
  have last : code[before'.length - 1]? = before'.getLast? := by
    obtain ⟨behind', rfl⟩ := found'.prefix
    rw [List.getLast?_eq_getElem?, List.getElem?_append_left (by omega)]
  have place : before'.length - 1 - before.length < (indent ++ "try".toList).length := by
    have keyword : ("try".toList).length = 3 := rfl
    rw [List.length_append, keyword]
    omega
  rw [whole, List.getElem?_append_right (by omega), List.getElem?_append_left place,
    List.getElem?_eq_getElem place] at last
  have feed := found'.starts _ last.symm
  have member := List.getElem_mem place
  rw [feed] at member
  rcases List.mem_append.mp member with inIndent | inKeyword
  · obtain @⟨gap, indents, -⟩ := found.isHead
    exact absurd (indents _ inIndent) (by decide)
  · exact absurd inKeyword (by decide)

/-- No block stands at the end of code of which the rest is searched, unless it is found there. -/
theorem exists_tryIn_of_fresh {front rest : Text}
    (found :
      (if startsLine (front ++ rest) front.length then Body.tryBlock? front.length rest else none) = some block) :
    ∃ indent head, TryIn (front ++ rest) front indent head ∧
      block = ⟨front.length, front.length + indent.length, front.length + head.length⟩ := by
  split at found
  · next fresh =>
    exact exists_tryIn (List.prefix_append front rest) ((startsLine_iff (List.prefix_append front rest)).mp fresh)
      (by rwa [List.drop_left])
  · cases found

/-- If no block starts at a position, those from there on start behind it. -/
theorem length_lt_of_not_fresh {front rest before indent head : Text}
    (missing : (if startsLine (front ++ rest) front.length then Body.tryBlock? front.length rest else none) = none)
    (found : TryIn (front ++ rest) before indent head) (behind : front.length ≤ before.length) :
    front.length < before.length := by
  refine Nat.lt_of_le_of_ne behind fun same => ?_
  have fresh := (startsLine_iff found.prefix).mpr found.starts
  have here := found.tryBlock?
  rw [← same, List.drop_left] at here
  rw [same, if_pos fresh, ← same, here] at missing
  cases missing

/-- The search goes on behind a character where no block starts. -/
theorem findTryFrom_of_missing {front rest : Text} {c : Char}
    (missing : (if startsLine (front ++ c :: rest) front.length then
      Body.tryBlock? front.length (c :: rest) else none) = none) :
    findTryFrom (startsLine (front ++ c :: rest) front.length) front.length (c :: rest) =
      findTryFrom (startsLine (front ++ [c] ++ rest) (front ++ [c]).length) (front ++ [c]).length rest := by
  have fresh : startsLine (front ++ [c] ++ rest) (front ++ [c]).length = (c == '\n') := by
    rw [Bool.eq_iff_iff, startsLine_iff (List.prefix_append (front ++ [c]) rest)]
    simp [StartsLine]
  rw [findTryFrom, missing, fresh, List.length_append, List.length_singleton]

/-- The first block of code from where some of it has been read. -/
theorem findTryFrom_eq_some {front rest : Text}
    (found : findTryFrom (startsLine (front ++ rest) front.length) front.length rest = some block) :
    ∃ before indent head, TryIn (front ++ rest) before indent head ∧ front.length ≤ before.length ∧
      block = ⟨before.length, before.length + indent.length, before.length + head.length⟩ ∧
      ∀ before' indent' head', TryIn (front ++ rest) before' indent' head' → front.length ≤ before'.length →
        before.length ≤ before'.length := by
  induction rest generalizing front with
  | nil => cases found
  | cons c rest ih =>
    cases here : if startsLine (front ++ c :: rest) front.length then
      Body.tryBlock? front.length (c :: rest) else none with
    | some first =>
      obtain ⟨indent, head, tryIn, rfl⟩ := exists_tryIn_of_fresh here
      rw [findTryFrom, here, Option.some.injEq] at found
      exact ⟨front, indent, head, tryIn, Nat.le_refl _, found.symm, fun _ _ _ _ behind => behind⟩
    | none =>
      rw [findTryFrom_of_missing here] at found
      obtain ⟨before, indent, head, tryIn, behind, rfl, first⟩ := ih found
      rw [List.append_assoc, List.singleton_append] at tryIn first
      rw [List.length_append, List.length_singleton] at behind first
      refine ⟨before, indent, head, tryIn, by omega, rfl, fun before' indent' head' tryIn' behind' => ?_⟩
      exact first before' indent' head' tryIn' (length_lt_of_not_fresh here tryIn' behind')

/-- If no block is found from a position on, all blocks start in front of it. -/
theorem findTryFrom_eq_none {front rest : Text}
    (missing : findTryFrom (startsLine (front ++ rest) front.length) front.length rest = none)
    (found : TryIn (front ++ rest) before indent head) : before.length < front.length := by
  induction rest generalizing front with
  | nil =>
    have shorter := found.length_lt
    rwa [List.append_nil] at shorter
  | cons c rest ih =>
    refine Nat.lt_of_not_le fun behind => ?_
    cases here : if startsLine (front ++ c :: rest) front.length then
      Body.tryBlock? front.length (c :: rest) else none with
    | some first =>
      rw [findTryFrom, here] at missing
      cases missing
    | none =>
      rw [findTryFrom_of_missing here] at missing
      have further := length_lt_of_not_fresh here found behind
      have early := ih missing (by rwa [List.append_assoc, List.singleton_append])
      rw [List.length_append, List.length_singleton] at early
      omega

/-- The first block of code that starts at an index or behind it. -/
structure FirstTry (code : Text) (index : Nat) (before indent head : Text) : Prop where
  tryIn : TryIn code before indent head
  behind : index ≤ before.length
  first : ∀ before' indent' head', TryIn code before' indent' head' → index ≤ before'.length →
    before.length ≤ before'.length

/-- The block that is found is the first one from the index on. -/
theorem exists_firstTry_of_findTry (found : findTry code index = some block) :
    ∃ before indent head, FirstTry code index before indent head ∧
      block = ⟨before.length, before.length + indent.length, before.length + head.length⟩ := by
  rcases Nat.le_total index code.length with within | beyond
  · have split := List.take_append_drop index code
    have width := List.length_take_of_le within
    have search := @findTryFrom_eq_some block (code.take index) (code.drop index)
    rw [split, width] at search
    obtain ⟨before, indent, head, tryIn, behind, rfl, first⟩ := search found
    exact ⟨before, indent, head, ⟨tryIn, behind, first⟩, rfl⟩
  · rw [findTry, List.drop_eq_nil_of_le beyond] at found
    cases found

/-- If no block is found from an index on, all blocks start in front of it. -/
theorem length_lt_of_findTry (missing : findTry code index = none) (found : TryIn code before indent head) :
    before.length < index := by
  rcases Nat.le_total index code.length with within | beyond
  · have split := List.take_append_drop index code
    have width := List.length_take_of_le within
    have search := @findTryFrom_eq_none before indent head (code.take index) (code.drop index)
    rw [split, width] at search
    exact search missing found
  · exact Nat.lt_of_lt_of_le found.length_lt beyond

/-- The first block from an index on is found. -/
theorem FirstTry.findTry (first : FirstTry code index before indent head) :
    findTry code index =
      some ⟨before.length, before.length + indent.length, before.length + head.length⟩ := by
  cases found : Body.findTry code index with
  | none =>
    have early := length_lt_of_findTry found first.tryIn
    have behind := first.behind
    omega
  | some block =>
    obtain ⟨before', indent', head', first', rfl⟩ := exists_firstTry_of_findTry found
    have same := Nat.le_antisymm (first.first _ _ _ first'.tryIn first'.behind)
      (first'.first _ _ _ first.tryIn first.behind)
    obtain ⟨rfl, rfl, rfl⟩ := first.tryIn.unique first'.tryIn same
    rfl

/-! ## Steps -/

/-- A `try` block in code that has its closing brace and is no wrapper. -/
structure KeptIn (marker : Content) (code before indent head raw : Text) : Prop where
  here : before ++ head ++ '{' :: raw ++ ['}'] <+: code
  encloses : brace.Encloses raw
  plain : ∀ clause, ¬WrapperIn marker code before indent head raw clause

/-- A step over a body: it goes on behind the keyword of the first `try` block, and the code of a wrapper takes
the place of the wrapper. -/
inductive StepAt (marker : Content) (code : Text) (index : Nat) : UnwrapStep → Prop
  | kept {before indent head raw : Text} (first : FirstTry code index before indent head)
      (kept : KeptIn marker code before indent head raw) :
      StepAt marker code index ⟨code, before.length + indent.length + 3, none⟩
  | removed {before indent head raw clause handler rest : Text} (first : FirstTry code index before indent head)
      (wrapper : WrapperIn marker code before indent head raw clause) (handles : brace.Encloses handler)
      (whole : code = before ++ head ++ '{' :: raw ++ '}' :: clause ++ '{' :: handler ++ '}' :: rest) :
      StepAt marker code index
        ⟨before ++ unwrapped raw ++ rest, before.length + indent.length + 3, some before.length⟩

/-- A bracket behind a text is matched by the closing one behind what it encloses. -/
theorem matchBracket_append_eq_ok_iff (bracket : Bracket) (front : Text) {behind : Text} {close : Nat} :
    matchBracket (front ++ bracket.opener :: behind) front.length = .ok close ↔
      ∃ raw rest, behind = raw ++ bracket.closer :: rest ∧ close = front.length + 1 + raw.length ∧
        bracket.Encloses raw := by
  have opens : ((front ++ bracket.opener :: behind).drop front.length).head? = some bracket.opener := by simp
  rw [matchBracket_eq_ok_iff opens]
  constructor
  · rintro ⟨raw, spans, encloses⟩
    have here := spans.here
    have width := spans.width
    rw [List.drop_left, List.append_assoc, List.cons_append, List.cons.injEq] at here
    simp only [List.length_append, List.length_cons, List.length_nil] at width
    exact ⟨raw, _, here.2, by omega, encloses⟩
  · rintro ⟨raw, rest, rfl, rfl, encloses⟩
    have here : (front ++ bracket.opener :: (raw ++ bracket.closer :: rest)).drop front.length =
        (bracket.opener :: raw ++ [bracket.closer]) ++ rest := by simp
    refine ⟨raw, .of_drop here ?_, encloses⟩
    simp only [List.length_append, List.length_cons, List.length_nil]
    omega

/-- What a bracket encloses is determined by the text behind it. -/
theorem encloses_unique {bracket : Bracket} {raw raw' rest rest' : Text}
    (same : raw ++ bracket.closer :: rest = raw' ++ bracket.closer :: rest')
    (encloses : bracket.Encloses raw) (encloses' : bracket.Encloses raw') : raw = raw' := by
  have matched : matchBracket (bracket.opener :: (raw ++ bracket.closer :: rest)) 0 = .ok (0 + 1 + raw.length) :=
    (matchBracket_append_eq_ok_iff bracket []).mpr ⟨raw, rest, rfl, rfl, encloses⟩
  have matched' : matchBracket (bracket.opener :: (raw ++ bracket.closer :: rest)) 0 = .ok (0 + 1 + raw'.length) :=
    (matchBracket_append_eq_ok_iff bracket []).mpr ⟨raw', rest', same, rfl, encloses'⟩
  have lengths := Except.ok.inj (matched.symm.trans matched')
  exact (List.append_inj same (by omega)).1

/-- The body of a wrapper is determined by its brace. -/
theorem WrapperIn.raw_unique {raw' : Text} (wrapper : WrapperIn marker code before indent head raw clause)
    (here : before ++ head ++ '{' :: raw' ++ ['}'] <+: code) (encloses : brace.Encloses raw') : raw = raw' := by
  obtain ⟨rest, rfl⟩ := wrapper.here
  obtain ⟨rest', same⟩ := here
  have split : raw ++ brace.closer :: (clause ++ '{' :: rest) = raw' ++ brace.closer :: rest' := by
    simpa [closer] using same.symm
  exact encloses_unique split wrapper.encloses encloses

/-- A step that finds a block with its closing brace tells wrappers by what the block holds and what follows. -/
theorem unwrapStep_of_firstTry {rest : Text} (first : FirstTry code index before indent head)
    (whole : code = before ++ head ++ '{' :: raw ++ '}' :: rest) (encloses : brace.Encloses raw) :
    unwrapStep marker code index =
      if marker.occursIn raw then
        match catch? rest with
        | none => .ok (some ⟨code, before.length + indent.length + 3, none⟩)
        | some body => (matchBracket code (code.length - body.length)).bind fun close =>
          .ok (some ⟨before ++ unwrapped raw ++ code.drop (close + 1), before.length + indent.length + 3,
            some before.length⟩)
      else .ok (some ⟨code, before.length + indent.length + 3, none⟩) := by
  have opened : before.length + head.length = (before ++ head).length := by simp
  have here : code.drop (before ++ head).length = (brace.opener :: raw ++ [brace.closer]) ++ rest := by
    rw [whole, List.append_assoc, List.drop_left]
    simp [opener, closer]
  have spans : Spans code (before ++ head).length (brace.opener :: raw ++ [brace.closer])
      ((before ++ head).length + 1 + raw.length + 1) := by
    refine .of_drop here ?_
    simp only [List.length_append, List.length_cons, List.length_nil]
    omega
  have matched : matchBracket code (before ++ head).length = .ok ((before ++ head).length + 1 + raw.length) :=
    (matchBracket_eq_ok_iff (by rw [here]; rfl)).mpr ⟨raw, spans, encloses⟩
  have take_eq : code.take before.length = before := by
    rw [whole, List.append_assoc, List.append_assoc, List.take_left' rfl]
  rw [unwrapStep, first.findTry]
  dsimp only
  rw [opened, matched]
  dsimp only [Bind.bind, Except.bind]
  rw [spans.slice_inside, spans.drop_stop here, take_eq]
  rfl

/-- A block that is no wrapper is passed. -/
theorem KeptIn.unwrapStep (kept : KeptIn marker code before indent head raw)
    (first : FirstTry code index before indent head) :
    unwrapStep marker code index = .ok (some ⟨code, before.length + indent.length + 3, none⟩) := by
  obtain ⟨rest, here⟩ := kept.here
  have whole : code = before ++ head ++ '{' :: raw ++ '}' :: rest := by
    rw [← here]
    simp
  rw [unwrapStep_of_firstTry first whole kept.encloses]
  split
  · next mentions =>
    split
    · rfl
    · next body caught =>
      obtain ⟨clause, inside, isClause, rfl, rfl⟩ := catch?_eq_some_iff.mp caught
      refine absurd ⟨⟨inside, ?_⟩, first.tryIn.starts, first.tryIn.isHead, kept.encloses, mentions, isClause⟩
        (kept.plain clause)
      rw [whole]
      simp
  · rfl

/-- A wrapper is removed when the brace of its `catch` clause is closed. -/
theorem WrapperIn.unwrapStep {inside : Text} (wrapper : WrapperIn marker code before indent head raw clause)
    (first : FirstTry code index before indent head)
    (whole : code = before ++ head ++ '{' :: raw ++ '}' :: clause ++ '{' :: inside) :
    unwrapStep marker code index =
      (matchBracket code (before ++ head ++ '{' :: raw ++ '}' :: clause).length).bind fun close =>
        .ok (some ⟨before ++ unwrapped raw ++ code.drop (close + 1), before.length + indent.length + 3,
          some before.length⟩) := by
  have split : code = before ++ head ++ '{' :: raw ++ '}' :: (clause ++ '{' :: inside) := by simp [whole]
  have caught : catch? (clause ++ '{' :: inside) = some ('{' :: inside) :=
    catch?_eq_some_iff.mpr ⟨clause, inside, wrapper.caught, rfl, rfl⟩
  have opened : code.length - ('{' :: inside).length = (before ++ head ++ '{' :: raw ++ '}' :: clause).length := by
    have lengths := congrArg List.length whole
    rw [List.length_append] at lengths
    omega
  rw [unwrapStep_of_firstTry first split wrapper.encloses, if_pos wrapper.mentions, caught]
  dsimp only
  rw [opened]

/-- The code of a wrapper takes the place of the wrapper. -/
theorem WrapperIn.unwrapStep_of_handler {handler rest : Text}
    (wrapper : WrapperIn marker code before indent head raw clause) (first : FirstTry code index before indent head)
    (handles : brace.Encloses handler)
    (whole : code = before ++ head ++ '{' :: raw ++ '}' :: clause ++ '{' :: handler ++ '}' :: rest) :
    Body.unwrapStep marker code index =
      .ok (some ⟨before ++ unwrapped raw ++ rest, before.length + indent.length + 3, some before.length⟩) := by
  have split : code = before ++ head ++ '{' :: raw ++ '}' :: clause ++ '{' :: (handler ++ '}' :: rest) := by
    simp [whole]
  have closed : matchBracket code (before ++ head ++ '{' :: raw ++ '}' :: clause).length =
      .ok ((before ++ head ++ '{' :: raw ++ '}' :: clause).length + 1 + handler.length) := by
    rw [split]
    exact (matchBracket_append_eq_ok_iff brace _).mpr ⟨handler, rest, rfl, rfl, handles⟩
  have behind : code.drop ((before ++ head ++ '{' :: raw ++ '}' :: clause).length + 1 + handler.length + 1) = rest := by
    have regrouped : code = before ++ head ++ '{' :: raw ++ '}' :: clause ++ '{' :: handler ++ ['}'] ++ rest := by
      simp [whole]
    rw [regrouped]
    refine List.drop_left' ?_
    simp only [List.length_append, List.length_cons, List.length_nil]
    omega
  rw [wrapper.unwrapStep first split, closed]
  dsimp only [Except.bind]
  rw [behind]

/-- A block whose closing brace is found, with the code behind it. -/
theorem exists_closed_of_unwrapStep {step : Option UnwrapStep} (first : FirstTry code index before indent head)
    (ran : unwrapStep marker code index = .ok step) :
    ∃ raw rest, code = before ++ head ++ '{' :: raw ++ '}' :: rest ∧ brace.Encloses raw := by
  rw [unwrapStep, first.findTry] at ran
  obtain ⟨close, matched, -⟩ := exceptBind_eq_ok_iff.mp ran
  obtain ⟨behind, braced⟩ := first.tryIn.here
  have opened : before.length + head.length = (before ++ head).length := by simp
  have split : code = before ++ head ++ brace.opener :: behind := by
    rw [← braced]
    simp [opener]
  rw [opened, split] at matched
  obtain ⟨raw, rest, rfl, -, encloses⟩ := (matchBracket_append_eq_ok_iff brace _).mp matched
  exact ⟨raw, rest, by simpa [opener, closer] using split, encloses⟩

/-- A step finds nothing exactly if there is no further block. -/
theorem unwrapStep_eq_none_iff : unwrapStep marker code index = .ok none ↔ findTry code index = none := by
  constructor
  · intro ran
    cases found : findTry code index with
    | none => rfl
    | some block =>
      simp only [unwrapStep, found] at ran
      obtain ⟨close, -, ran⟩ := exceptBind_eq_ok_iff.mp ran
      split at ran
      · split at ran
        · cases ran
        · obtain ⟨clauseClose, -, ran⟩ := exceptBind_eq_ok_iff.mp ran
          cases ran
      · cases ran
  · intro missing
    rw [unwrapStep, missing]
    rfl

/-- A step does one of two things to the first block. -/
theorem unwrapStep_eq_some_iff {step : UnwrapStep} :
    unwrapStep marker code index = .ok (some step) ↔ StepAt marker code index step := by
  constructor
  · intro ran
    cases found : findTry code index with
    | none => simp [unwrapStep, found, pure, Except.pure] at ran
    | some block =>
      obtain ⟨before, indent, head, first, -⟩ := exists_firstTry_of_findTry found
      obtain ⟨raw, rest, whole, encloses⟩ := exists_closed_of_unwrapStep first ran
      by_cases wraps : ∃ clause, WrapperIn marker code before indent head raw clause
      · obtain ⟨clause, wrapper⟩ := wraps
        obtain ⟨inside, here⟩ := wrapper.here
        have split : code = before ++ head ++ '{' :: raw ++ '}' :: clause ++ brace.opener :: inside := by
          rw [← here]
          simp [opener]
        have removes := ran
        rw [wrapper.unwrapStep first split] at removes
        obtain ⟨close, closed, -⟩ := exceptBind_eq_ok_iff.mp removes
        conv at closed => lhs; arg 1; rw [split]
        obtain ⟨handler, behind, rfl, -, handles⟩ := (matchBracket_append_eq_ok_iff brace _).mp closed
        have written : code = before ++ head ++ '{' :: raw ++ '}' :: clause ++ '{' :: handler ++ '}' :: behind := by
          rw [split]
          simp [opener, closer]
        rw [wrapper.unwrapStep_of_handler first handles written] at ran
        obtain rfl := Option.some.inj (Except.ok.inj ran)
        exact .removed first wrapper handles written
      · have kept : KeptIn marker code before indent head raw :=
          ⟨⟨rest, by simp [whole]⟩, encloses, fun clause wrapper => wraps ⟨clause, wrapper⟩⟩
        rw [kept.unwrapStep first] at ran
        obtain rfl := Option.some.inj (Except.ok.inj ran)
        exact .kept first kept
  · rintro (⟨first, kept⟩ | ⟨first, wrapper, handles, whole⟩)
    · exact kept.unwrapStep first
    · exact wrapper.unwrapStep_of_handler first handles whole

/-- A step that removes a wrapper makes the code shorter. -/
theorem StepAt.length_lt {step : UnwrapStep} (stepAt : StepAt marker code index step)
    (removes : step.removed ≠ none) : step.code.length < code.length := by
  cases stepAt with
  | kept first kept => exact absurd rfl removes
  | @removed before indent head raw clause handler rest first wrapper handles whole =>
    have shorter := (unwrapped_sublist raw).length_le
    simp only [whole, List.length_append, List.length_cons]
    omega

/-- A step makes no code longer. -/
theorem StepAt.length_le {step : UnwrapStep} (stepAt : StepAt marker code index step) :
    step.code.length ≤ code.length := by
  cases stepAt with
  | kept first kept => exact Nat.le_refl _
  | removed first wrapper handles whole =>
    exact Nat.le_of_lt ((StepAt.removed first wrapper handles whole).length_lt (by simp))

/-- A step that removes nothing leaves the code as it is. -/
theorem StepAt.code_eq {step : UnwrapStep} (stepAt : StepAt marker code index step) (keeps : step.removed = none) :
    step.code = code := by
  cases stepAt with
  | kept first kept => rfl
  | removed first wrapper handles whole => cases keeps

/-- Unwrapping makes no code longer. -/
theorem length_le_of_unwrapFrom {bound : Nat} {result : Text}
    (ran : (unwrapFrom marker bound code index).2 = .ok result) :
    result.length ≤ code.length := by
  induction bound generalizing code index with
  | zero =>
    cases ran
    exact Nat.le_refl _
  | succ bound ih =>
    rcases unwrapFrom_eq_ok_iff.mp ran with ⟨-, rfl⟩ | ⟨next, stepped, ran⟩
    · exact Nat.le_refl _
    · exact Nat.le_trans (ih ran) (unwrapStep_eq_some_iff.mp stepped).length_le

end Body

end JasmineConversion
