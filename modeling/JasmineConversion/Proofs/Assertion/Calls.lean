import JasmineConversion.Proofs.Body.Progress
import JasmineConversion.Proofs.Suite.Pattern
import JasmineConversion.Proofs.Text.Replace

/-! # Where assertion calls start

An assertion call is recognised by its head, which ends at its parenthesis, and by the character before it.
Looking for one gives the first place in a text where a call starts.
-/

namespace JasmineConversion.AssertionCall

open Text Source

/-- A namespace that ends in `Assert`, a dot, the name of a function, and white space. -/
structure PlainHead (head space function : Text) : Prop where
  words : ∀ c ∈ space, isWord c = true
  named : endsWith "Assert".toList space = true
  word : ∀ c ∈ function, isWord c = true
  nonempty : function ≠ []
  parts : ∃ blank, isBlankText blank = true ∧ head = space ++ '.' :: function ++ blank

/-- The head of an assertion call, up to its parenthesis. -/
inductive CallHead : (head space function : Text) → Prop
  | plain {head space function : Text} (parts : PlainHead head space function) : CallHead head space function
  | qualified {head space function : Text} (parts : PlainHead head space function) :
      CallHead ('Y' :: '.' :: head) space function

/-- A call may start behind a character, if there is one: it goes on with no name. -/
def Apart (previous : Option Char) : Prop :=
  startsFresh previous = true ∧ previous ≠ some '.'

/-- An assertion call stands at the front of a text, behind a given character. -/
def CallAt (previous : Option Char) (text : Text) : Prop :=
  Apart previous ∧ ∃ head space function rest, CallHead head space function ∧ text = head ++ '(' :: rest

/-- No assertion call starts in a text, which follows a given character. -/
def CallFree (previous : Option Char) (text : Text) : Prop :=
  ∀ front back, text = front ++ back → ¬ CallAt (front.getLast?.or previous) back

variable {previous : Option Char} {text head space function rest : Text} {index : Nat} {c : Char}
  {call : AssertionCall}

/-! ## Heads -/

theorem isWord_of_isBlank (white : isBlank c = true) : isWord c = false := by
  have part := Pattern.isIdentifierPart_of_isBlank white
  rw [isIdentifierPart, Bool.or_eq_false_iff] at part
  exact part.1

/-- What stands between the name of a function and its parenthesis ends a word. -/
theorem PlainHead.stops {blank : Text} (white : isBlankText blank = true) (rest : Text) :
    Stops isWord (blank ++ '(' :: rest) := by
  cases blank with
  | nil => exact (stops_cons _ _ _).mpr (by decide)
  | cons c blank =>
    exact (stops_cons _ _ _).mpr (isWord_of_isBlank (isBlankText_iff.mp white c List.mem_cons_self))

/-- The head of a call is found exactly where one is written in front of a parenthesis. -/
theorem head?_eq_some_iff {call : Text} : head? text = some (space, function, call) ↔
    ∃ head rest, PlainHead head space function ∧ call = '(' :: rest ∧ text = head ++ '(' :: rest := by
  constructor
  · intro found
    unfold head? at found
    obtain ⟨behind, dot, found⟩ := Option.bind_eq_some_iff.mp found
    dsimp only at found
    split at found
    · next holds =>
      obtain ⟨rfl, rfl, rfl⟩ : _ = space ∧ _ = function ∧ _ = call := by simpa using found
      rw [Bool.and_eq_true, Bool.and_eq_true] at holds
      obtain ⟨⟨named, nonempty⟩, opens⟩ := holds
      obtain ⟨rest, call⟩ := startsWith_singleton_iff.mp opens
      have split := after?_eq_some_iff.mp dot
      refine ⟨text.takeWhile isWord ++ '.' :: behind.takeWhile isWord ++
        (behind.dropWhile isWord).takeWhile isBlank, rest, ⟨?_, named, ?_, ?_, _, List.all_takeWhile, rfl⟩,
        call, ?_⟩
      · exact List.all_eq_true.mp List.all_takeWhile
      · exact List.all_eq_true.mp List.all_takeWhile
      · simpa using nonempty
      · rw [← call]
        conv => lhs; rw [← @List.takeWhile_append_dropWhile _ isWord text, split,
          ← @List.takeWhile_append_dropWhile _ isWord behind,
          ← @List.takeWhile_append_dropWhile _ isBlank (behind.dropWhile isWord)]
        simp [trimStart]
    · cases found
  · rintro ⟨head, rest, ⟨words, named, word, nonempty, blank, white, rfl⟩, rfl, rfl⟩
    have dot : Stops isWord ('.' :: (function ++ (blank ++ '(' :: rest))) :=
      (stops_cons _ _ _).mpr (by decide)
    have stops := PlainHead.stops white rest
    have solid : Stops isBlank ('(' :: rest) := (stops_cons _ _ _).mpr (by decide)
    have whole : space ++ '.' :: function ++ blank ++ '(' :: rest =
        space ++ '.' :: (function ++ (blank ++ '(' :: rest)) := by simp
    unfold head?
    rw [whole, takeWhile_append_of_stops words dot, dropWhile_append_of_stops words dot,
      after?_singleton_cons, if_pos rfl]
    simp only [Option.bind_eq_bind, Option.bind_some]
    rw [takeWhile_append_of_stops word stops, dropWhile_append_of_stops word stops,
      trimStart_append white solid, named]
    simp [nonempty]

/-- A name without a namespace is not the start of a qualified one. -/
theorem PlainHead.not_qualified (parts : PlainHead head space function) (rest behind : Text) :
    head ++ '(' :: rest ≠ "Y.".toList ++ behind := by
  obtain ⟨words, named, -, -, blank, -, rfl⟩ := parts
  intro same
  have whole : space ++ '.' :: (function ++ (blank ++ '(' :: rest)) = ['Y'] ++ '.' :: behind := by
    simpa using same
  have dot (text : Text) : Stops isWord ('.' :: text) := (stops_cons _ _ _).mpr (by decide)
  obtain ⟨rfl, -⟩ := run_unique words (dot _) (by decide) (dot _) whole
  exact absurd named (by decide)

/-- A call is found exactly where the head of one is written apart from what is in front of it. -/
theorem at?_eq_some_iff : at? index previous text = some call ↔
    Apart previous ∧ ∃ head rest, CallHead head call.space call.function ∧ text = head ++ '(' :: rest ∧
      call.start = index ∧ call.opened = index + head.length := by
  have width (head rest : Text) : (head ++ '(' :: rest).length - ('(' :: rest).length = head.length := by
    simp
  unfold at? Apart
  rw [← bne_iff_ne, ← Bool.and_eq_true]
  split
  · next apart =>
    rw [Option.map_eq_some_iff]
    constructor
    · rintro ⟨⟨space, function, behind⟩, found, rfl⟩
      refine ⟨apart, ?_⟩
      rcases Option.or_eq_some_iff.mp found with qualified | ⟨-, plain⟩
      · obtain ⟨more, prefixed, headed⟩ := Option.bind_eq_some_iff.mp qualified
        obtain ⟨head, rest, parts, rfl, rfl⟩ := head?_eq_some_iff.mp headed
        obtain rfl := after?_eq_some_iff.mp prefixed
        exact ⟨_, rest, .qualified parts, rfl, rfl, congrArg (index + ·) (width ('Y' :: '.' :: head) rest)⟩
      · obtain ⟨head, rest, parts, rfl, rfl⟩ := head?_eq_some_iff.mp plain
        exact ⟨head, rest, .plain parts, rfl, rfl, congrArg (index + ·) (width head rest)⟩
    · rintro ⟨-, head, rest, headed, rfl, start, opened⟩
      obtain ⟨callStart, space, function, callOpened⟩ := call
      obtain rfl : callStart = index := start
      obtain rfl : callOpened = callStart + head.length := opened
      refine ⟨(space, function, '(' :: rest), ?_, by simp only [width]⟩
      generalize whole : head ++ '(' :: rest = text
      cases headed with
      | plain parts =>
        have absent : after? "Y.".toList text = none := by
          cases prefixed : after? "Y.".toList text with
          | none => rfl
          | some behind =>
            exact absurd (whole.trans (after?_eq_some_iff.mp prefixed)) (parts.not_qualified rest behind)
        rw [absent]
        exact head?_eq_some_iff.mpr ⟨head, rest, parts, rfl, whole.symm⟩
      | @qualified head space function parts =>
        subst whole
        have found := head?_eq_some_iff.mpr ⟨head, rest, parts, rfl, rfl⟩
        change ((after? ['Y', '.'] ('Y' :: '.' :: (head ++ '(' :: rest))).bind head?).or _ = _
        simp [after?, found]
  · next blocked =>
    constructor
    · intro found
      cases found
    · rintro ⟨apart, -⟩
      exact absurd apart blocked

/-- No call is found exactly where none starts. -/
theorem at?_eq_none_iff : at? index previous text = none ↔ ¬ CallAt previous text := by
  constructor
  · rintro absent ⟨apart, head, space, function, rest, headed, rfl⟩
    have found : at? index previous (head ++ '(' :: rest) =
        some ⟨index, space, function, index + head.length⟩ :=
      at?_eq_some_iff.mpr ⟨apart, head, rest, headed, rfl, rfl, rfl⟩
    cases absent.symm.trans found
  · intro elsewhere
    cases found : at? index previous text with
    | none => rfl
    | some call =>
      obtain ⟨apart, head, rest, headed, same, -⟩ := at?_eq_some_iff.mp found
      exact absurd ⟨apart, head, _, _, rest, headed, same⟩ elsewhere

instance (previous : Option Char) (text : Text) : Decidable (CallAt previous text) :=
  decidable_of_iff ((at? 0 previous text).isSome = true) (by
    rw [← Option.ne_none_iff_isSome, Ne, at?_eq_none_iff, Classical.not_not])

/-! ## The first call -/

theorem not_callAt_nil : ¬ CallAt previous [] := by
  rintro ⟨-, head, space, function, rest, -, same⟩
  simp at same

theorem callFree_nil (previous : Option Char) : CallFree previous [] := by
  intro front back split
  obtain ⟨rfl, rfl⟩ := List.append_eq_nil_iff.mp split.symm
  exact not_callAt_nil

/-- A text is free of calls if none starts at its first character and none behind it. -/
theorem callFree_cons :
    CallFree previous (c :: text) ↔ ¬ CallAt previous (c :: text) ∧ CallFree (some c) text := by
  constructor
  · intro free
    refine ⟨free [] (c :: text) rfl, ?_⟩
    rintro front back rfl
    rw [← getLast?_cons_or c front previous]
    exact free (c :: front) back rfl
  · rintro ⟨here, further⟩ front back split
    rcases List.cons_eq_append_iff.mp split with ⟨rfl, rfl⟩ | ⟨more, rfl, same⟩
    · exact here
    · rw [getLast?_cons_or]
      exact further more back same

instance decidableCallFree : (previous : Option Char) → (text : Text) → Decidable (CallFree previous text)
  | previous, [] => .isTrue (callFree_nil previous)
  | _, c :: text =>
    have := decidableCallFree (some c) text
    decidable_of_iff _ callFree_cons.symm

/-- A search fails exactly in a text that is free of calls. -/
theorem findFrom_eq_none_iff : findFrom index previous text = none ↔ CallFree previous text := by
  induction text generalizing index previous with
  | nil => exact iff_of_true rfl (callFree_nil previous)
  | cons c text ih =>
    rw [callFree_cons, ← @at?_eq_none_iff _ _ index, ← @ih _ (index + 1), findFrom]
    cases at? index previous (c :: text) <;> simp

/-- The first call of a text starts behind a gap in which none does. -/
theorem exists_gap_of_findFrom (found : findFrom index previous text = some call) :
    ∃ gap rest, text = gap ++ rest ∧ at? (index + gap.length) (gap.getLast?.or previous) rest = some call ∧
      ∀ front back, gap = front ++ back → back ≠ [] →
        ¬ CallAt (front.getLast?.or previous) (back ++ rest) := by
  induction text generalizing index previous with
  | nil => cases found
  | cons c text ih =>
    rw [findFrom] at found
    split at found
    · next here =>
      obtain rfl := Option.some.inj found
      refine ⟨[], c :: text, rfl, here, ?_⟩
      intro front back split nonempty
      exact absurd (List.append_eq_nil_iff.mp split.symm).2 nonempty
    · next absent =>
      obtain ⟨gap, rest, rfl, here, free⟩ := ih found
      refine ⟨c :: gap, rest, rfl, ?_, ?_⟩
      · rw [getLast?_cons_or, List.length_cons, Nat.add_comm gap.length, ← Nat.add_assoc]
        exact here
      · intro front back split nonempty
        rcases List.cons_eq_append_iff.mp split with ⟨rfl, rfl⟩ | ⟨more, rfl, same⟩
        · exact at?_eq_none_iff.mp absent
        · rw [getLast?_cons_or]
          exact free more back same nonempty

/-- A search from behind a text starts with the last character of this text in front of it. -/
theorem find_append (before rest : Text) :
    find (before ++ rest) before.length = findFrom before.length before.getLast? rest := by
  have previous : (if before.length = 0 then none else (before ++ rest)[before.length - 1]?) =
      before.getLast? := by
    rcases List.eq_nil_or_concat before with rfl | ⟨more, c, rfl⟩
    · rfl
    · simp
  rw [find, previous, List.drop_left]

end JasmineConversion.AssertionCall
