import JasmineConversion.Proofs.Source.Passage
import JasmineConversion.Suite.Pattern

/-! # The heads of suite constructs as they are written

Each head that a pattern finds is put together from fixed words, names and white space. A pattern
finds its head exactly where it is written so, and gives the names in it and the text behind it.
-/

namespace JasmineConversion.Pattern

open Text

/-- A name, a colon and the white space around the colon. -/
def Key (name head : Text) : Prop :=
  ∃ before behind, isBlankText before = true ∧ isBlankText behind = true ∧
    head = name ++ before ++ ':' :: behind

/-- The head of a function, up to the brace that opens its body. -/
def FunctionHead (parameters head : Text) : Prop :=
  ∃ before behind, isBlankText before = true ∧ isBlankText behind = true ∧ ')' ∉ parameters ∧
    head = "function".toList ++ before ++ '(' :: parameters ++ ')' :: behind

/-- An identifier, which starts with a letter of ASCII, an underscore or a dollar sign. -/
def Identifier (name : Text) : Prop :=
  name.head?.any isIdentifierStart = true ∧ ∀ c ∈ name, isIdentifierPart c = true

instance (name : Text) : Decidable (Identifier name) :=
  inferInstanceAs (Decidable (_ ∧ _))

/-- How the name of a test is written. Without an underscore behind the marker, the name must not
look as if there was one. -/
inductive TestMark (name : Text) : Text → Prop
  | underscore (identifier : Identifier name) : TestMark name ("test_".toList ++ name)
  | plain (identifier : Identifier name)
      (noMarker : ∀ more, name = '_' :: more → ¬ more.head?.any isIdentifierStart = true) :
      TestMark name ("test".toList ++ name)

/-- The call of a constructor, up to the brace of its argument. -/
def Call (constructor head : Text) : Prop :=
  ∃ apart before behind, isBlankText apart = true ∧ apart ≠ [] ∧ isBlankText before = true ∧
    isBlankText behind = true ∧ constructor.head?.any isIdentifierStart = true ∧
    (∀ c ∈ constructor, isDotted c = true) ∧
    head = "new".toList ++ apart ++ constructor ++ before ++ '(' :: behind

/-- A text that starts with an opening brace. -/
def Braced (text : Text) : Prop :=
  ∃ rest, text = '{' :: rest

theorem startsWith_brace_iff {text : Text} : startsWith ['{'] text = true ↔ Braced text :=
  startsWith_singleton_iff

/-- A brace stops what does not go on with one. -/
theorem Braced.stops {text : Text} (braced : Braced text) {p : Char → Bool} (stop : p '{' = false) :
    Stops p text := by
  obtain ⟨rest, rfl⟩ := braced
  simpa using stop

/-- An identifier starts with a character of ASCII. -/
theorem toNat_lt_of_isIdentifierStart {c : Char} (starts : isIdentifierStart c = true) : c.toNat < 128 := by
  simp only [isIdentifierStart, Bool.or_eq_true, beq_iff_eq] at starts
  rcases starts with (letter | rfl) | rfl
  · delta Char.isAlpha Char.isUpper Char.isLower at letter
    simp only [Bool.or_eq_true, Bool.and_eq_true, decide_eq_true_eq, UInt32.le_iff_toNat_le,
      ge_iff_le] at letter
    change c.val.toNat < 128
    rcases letter with ⟨-, upper⟩ | ⟨-, upper⟩ <;> exact Nat.lt_of_le_of_lt upper (by decide)
  · decide
  · decide

/-- The start of an identifier is a part of one. -/
theorem isIdentifierPart_of_isIdentifierStart {c : Char} (starts : isIdentifierStart c = true) :
    isIdentifierPart c = true := by
  have small := toNat_lt_of_isIdentifierStart starts
  simp only [isIdentifierStart, Bool.or_eq_true, beq_iff_eq] at starts
  rcases starts with (letter | rfl) | rfl
  · simp [isIdentifierPart, isWord, small, Char.isAlphanum, letter]
  · decide
  · decide

private theorem isIdentifierPart_blankRanges : ∀ range ∈ blankRanges,
    ∀ k < range.2 + 1 - range.1, isIdentifierPart (Char.ofNat (range.1 + k)) = false := by
  decide +kernel

/-- White space ends an identifier. -/
theorem isIdentifierPart_of_isBlank {c : Char} (white : isBlank c = true) :
    isIdentifierPart c = false := by
  simp only [isBlank, CodeRanges.holds, CodeRanges.covers, List.any_eq_true, Bool.and_eq_true,
    decide_eq_true_eq] at white
  obtain ⟨range, member, low, high⟩ := white
  have apart := isIdentifierPart_blankRanges range member (c.toNat - range.1) (by omega)
  rwa [Nat.add_sub_cancel' low, Char.ofNat_toNat] at apart

theorem isDotted_of_isBlank {c : Char} (white : isBlank c = true) : isDotted c = false := by
  have point := ne_of_isBlank white (show isBlank '.' = false by decide)
  simp [isDotted, isIdentifierPart_of_isBlank white, point]

theorem isBlank_of_isDotted {c : Char} (dotted : isDotted c = true) : isBlank c = false := by
  rw [Bool.eq_false_iff]
  intro white
  simp [isDotted_of_isBlank white] at dotted

/-- The start of an identifier is no white space. -/
theorem isBlank_of_isIdentifierStart {c : Char} (starts : isIdentifierStart c = true) :
    isBlank c = false := by
  rw [Bool.eq_false_iff]
  intro white
  have part := isIdentifierPart_of_isIdentifierStart starts
  simp [isIdentifierPart_of_isBlank white] at part

/-- White space and a character that ends a run end the run together. -/
theorem stops_blank_append {p : Char → Bool} {blank rest : Text} (apart : ∀ c, isBlank c = true → p c = false)
    (allBlank : isBlankText blank = true) (stops : Stops p rest) : Stops p (blank ++ rest) := by
  refine Stops.append ?_ stops
  cases blank with
  | nil => exact stops_nil p
  | cons c blank =>
    rw [isBlankText_cons, Bool.and_eq_true] at allBlank
    exact (stops_cons p c blank).mpr (apart c allBlank.1)

/-- A key is found exactly where it is written in front of a value. -/
theorem key?_eq_some_iff {name text rest : Text} :
    key? name text = some rest ↔
      ∃ head, Key name head ∧ text = head ++ rest ∧ Stops isBlank rest := by
  simp only [key?, Option.bind_eq_bind, Option.bind_eq_some_iff, after?_eq_some_iff, Option.pure_def,
    Option.some.injEq, trimStart_eq_iff]
  constructor
  · rintro ⟨tail, rfl, value, ⟨⟨before, beforeBlank, rfl⟩, -⟩, ⟨behind, behindBlank, rfl⟩, stops⟩
    exact ⟨name ++ before ++ ':' :: behind, ⟨before, behind, beforeBlank, behindBlank, rfl⟩,
      by simp, stops⟩
  · rintro ⟨_, ⟨before, behind, beforeBlank, behindBlank, rfl⟩, rfl, stops⟩
    exact ⟨before ++ ':' :: behind ++ rest, by simp, behind ++ rest,
      ⟨⟨before, beforeBlank, by simp⟩, by simp; decide⟩, ⟨behind, behindBlank, rfl⟩, stops⟩

/-- A function is found exactly where its head is written in front of a brace. -/
theorem function?_eq_some_iff {text parameters body : Text} :
    function? text = some (parameters, body) ↔
      ∃ head, FunctionHead parameters head ∧ text = head ++ body ∧ Braced body := by
  simp only [function?, Option.bind_eq_bind, Option.bind_eq_some_iff, after?_eq_some_iff,
    trimStart_eq_iff, Option.ite_none_right_eq_some, startsWith_brace_iff, Option.some.injEq,
    Prod.mk.injEq]
  constructor
  · rintro ⟨tail, rfl, value, ⟨⟨before, beforeBlank, rfl⟩, -⟩, rest, closed, braced, taken,
      ⟨behind, behindBlank, rfl⟩, stops⟩
    obtain ⟨noClose, rfl⟩ := takeWhile_ne_dropWhile_ne_iff.mp ⟨taken, closed⟩
    rw [trimStart_append behindBlank stops] at braced
    exact ⟨_, ⟨before, behind, beforeBlank, behindBlank, noClose, rfl⟩, by simp, braced⟩
  · rintro ⟨_, ⟨before, behind, beforeBlank, behindBlank, noClose, rfl⟩, rfl, braced⟩
    have stops : Stops isBlank body := braced.stops (by decide)
    obtain ⟨taken, closed⟩ := takeWhile_ne_dropWhile_ne_iff.mpr
      ⟨noClose, (rfl : parameters ++ ')' :: (behind ++ body) = _)⟩
    refine ⟨before ++ '(' :: parameters ++ ')' :: behind ++ body, by simp,
      parameters ++ ')' :: (behind ++ body), ⟨⟨before, beforeBlank, by simp⟩, by simp; decide⟩,
      behind ++ body, closed, ?_, taken, ⟨behind, behindBlank, rfl⟩, stops⟩
    rwa [trimStart_append behindBlank stops]

/-- A function without parameters is found exactly where its head is written. -/
theorem plainFunction?_eq_some_iff {text body : Text} :
    plainFunction? text = some body ↔
      ∃ parameters head, FunctionHead parameters head ∧ isBlankText parameters = true ∧
        text = head ++ body ∧ Braced body := by
  simp only [plainFunction?, Option.bind_eq_bind, Option.bind_eq_some_iff, Prod.exists,
    function?_eq_some_iff, Option.ite_none_right_eq_some, Option.some.injEq]
  constructor
  · rintro ⟨parameters, _, ⟨head, function, rfl, braced⟩, blank, rfl⟩
    exact ⟨parameters, head, function, blank, rfl, braced⟩
  · rintro ⟨parameters, head, function, blank, rfl, braced⟩
    exact ⟨parameters, body, ⟨head, function, rfl, braced⟩, blank, rfl⟩

/-- A function stands behind a key without white space in between. -/
theorem FunctionHead.stops {parameters head : Text} (function : FunctionHead parameters head)
    (rest : Text) : Stops isBlank (head ++ rest) := by
  obtain ⟨before, behind, -, -, -, rfl⟩ := function
  simp
  decide

/-- A hook is found exactly where its key and its head are written. -/
theorem hook?_eq_some_iff {name text body : Text} :
    hook? name text = some body ↔
      ∃ key parameters head, Key name key ∧ FunctionHead parameters head ∧
        isBlankText parameters = true ∧ text = key ++ head ++ body ∧ Braced body := by
  simp only [hook?, Option.bind_eq_bind, Option.bind_eq_some_iff, key?_eq_some_iff,
    plainFunction?_eq_some_iff]
  constructor
  · rintro ⟨_, ⟨key, isKey, rfl, -⟩, parameters, head, function, blank, rfl, braced⟩
    exact ⟨key, parameters, head, isKey, function, blank, by simp, braced⟩
  · rintro ⟨key, parameters, head, isKey, function, blank, rfl, braced⟩
    exact ⟨head ++ body, ⟨key, isKey, by simp, function.stops body⟩, parameters, head, function,
      blank, rfl, braced⟩

/-- An identifier is found exactly where one is written, and as a whole. -/
theorem identifier?_eq_some_iff {text name rest : Text} :
    identifier? text = some (name, rest) ↔
      Identifier name ∧ text = name ++ rest ∧ Stops isIdentifierPart rest := by
  cases text with
  | nil =>
    simp only [identifier?, false_iff, reduceCtorEq]
    rintro ⟨identifier, empty, -⟩
    obtain ⟨rfl, -⟩ := List.append_eq_nil_iff.mp empty.symm
    simp [Identifier] at identifier
  | cons c text =>
    simp only [identifier?, Option.ite_none_right_eq_some, Option.some.injEq, Prod.mk.injEq]
    constructor
    · rintro ⟨starts, rfl, rfl⟩
      refine ⟨⟨?_, List.all_eq_true.mp List.all_takeWhile⟩, List.takeWhile_append_dropWhile.symm,
        stops_dropWhile _ _⟩
      simp [isIdentifierPart_of_isIdentifierStart starts, starts]
    · rintro ⟨⟨starts, all⟩, same, stops⟩
      refine ⟨?_, ?_, ?_⟩
      · cases name with
        | nil => simp at starts
        | cons d name =>
          obtain ⟨rfl, -⟩ := List.cons.inj same
          simpa using starts
      · rw [same, takeWhile_append_of_stops all stops]
      · rw [same, dropWhile_append_of_stops all stops]

theorem Identifier.ne_nil {name : Text} (identifier : Identifier name) : name ≠ [] := by
  rintro rfl
  simp [Identifier] at identifier

/-- Whether an identifier starts a text shows in its first character. -/
theorem identifier?_eq_none_iff {text : Text} :
    identifier? text = none ↔ ¬ text.head?.any isIdentifierStart = true := by
  cases text with
  | nil => simp [identifier?]
  | cons c text => simp [identifier?]

/-- What stands behind the underscore of a plain name is no identifier. -/
theorem identifier?_eq_none_of_plain {name rest tail : Text} (identifier : Identifier name)
    (noMarker : ∀ more, name = '_' :: more → ¬ more.head?.any isIdentifierStart = true)
    (lead : name ++ rest = '_' :: tail) (stops : Stops isIdentifierPart rest) :
    identifier? tail = none := by
  rw [identifier?_eq_none_iff]
  intro starts
  cases name with
  | nil => exact identifier.ne_nil rfl
  | cons c more =>
    rw [List.cons_append] at lead
    obtain ⟨rfl, rfl⟩ := List.cons.inj lead
    refine noMarker more rfl ?_
    cases more with
    | nil =>
      rw [List.nil_append] at starts
      cases rest with
      | nil => simp at starts
      | cons d rest =>
        rw [List.head?_cons, Option.any_some] at starts
        simp [isIdentifierPart_of_isIdentifierStart starts] at stops
    | cons d more => simpa using starts

/-- The name of a test is found exactly where its mark is written. -/
theorem testName?_eq_some_iff {text name rest : Text} :
    testName? text = some (name, rest) ↔
      ∃ mark, TestMark name mark ∧ "test".toList ++ text = mark ++ rest ∧
        Stops isIdentifierPart rest := by
  have underscored : "test_".toList = "test".toList ++ ['_'] := by decide
  constructor
  · intro found
    rw [testName?] at found
    split at found
    · next tail lead =>
      rw [after?_eq_some_iff] at lead
      rw [Option.or_eq_some_iff] at found
      rcases found with found | ⟨absent, found⟩
      · obtain ⟨identifier, rfl, stops⟩ := identifier?_eq_some_iff.mp found
        exact ⟨_, .underscore identifier, by simp [lead, underscored], stops⟩
      · rw [identifier?_eq_none_iff] at absent
        obtain ⟨identifier, split, stops⟩ := identifier?_eq_some_iff.mp found
        refine ⟨_, .plain identifier ?_, by simp [split], stops⟩
        rintro more rfl starts
        apply absent
        rw [split, List.cons_append, List.singleton_append] at lead
        obtain ⟨-, rfl⟩ := List.cons.inj lead
        cases more with
        | nil => simp at starts
        | cons c more => simpa using starts
    · next lead =>
      obtain ⟨identifier, rfl, stops⟩ := identifier?_eq_some_iff.mp found
      refine ⟨_, .plain identifier ?_, by simp, stops⟩
      rintro more rfl
      simp at lead
  · rintro ⟨_, mark, same, stops⟩
    cases mark with
    | underscore identifier =>
      rw [underscored, List.append_assoc, List.append_assoc] at same
      have split : text = ['_'] ++ (name ++ rest) := List.append_cancel_left same
      have found := identifier?_eq_some_iff.mpr ⟨identifier, rfl, stops⟩
      rw [split, testName?, after?_append]
      simp [found]
    | plain identifier noMarker =>
      rw [List.append_assoc] at same
      have split : text = name ++ rest := List.append_cancel_left same
      have found := identifier?_eq_some_iff.mpr ⟨identifier, split, stops⟩
      rw [testName?]
      split
      · next tail lead =>
        rw [after?_eq_some_iff] at lead
        have absent : identifier? tail = none :=
          identifier?_eq_none_of_plain identifier noMarker (split.symm.trans lead) stops
        simp [absent, found]
      · exact found

/-- White space and a colon end a name. -/
theorem Key.split {name head : Text} (key : Key name head) :
    ∃ tail, head = name ++ tail ∧ Key [] tail ∧ ∀ rest, Stops isIdentifierPart (tail ++ rest) := by
  obtain ⟨before, behind, beforeBlank, behindBlank, rfl⟩ := key
  refine ⟨before ++ ':' :: behind, by simp, ⟨before, behind, beforeBlank, behindBlank, rfl⟩,
    fun rest => ?_⟩
  rw [List.append_assoc]
  exact stops_blank_append (fun _ => isIdentifierPart_of_isBlank) beforeBlank (by simp; decide)

theorem Key.append {tail : Text} (key : Key [] tail) (name : Text) : Key name (name ++ tail) := by
  obtain ⟨before, behind, beforeBlank, behindBlank, rfl⟩ := key
  exact ⟨before, behind, beforeBlank, behindBlank, by simp⟩

/-- A test is found exactly where its key and its head are written. -/
theorem test?_eq_some_iff {text name body : Text} :
    test? text = some (name, body) ↔
      ∃ mark key parameters head, TestMark name mark ∧ Key mark key ∧
        FunctionHead parameters head ∧ isBlankText parameters = true ∧
        text = key ++ head ++ body ∧ Braced body := by
  simp only [test?, Option.bind_eq_bind, Option.bind_eq_some_iff, after?_eq_some_iff, Prod.exists,
    testName?_eq_some_iff, Option.pure_def, Option.some.injEq, Prod.mk.injEq, key?_eq_some_iff,
    plainFunction?_eq_some_iff]
  constructor
  · rintro ⟨text, rfl, _, _, ⟨mark, isMark, same, -⟩, _, ⟨tail, isKey, rfl, -⟩, body,
      ⟨parameters, head, function, blank, rfl, braced⟩, rfl, rfl⟩
    exact ⟨mark, mark ++ tail, parameters, head, isMark, isKey.append mark, function, blank,
      by rw [same]; simp, braced⟩
  · rintro ⟨mark, key, parameters, head, isMark, isKey, function, blank, rfl, braced⟩
    obtain ⟨tail, rfl, colon, stops⟩ := isKey.split
    have lead : ∃ rest, mark = "test".toList ++ rest := by
      cases isMark with
      | underscore => exact ⟨'_' :: name, by simp⟩
      | plain => exact ⟨name, rfl⟩
    obtain ⟨rest, rfl⟩ := lead
    exact ⟨rest ++ (tail ++ head ++ body), by simp, name, tail ++ (head ++ body),
      ⟨_, isMark, by simp, stops _⟩, head ++ body,
      ⟨tail, colon, rfl, function.stops body⟩, body,
      ⟨parameters, head, function, blank, rfl, braced⟩, rfl, rfl⟩

/-- A member without a name is found exactly where its key and its head are written. -/
theorem placeholder?_eq_some_iff {text body : Text} :
    placeholder? text = some body ↔
      ∃ quote key parameters head, Mode.isQuote quote = true ∧ Key [quote, quote] key ∧
        FunctionHead parameters head ∧ text = key ++ head ++ body ∧ Braced body := by
  have quotes : ∀ rest, (after? "''".toList text).or (after? "\"\"".toList text) = some rest ↔
      ∃ quote, Mode.isQuote quote = true ∧ text = [quote, quote] ++ rest := by
    intro rest
    have single : "''".toList = ['\'', '\''] := rfl
    have double : "\"\"".toList = ['"', '"'] := rfl
    simp only [Option.or_eq_some_iff, after?_eq_some_iff, single, double]
    constructor
    · rintro (rfl | ⟨-, rfl⟩)
      · exact ⟨'\'', rfl, rfl⟩
      · exact ⟨'"', rfl, rfl⟩
    · rintro ⟨quote, isQuote, rfl⟩
      rcases Mode.isQuote_iff.mp isQuote with rfl | rfl
      · exact .inl rfl
      · exact .inr ⟨by simp [after?], rfl⟩
  simp only [placeholder?, Option.bind_eq_bind, Option.bind_eq_some_iff, quotes, Prod.exists,
    Option.pure_def, Option.some.injEq, key?_eq_some_iff, function?_eq_some_iff]
  constructor
  · rintro ⟨_, ⟨quote, isQuote, rfl⟩, _, ⟨tail, isKey, rfl, -⟩, parameters, _,
      ⟨head, function, rfl, braced⟩, rfl⟩
    exact ⟨quote, [quote, quote] ++ tail, parameters, head, isQuote, isKey.append _, function,
      by simp, braced⟩
  · rintro ⟨quote, key, parameters, head, isQuote, isKey, function, rfl, braced⟩
    obtain ⟨tail, rfl, colon, -⟩ := isKey.split
    exact ⟨tail ++ head ++ body, ⟨quote, isQuote, by simp⟩, head ++ body,
      ⟨tail, colon, by simp, function.stops body⟩, parameters, body, ⟨head, function, rfl, braced⟩,
      rfl⟩

/-- A helper method is found exactly where its key and its head are written. -/
theorem helper?_eq_some_iff {text name parameters body : Text} :
    helper? text = some (name, parameters, body) ↔
      ∃ key head, Identifier name ∧ Key name key ∧ FunctionHead parameters head ∧
        text = key ++ head ++ body ∧ Braced body := by
  simp only [helper?, Option.bind_eq_bind, Option.bind_eq_some_iff, Prod.exists,
    identifier?_eq_some_iff, Option.pure_def, Option.some.injEq, Prod.mk.injEq, key?_eq_some_iff,
    function?_eq_some_iff]
  constructor
  · rintro ⟨_, _, ⟨identifier, rfl, -⟩, _, ⟨tail, isKey, rfl, -⟩, _, _,
      ⟨head, function, rfl, braced⟩, rfl, rfl, rfl⟩
    exact ⟨_, head, identifier, isKey.append _, function, by simp, braced⟩
  · rintro ⟨key, head, identifier, isKey, function, rfl, braced⟩
    obtain ⟨tail, rfl, colon, stops⟩ := isKey.split
    refine ⟨name, tail ++ (head ++ body), ⟨identifier, by simp, stops _⟩, head ++ body,
      ⟨tail, colon, rfl, function.stops body⟩, parameters, body, ⟨head, function, rfl, braced⟩,
      rfl, rfl, rfl⟩

/-- The items of a suite are found exactly where their key is written in front of a bracket. -/
theorem items?_eq_some_iff {text rest : Text} :
    items? text = some rest ↔ ∃ key, Key "items".toList key ∧ text = key ++ '[' :: rest := by
  simp only [items?, Option.bind_eq_bind, Option.bind_eq_some_iff, key?_eq_some_iff,
    after?_eq_some_iff]
  constructor
  · rintro ⟨_, ⟨key, isKey, rfl, -⟩, rfl⟩
    exact ⟨key, isKey, rfl⟩
  · rintro ⟨key, isKey, rfl⟩
    exact ⟨'[' :: rest, ⟨key, isKey, rfl, by simp; decide⟩, rfl⟩

/-- Directives are found exactly where their key is written in front of a brace. -/
theorem should?_eq_some_iff {text body : Text} :
    should? text = some body ↔
      ∃ key, Key "_should".toList key ∧ text = key ++ body ∧ Braced body := by
  simp only [should?, Option.bind_eq_bind, Option.bind_eq_some_iff, key?_eq_some_iff,
    Option.ite_none_right_eq_some, startsWith_brace_iff, Option.some.injEq]
  constructor
  · rintro ⟨_, ⟨key, isKey, rfl, -⟩, braced, rfl⟩
    exact ⟨key, isKey, rfl, braced⟩
  · rintro ⟨key, isKey, rfl, braced⟩
    exact ⟨body, ⟨key, isKey, rfl, braced.stops (by decide)⟩, braced, rfl⟩

/-- White space that must not be empty shows in the length of what follows it. -/
theorem length_trimStart_ne_iff {text rest : Text} :
    trimStart text = rest ∧ ¬ rest.length = text.length ↔
      (∃ apart, isBlankText apart = true ∧ apart ≠ [] ∧ text = apart ++ rest) ∧
        Stops isBlank rest := by
  rw [trimStart_eq_iff]
  constructor
  · rintro ⟨⟨⟨apart, blank, rfl⟩, stops⟩, shorter⟩
    refine ⟨⟨apart, blank, ?_, rfl⟩, stops⟩
    rintro rfl
    exact shorter rfl
  · rintro ⟨⟨apart, blank, nonempty, rfl⟩, stops⟩
    have positive := List.length_pos_iff.mpr nonempty
    refine ⟨⟨⟨apart, blank, rfl⟩, stops⟩, ?_⟩
    rw [List.length_append]
    omega

/-- The call of a constructor is found exactly where it is written. -/
theorem construction?_eq_some_iff {text constructor body : Text} :
    construction? text = some (constructor, body) ↔
      ∃ call, Call constructor call ∧ text = call ++ body ∧ Braced body := by
  simp only [construction?, Option.bind_eq_bind, Option.bind_eq_some_iff, after?_eq_some_iff]
  constructor
  · rintro ⟨rest, rfl, found⟩
    split at found
    · cases found
    · next shorter =>
      obtain ⟨⟨apart, apartBlank, nonempty, split⟩, -⟩ :=
        length_trimStart_ne_iff.mp ⟨rfl, shorter⟩
      generalize trimStart rest = called at found split
      subst split
      split at found
      · cases found
      · next c tail =>
        simp only [Option.ite_none_right_eq_some, Option.bind_eq_some_iff, after?_eq_some_iff,
          startsWith_brace_iff, Option.some.injEq, Prod.mk.injEq] at found
        obtain ⟨starts, inner, opened, braced, rfl, rfl⟩ := found
        obtain ⟨⟨before, beforeBlank, splitName⟩, -⟩ := trimStart_eq_iff.mp opened
        obtain ⟨⟨behind, behindBlank, splitBody⟩, -⟩ := trimStart_eq_iff.mp (rfl : trimStart inner = _)
        refine ⟨_, ⟨apart, before, behind, apartBlank, nonempty, beforeBlank, behindBlank, ?_,
          List.all_eq_true.mp List.all_takeWhile, rfl⟩, ?_, braced⟩
        · simp [isDotted, isIdentifierPart_of_isIdentifierStart starts, starts]
        · have whole : c :: tail = (c :: tail).takeWhile isDotted ++
              (before ++ (['('] ++ (behind ++ trimStart inner))) := by
            rw [← splitBody, ← splitName, List.takeWhile_append_dropWhile]
          calc "new".toList ++ (apart ++ c :: tail)
              = "new".toList ++ (apart ++ ((c :: tail).takeWhile isDotted ++
                  (before ++ (['('] ++ (behind ++ trimStart inner))))) := by rw [← whole]
            _ = _ := by simp
  · rintro ⟨_, ⟨apart, before, behind, apartBlank, nonempty, beforeBlank, behindBlank, starts, dotted,
      rfl⟩, rfl, braced⟩
    have stopsBody : Stops isBlank body := braced.stops (by decide)
    cases constructor with
    | nil => simp at starts
    | cons c name =>
      rw [List.head?_cons, Option.any_some] at starts
      have solid := isBlank_of_isIdentifierStart starts
      have opened : trimStart (before ++ '(' :: (behind ++ body)) = '(' :: (behind ++ body) :=
        trimStart_append beforeBlank (by simp; decide)
      have stopsName : Stops isDotted (before ++ '(' :: (behind ++ body)) :=
        stops_blank_append (fun _ => isDotted_of_isBlank) beforeBlank (by simp; decide)
      have taken := takeWhile_append_of_stops dotted stopsName
      have dropped := dropWhile_append_of_stops dotted stopsName
      obtain ⟨trimmed, shorter⟩ := length_trimStart_ne_iff.mpr
        ⟨⟨apart, apartBlank, nonempty, rfl⟩,
          (stops_cons isBlank c (name ++ (before ++ '(' :: (behind ++ body)))).mpr solid⟩
      refine ⟨apart ++ c :: (name ++ (before ++ '(' :: (behind ++ body))), by simp, ?_⟩
      rw [List.cons_append] at taken dropped
      rw [trimmed, if_neg shorter]
      simp [starts, taken, dropped, opened, trimStart_append behindBlank stopsBody,
        startsWith_brace_iff.mpr braced]

/-! ## Telling the heads apart

The heads with an identifier in front of the colon are all heads of helper methods as well, which
shows the identifier and the parameters.
-/

/-- A hook would be a helper method without parameters. -/
theorem helper?_of_hook? {name text body : Text} (identifier : Identifier name)
    (found : hook? name text = some body) :
    ∃ parameters, helper? text = some (name, parameters, body) ∧ isBlankText parameters = true := by
  obtain ⟨key, parameters, head, isKey, function, blank, here, braced⟩ := hook?_eq_some_iff.mp found
  exact ⟨parameters, helper?_eq_some_iff.mpr ⟨key, head, identifier, isKey, function, here, braced⟩,
    blank⟩

/-- An identifier goes on with parts of one. -/
theorem Identifier.append {name more : Text} (identifier : Identifier name)
    (parts : ∀ c ∈ more, isIdentifierPart c = true) : Identifier (name ++ more) := by
  refine ⟨?_, fun c member => ?_⟩
  · cases name with
    | nil => exact absurd rfl identifier.ne_nil
    | cons c name => simpa using identifier.1
  · rcases List.mem_append.mp member with first | second
    · exact identifier.2 c first
    · exact parts c second

theorem TestMark.identifier {name mark : Text} (isMark : TestMark name mark) : Identifier mark := by
  cases isMark with
  | underscore identifier => exact .append ⟨by decide, by decide⟩ identifier.2
  | plain identifier => exact .append ⟨by decide, by decide⟩ identifier.2

/-- A test would be a helper method without parameters. -/
theorem helper?_of_test? {name text body : Text} (found : test? text = some (name, body)) :
    ∃ mark parameters, TestMark name mark ∧ helper? text = some (mark, parameters, body) ∧
      isBlankText parameters = true := by
  obtain ⟨mark, key, parameters, head, isMark, isKey, function, blank, here, braced⟩ :=
    test?_eq_some_iff.mp found
  exact ⟨mark, parameters, isMark, helper?_eq_some_iff.mpr
    ⟨key, head, isMark.identifier, isKey, function, here, braced⟩, blank⟩

/-- The key in front of a value is the only one. -/
theorem Key.unique {name name' key key' value value' : Text} (isKey : Key name key)
    (isKey' : Key name' key') (parts : ∀ c ∈ name, isIdentifierPart c = true)
    (parts' : ∀ c ∈ name', isIdentifierPart c = true) (stops : Stops isBlank value)
    (stops' : Stops isBlank value') (same : key ++ value = key' ++ value') :
    name = name' ∧ value = value' := by
  obtain ⟨tail, rfl, colon, ends⟩ := isKey.split
  obtain ⟨tail', rfl, colon', ends'⟩ := isKey'.split
  rw [List.append_assoc, List.append_assoc] at same
  obtain ⟨sameName, sameTail⟩ := run_unique parts (ends value) parts' (ends' value') same
  have found : key? [] (tail ++ value) = some value := key?_eq_some_iff.mpr ⟨tail, colon, rfl, stops⟩
  have found' : key? [] (tail ++ value) = some value' :=
    key?_eq_some_iff.mpr ⟨tail', colon', sameTail, stops'⟩
  exact ⟨sameName, Option.some.inj (found.symm.trans found')⟩

/-- Directives are no function. -/
theorem should?_eq_none_of_helper? {text : Text} {head : Text × Text × Text}
    (found : helper? text = some head) : should? text = none := by
  rw [Option.eq_none_iff_forall_ne_some]
  intro body directives
  obtain ⟨name, parameters, rest⟩ := head
  obtain ⟨key, head, identifier, isKey, function, rfl, -⟩ := helper?_eq_some_iff.mp found
  obtain ⟨key', isKey', here, braced⟩ := should?_eq_some_iff.mp directives
  rw [List.append_assoc] at here
  obtain ⟨-, rfl⟩ := isKey.unique isKey' identifier.2 (by decide) (function.stops rest)
    (braced.stops (by decide)) here
  obtain ⟨more, starts⟩ := braced
  obtain ⟨before, behind, -, -, -, rfl⟩ := function
  simp at starts

/-- No quote stands in front of an identifier. -/
theorem Key.head?_any_isQuote {name key : Text} (isKey : Key name key) (identifier : Identifier name)
    (rest : Text) : (key ++ rest).head?.any Mode.isQuote = false := by
  obtain ⟨tail, rfl, -, -⟩ := isKey.split
  cases name with
  | nil => exact absurd rfl identifier.ne_nil
  | cons c name =>
    have starts : isIdentifierStart c = true := by simpa using identifier.1
    rw [List.append_assoc, List.cons_append, List.head?_cons, Option.any_some, Bool.eq_false_iff]
    intro quote
    rcases Mode.isQuote_iff.mp quote with rfl | rfl <;> exact absurd starts (by decide)

/-- A quoted name is none of the other kinds of names. -/
theorem helper?_eq_none_of_isQuote {text : Text} (quoted : text.head?.any Mode.isQuote = true) :
    helper? text = none := by
  rw [helper?, identifier?_eq_none_iff.mpr, Option.bind_eq_bind, Option.bind_none]
  cases text with
  | nil => simp
  | cons c text =>
    rw [List.head?_cons, Option.any_some] at quoted ⊢
    rcases Mode.isQuote_iff.mp quoted with rfl | rfl <;> decide

/-- A quote starts no directives. -/
theorem should?_eq_none_of_isQuote {text : Text} (quoted : text.head?.any Mode.isQuote = true) :
    should? text = none := by
  rw [Option.eq_none_iff_forall_ne_some]
  intro body directives
  obtain ⟨key, isKey, rfl, -⟩ := should?_eq_some_iff.mp directives
  rw [isKey.head?_any_isQuote ⟨by decide, by decide⟩] at quoted
  cases quoted

/-- What is no helper method of a name without parameters is no hook of this name. -/
theorem hook?_eq_none_of_helper? {name text : Text} (identifier : Identifier name)
    (other : ∀ parameters body, helper? text = some (name, parameters, body) →
      isBlankText parameters = false) : hook? name text = none := by
  rw [Option.eq_none_iff_forall_ne_some]
  intro body found
  obtain ⟨parameters, helper, blank⟩ := helper?_of_hook? identifier found
  simp [other parameters body helper] at blank

/-- What is no helper method under a mark without parameters is no test. -/
theorem test?_eq_none_of_helper? {text : Text}
    (other : ∀ name mark parameters body, TestMark name mark →
      helper? text = some (mark, parameters, body) → isBlankText parameters = false) :
    test? text = none := by
  rw [Option.eq_none_iff_forall_ne_some]
  rintro ⟨name, body⟩ found
  obtain ⟨mark, parameters, isMark, helper, blank⟩ := helper?_of_test? found
  simp [other name mark parameters body isMark helper] at blank

/-- Directives are no helper method. -/
theorem helper?_eq_none_of_should? {text : Text} (found : (should? text).isSome = true) :
    helper? text = none := by
  cases helper : helper? text with
  | none => rfl
  | some head => simp [should?_eq_none_of_helper? helper] at found

/-- A member without a name starts with a quote. -/
theorem placeholder?_isQuote {text body : Text} (found : placeholder? text = some body) :
    text.head?.any Mode.isQuote = true := by
  obtain ⟨quote, key, parameters, head, isQuote, isKey, -, rfl, -⟩ := placeholder?_eq_some_iff.mp found
  obtain ⟨tail, rfl, -, -⟩ := isKey.split
  simpa using isQuote

end JasmineConversion.Pattern
