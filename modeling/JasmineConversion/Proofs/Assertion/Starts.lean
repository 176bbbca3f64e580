import JasmineConversion.Proofs.Assertion.Calls

/-! # Assertion calls in joined texts

A text may hold an assertion call as it stands, or one may start in it and end its head in what follows. Neither
happens in a text that names no namespace of assertions, and no head goes on into a text that is no name with a
parenthesis behind it.
-/

namespace JasmineConversion.AssertionCall

open Text Source Pattern

variable {previous : Option Char} {text before behind front rest : Text} {c : Char}

/-- A text holds an assertion call. -/
def HoldsCall (text : Text) : Prop :=
  ∃ front back, text = front ++ back ∧ CallAt front.getLast? back

/-- An assertion call starts in a text, which follows a given character. It may go on in what stands behind
the text. -/
def CallIn (previous : Option Char) (text behind : Text) : Prop :=
  ∃ front rest, text = front ++ rest ∧ rest ≠ [] ∧ CallAt (front.getLast?.or previous) (rest ++ behind)

theorem CallFree.not_holdsCall (free : CallFree none text) : ¬ HoldsCall text := by
  rintro ⟨front, back, split, here⟩
  exact free front back split (by rwa [Option.or_none])

/-! ## Heads in two texts -/

theorem isDotted_of_isWord (word : isWord c = true) : isDotted c = true := by
  simp [isDotted, isIdentifierPart, word]

/-- A head is a dotted name with white space behind it. -/
theorem CallHead.exists_dotted {head space function : Text} (headed : CallHead head space function) :
    ∃ name blank, head = name ++ blank ∧ (∀ c ∈ name, isDotted c = true) ∧ isBlankText blank = true ∧
      ∃ c more, head = c :: more ∧ isWord c = true := by
  have plain {head space function : Text} (parts : PlainHead head space function) :
      ∃ name blank, head = name ++ blank ∧ (∀ c ∈ name, isDotted c = true) ∧ isBlankText blank = true ∧
        ∃ c more, head = c :: more ∧ isWord c = true := by
    obtain ⟨words, named, word, -, blank, white, rfl⟩ := parts
    refine ⟨space ++ '.' :: function, blank, rfl, ?_, white, ?_⟩
    · intro c member
      rcases List.mem_append.mp member with inSpace | inFunction
      · exact isDotted_of_isWord (words c inSpace)
      · rcases List.mem_cons.mp inFunction with rfl | inFunction
        · decide
        · exact isDotted_of_isWord (word c inFunction)
    · obtain ⟨front, rfl⟩ := endsWith_iff.mp named
      cases front with
      | nil => exact ⟨'A', _, rfl, by decide⟩
      | cons c front => exact ⟨c, _, rfl, words c List.mem_cons_self⟩
  cases headed with
  | plain parts => exact plain parts
  | qualified parts =>
    obtain ⟨name, blank, rfl, dotted, white, -⟩ := plain parts
    refine ⟨'Y' :: '.' :: name, blank, rfl, ?_, white, 'Y', _, rfl, by decide⟩
    simpa using ⟨by decide, by decide, dotted⟩

/-- The head of a call holds no parenthesis. -/
theorem CallHead.not_mem {head space function : Text} (headed : CallHead head space function) : '(' ∉ head := by
  obtain ⟨name, blank, rfl, dotted, white, -⟩ := headed.exists_dotted
  intro member
  rcases List.mem_append.mp member with inName | inBlank
  · exact absurd (dotted _ inName) (by decide)
  · exact absurd (isBlankText_iff.mp white _ inBlank) (by decide)

theorem Apart.isDotted_eq_false (apart : Apart (some c)) : isDotted c = false := by
  obtain ⟨fresh, noDot⟩ := apart
  rw [isDotted, Bool.or_eq_false_iff, beq_eq_false_iff_ne]
  refine ⟨by simpa [startsFresh] using fresh, fun same => noDot (congrArg some same)⟩

/-- A call starts with a character of a name. -/
theorem CallAt.exists_word (here : CallAt previous text) : ∃ c more, text = c :: more ∧ isWord c = true := by
  obtain ⟨-, head, space, function, rest, headed, rfl⟩ := here
  obtain ⟨-, -, -, -, -, c, more, rfl, word⟩ := headed.exists_dotted
  exact ⟨c, _, rfl, word⟩

/-- No call starts at a character of no word. -/
theorem not_callAt_cons (apart : isWord c = false) : ¬ CallAt previous (c :: rest) := by
  intro here
  obtain ⟨d, more, same, word⟩ := here.exists_word
  obtain ⟨rfl, -⟩ := List.cons.inj same
  exact Bool.noConfusion (word.symm.trans apart)

theorem CallAt.append (here : CallAt previous text) (more : Text) : CallAt previous (text ++ more) := by
  obtain ⟨apart, head, space, function, rest, headed, rfl⟩ := here
  exact ⟨apart, head, space, function, rest ++ more, headed, by simp⟩

theorem CallAt.of_apart {other : Option Char} (here : CallAt previous text) (apart : Apart other) :
    CallAt other text :=
  ⟨apart, here.2⟩

/-- A call in two texts ends its head in the first, or goes on in the second with the rest of its head. -/
theorem CallAt.of_append (here : CallAt previous (before ++ behind)) :
    CallAt previous before ∨
      ∃ tail space function rest, CallHead (before ++ tail) space function ∧ behind = tail ++ '(' :: rest := by
  obtain ⟨apart, head, space, function, rest, headed, same⟩ := here
  rcases append_eq_append_cons_iff.mp same with ⟨more, rfl, -⟩ | ⟨tail, rfl, rfl⟩
  · exact .inl ⟨apart, head, space, function, more, headed, rfl⟩
  · exact .inr ⟨tail, space, function, rest, headed, rfl⟩

/-- The rest of a head is the rest of its name and white space. -/
theorem CallHead.exists_rest {tail space function : Text} (headed : CallHead (before ++ tail) space function) :
    ∃ name blank, tail = name ++ blank ∧ (∀ c ∈ name, isDotted c = true) ∧ isBlankText blank = true := by
  obtain ⟨name, blank, same, dotted, white, -⟩ := headed.exists_dotted
  rcases List.append_eq_append_iff.mp same with ⟨rest, rfl, rfl⟩ | ⟨rest, rfl, rfl⟩
  · exact ⟨rest, blank, rfl, fun c member => dotted c (List.mem_append_right before member), white⟩
  · rw [isBlankText_append, Bool.and_eq_true] at white
    exact ⟨[], tail, rfl, by simp, white.2⟩

/-- Behind a character of no name, a head goes on with white space only. -/
theorem CallHead.isBlankText_rest {tail space function : Text}
    (headed : CallHead (before ++ c :: tail) space function) (apart : isDotted c = false) :
    isBlankText tail = true := by
  obtain ⟨name, blank, same, dotted, white, -⟩ := headed.exists_dotted
  rcases append_eq_append_cons_iff.mp same.symm with ⟨rest, rfl, -⟩ | ⟨rest, rfl, rfl⟩
  · have isPart := dotted c (by simp)
    exact Bool.noConfusion (isPart.symm.trans apart)
  · rw [isBlankText_append, isBlankText_cons, Bool.and_eq_true, Bool.and_eq_true] at white
    exact white.2.2

/-! ## Texts that stop a head -/

/-- A head does not go on into a text: what the text has behind a name and white space is no parenthesis. -/
def Stopping (text : Text) : Prop :=
  ∃ c ∈ ((text.dropWhile isDotted).dropWhile isBlank).head?, c ≠ '('

instance (text : Text) : Decidable (Stopping text) :=
  decidable_of_iff (((text.dropWhile isDotted).dropWhile isBlank).head?.any (· != '(')) (by
    cases first : ((text.dropWhile isDotted).dropWhile isBlank).head? <;> simp [Stopping, first])

/-- A text that starts no call is so with anything behind it. -/
theorem Stopping.append (stops : Stopping text) (more : Text) : Stopping (text ++ more) := by
  obtain ⟨c, first, other⟩ := stops
  obtain ⟨rest, split⟩ := List.head?_eq_some_iff.mp first
  have blank : (text.dropWhile isDotted ++ more).dropWhile isBlank =
      (text.dropWhile isDotted).dropWhile isBlank ++ more := by
    rw [List.dropWhile_append, split]
    simp
  have name : (text ++ more).dropWhile isDotted = text.dropWhile isDotted ++ more := by
    rw [List.dropWhile_append]
    cases none : text.dropWhile isDotted with
    | nil => simp [none] at split
    | cons d behind => simp
  refine ⟨c, ?_, other⟩
  rw [name, blank, split]
  rfl

/-- The head of a call does not stop a dotted name. -/
theorem not_stopping_of_head {name blank : Text} (dotted : ∀ c ∈ name, isDotted c = true)
    (white : isBlankText blank = true) (rest : Text) : ¬ Stopping (name ++ blank ++ '(' :: rest) := by
  have stops : Stops isDotted (blank ++ '(' :: rest) := by
    cases blank with
    | nil => exact (stops_cons _ _ _).mpr (by decide)
    | cons c blank =>
      exact (stops_cons _ _ _).mpr (isDotted_of_isBlank (isBlankText_iff.mp white c List.mem_cons_self))
  have solid : Stops isBlank ('(' :: rest) := (stops_cons _ _ _).mpr (by decide)
  rintro ⟨c, first, other⟩
  rw [List.append_assoc, dropWhile_append_of_stops dotted stops,
    dropWhile_append_of_stops (isBlankText_iff.mp white) solid] at first
  exact other (Option.some.inj first).symm

/-- A call that starts before a text that stops heads has its parenthesis there. -/
theorem CallAt.of_stopping (here : CallAt previous (before ++ behind)) (stops : Stopping behind) :
    CallAt previous before := by
  rcases here.of_append with inside | ⟨tail, space, function, rest, headed, rfl⟩
  · exact inside
  · obtain ⟨name, blank, rfl, dotted, white⟩ := headed.exists_rest
    exact absurd stops (not_stopping_of_head dotted white rest)

/-- A dotted name in front of a stopping text is stopping too. -/
theorem Stopping.of_dotted {name : Text} (stops : Stopping text) (dotted : ∀ c ∈ name, isDotted c = true) :
    Stopping (name ++ text) := by
  obtain ⟨c, first, other⟩ := stops
  exact ⟨c, by rwa [List.dropWhile_append_of_pos dotted], other⟩

/-! ## Texts in which no call starts -/

/-- No call starts at the front of a text that follows a given character, whatever stands behind the text:
a name goes on there, or it is followed by no dot, or it is no namespace of assertions. -/
def Blocked (previous : Option Char) (text : Text) : Prop :=
  ¬ Apart previous ∨ ∃ c ∈ (text.dropWhile isWord).head?, c ≠ '.' ∨
    endsWith "Assert".toList (text.takeWhile isWord) = false ∧ text.takeWhile isWord ≠ ['Y']

instance (previous : Option Char) : Decidable (Apart previous) :=
  inferInstanceAs (Decidable (_ ∧ _))

instance (previous : Option Char) (text : Text) : Decidable (Blocked previous text) :=
  decidable_of_iff (¬ Apart previous ∨ (text.dropWhile isWord).head?.any (fun c => decide (c ≠ '.' ∨
    endsWith "Assert".toList (text.takeWhile isWord) = false ∧ text.takeWhile isWord ≠ ['Y'])) = true) (by
    unfold Blocked
    cases first : (text.dropWhile isWord).head? <;> simp)

/-- No call starts in a text, whatever stands in front of it and behind it. -/
def Silent (previous : Option Char) : Text → Prop
  | [] => True
  | c :: rest => Blocked previous (c :: rest) ∧ Silent (some c) rest

instance decidableSilent : (previous : Option Char) → (text : Text) → Decidable (Silent previous text)
  | _, [] => .isTrue trivial
  | _, c :: rest =>
    have := decidableSilent (some c) rest
    inferInstanceAs (Decidable (_ ∧ _))

/-- No call starts at the front of a blocked text, whatever is behind it. -/
theorem not_callAt_of_blocked (blocked : Blocked previous text) (more : Text) :
    ¬ CallAt previous (text ++ more) := by
  rintro ⟨apart, head, space, function, rest, headed, same⟩
  rcases blocked with joined | ⟨c, first, other⟩
  · exact joined apart
  obtain ⟨behind, split⟩ := List.head?_eq_some_iff.mp first
  have words : ∀ d ∈ text.takeWhile isWord, isWord d = true := List.all_eq_true.mp List.all_takeWhile
  have whole : text.takeWhile isWord ++ c :: (behind ++ more) = head ++ '(' :: rest := by
    rw [← same]
    conv => rhs; rw [← @List.takeWhile_append_dropWhile _ isWord text, split]
    simp
  have stops : Stops isWord (c :: (behind ++ more)) := by
    have here := stops_dropWhile isWord text
    rw [split] at here
    simpa using here
  have dot (text : Text) : Stops isWord ('.' :: text) := (stops_cons _ _ _).mpr (by decide)
  cases headed with
  | plain parts =>
    obtain ⟨words', named, -, -, blank, -, rfl⟩ := parts
    have split' : text.takeWhile isWord ++ c :: (behind ++ more) =
        space ++ '.' :: (function ++ blank ++ '(' :: rest) := by
      rw [whole]
      simp
    obtain ⟨sameSpace, sameRest⟩ := run_unique words stops words' (dot _) split'
    obtain ⟨rfl, -⟩ := List.cons.inj sameRest
    rcases other with noDot | ⟨unnamed, -⟩
    · exact noDot rfl
    · rw [sameSpace, named] at unnamed
      cases unnamed
  | @qualified head space function parts =>
    have split' : text.takeWhile isWord ++ c :: (behind ++ more) = ['Y'] ++ '.' :: (head ++ '(' :: rest) := by
      rw [whole]
      rfl
    obtain ⟨sameSpace, sameRest⟩ := run_unique words stops (by decide) (dot _) split'
    obtain ⟨rfl, -⟩ := List.cons.inj sameRest
    rcases other with noDot | ⟨-, other⟩
    · exact noDot rfl
    · exact other sameSpace

theorem Blocked.of_none (blocked : Blocked none text) : Blocked previous text := by
  rcases blocked with joined | shaped
  · exact absurd ⟨rfl, by simp⟩ joined
  · exact .inr shaped

theorem Silent.of_none (silent : Silent none text) : Silent previous text := by
  cases text with
  | nil => trivial
  | cons c rest => exact ⟨silent.1.of_none, silent.2⟩

theorem not_callIn_nil : ¬ CallIn previous [] behind := by
  rintro ⟨front, rest, split, nonempty, -⟩
  exact nonempty (List.append_eq_nil_iff.mp split.symm).2

/-- No call starts in a silent text, whatever is behind it. -/
theorem Silent.not_callIn (silent : Silent previous text) (behind : Text) : ¬ CallIn previous text behind := by
  induction text generalizing previous with
  | nil => exact not_callIn_nil
  | cons c text ih =>
    rintro ⟨front, rest, split, nonempty, here⟩
    rcases List.cons_eq_append_iff.mp split with ⟨rfl, rfl⟩ | ⟨more, rfl, same⟩
    · exact not_callAt_of_blocked silent.1 behind here
    · rw [getLast?_cons_or] at here
      exact ih silent.2 ⟨more, rest, same, nonempty, here⟩

/-! ## Calls that start in a text -/

/-- A call starts in two texts if it starts in the first, with the second behind it, or in the second.
-/
theorem callIn_append {more : Text} : CallIn previous (text ++ more) behind ↔
    CallIn previous text (more ++ behind) ∨ CallIn (text.getLast?.or previous) more behind := by
  constructor
  · rintro ⟨front, rest, split, nonempty, here⟩
    rcases append_eq_append_cases split with ⟨inner, rfl, nonempty', rfl⟩ | ⟨inner, rfl, rfl⟩
    · exact .inl ⟨front, inner, rfl, nonempty', by rwa [← List.append_assoc]⟩
    · rw [List.getLast?_append, Option.or_assoc] at here
      exact .inr ⟨inner, rest, rfl, nonempty, here⟩
  · rintro (⟨front, rest, rfl, nonempty, here⟩ | ⟨front, rest, rfl, nonempty, here⟩)
    · exact ⟨front, rest ++ more, by simp, by simp [nonempty], by rwa [List.append_assoc]⟩
    · refine ⟨text ++ front, rest, by simp, nonempty, ?_⟩
      rwa [List.getLast?_append, Option.or_assoc]

/-- A call that starts in a text does so behind any character that it is apart from. -/
theorem CallIn.of_apart {other : Option Char} (starts : CallIn previous text behind) (apart : Apart other) :
    CallIn other text behind := by
  obtain ⟨front, rest, rfl, nonempty, here⟩ := starts
  refine ⟨front, rest, rfl, nonempty, ?_⟩
  cases last : front.getLast? with
  | none => exact here.of_apart (by simpa using apart)
  | some c => rwa [last] at here

theorem apart_none : Apart none := by
  decide

/-- A call that starts in a text, in front of one that stops heads, stands in the text. -/
theorem CallIn.holdsCall (starts : CallIn previous text behind) (stops : Stopping behind) : HoldsCall text := by
  obtain ⟨front, rest, rfl, -, here⟩ := starts.of_apart apart_none
  rw [Option.or_none] at here
  exact ⟨front, rest, rfl, here.of_stopping stops⟩

/-- A call that starts in a text, in front of one with a parenthesis, ends its head at that parenthesis or
before it. -/
theorem CallIn.holdsCall_append {between : Text} (starts : CallIn previous text (between ++ behind))
    (opens : '(' ∈ between) : HoldsCall (text ++ between) := by
  obtain ⟨front, rest, rfl, -, here⟩ := starts.of_apart apart_none
  rw [Option.or_none, ← List.append_assoc] at here
  refine ⟨front, rest ++ between, List.append_assoc front rest between, ?_⟩
  rcases here.of_append with inside | ⟨tail, space, function, more, headed, -⟩
  · exact inside
  · exact absurd (by simp [opens]) headed.not_mem

/-- A call in a text between two silent ones starts in the middle one. -/
theorem CallIn.of_between {after : Text} (starts : CallIn previous (before ++ text ++ after) behind)
    (silent : Silent none before) (silent' : Silent none after) :
    CallIn (before.getLast?.or previous) text (after ++ behind) := by
  rcases callIn_append.mp starts with front | back
  · rcases callIn_append.mp front with first | inner
    · exact absurd first (silent.of_none.not_callIn _)
    · exact inner
  · exact absurd back (silent'.of_none.not_callIn _)

end JasmineConversion.AssertionCall
