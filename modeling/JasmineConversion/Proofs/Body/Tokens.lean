import JasmineConversion.Proofs.Source.Tokens
import JasmineConversion.Proofs.Suite.SelfReference

/-! # Literals and comments in hooks

The references in a hook are pieces of dotted names, wherever they stand. The literals and comments of a hook
are therefore rewritten each on its own, and stay as they are exactly if none of them holds a reference.
-/

namespace JasmineConversion

open Text Source Pattern

namespace Body

variable {name lead text rest : Text} {previous : Option Char} {c : Char}

/-- The references to a helper method with its name in their place, as they are found. -/
abbrev toHelper (name : Text) : Finder :=
  helperReference name [.text name]

/-- A reference to a helper method stands at the front of a text, behind a given character. -/
def HelperAt (name : Text) (previous : Option Char) (text : Text) : Prop :=
  startsFresh previous = true ∧ ∃ owner ∈ selfNames, ∃ rest, text = owner ++ name ++ rest ∧
    ¬ rest.head?.any isPlainIdentifierPart = true

/-- A text holds a reference to a helper method, or a member access on `this`. -/
def HoldsReference (names : List Text) (text : Text) : Prop :=
  ∃ front back, text = front ++ back ∧
    (SelfAt front.getLast? back ∨ ∃ name ∈ names, HelperAt name front.getLast? back)

/-! ## References as pieces of dotted names -/

theorem isDotted_of_isIdentifierPart (part : isIdentifierPart c = true) : isDotted c = true := by
  simp [isDotted, part]

/-- A dotted lead is found in a text whatever stands behind a character of no dotted name. -/
theorem after?_append_cons (dotted : ∀ d ∈ lead, isDotted d = true) (apart : isDotted c = false) :
    after? lead (text ++ c :: rest) = (after? lead text).map (· ++ c :: rest) := by
  induction lead generalizing text with
  | nil => rfl
  | cons d lead ih =>
    obtain ⟨here, further⟩ := List.forall_mem_cons.mp dotted
    cases text with
    | nil => simp [after?, Mode.ne_of_isDotted here apart]
    | cons e text =>
      by_cases same : d = e
      · simp [after?, same, ih further]
      · simp [after?, same]

theorem startsFresh_of_not_isDotted (apart : isDotted c = false) : startsFresh (some c) = true := by
  simp only [isDotted, Bool.or_eq_false_iff] at apart
  simp [startsFresh, apart]

/-- A character of no dotted name is part of no plain identifier. -/
theorem isPlainIdentifierPart_of_not_isDotted (apart : isDotted c = false) :
    isPlainIdentifierPart c = false := by
  rw [Bool.eq_false_iff]
  intro plain
  have part : isIdentifierPart c = true := by
    simp only [isPlainIdentifierPart, Char.isAlphanum, Bool.or_eq_true, beq_iff_eq] at plain
    rcases plain with ((letter | digit) | rfl) | rfl
    · exact isIdentifierPart_of_isIdentifierStart (by simp [isIdentifierStart, letter])
    · have small : c.toNat < 128 := by
        simp only [Char.isDigit, Bool.and_eq_true, decide_eq_true_eq] at digit
        exact Nat.lt_of_le_of_lt (UInt32.le_iff_toNat_le.mp digit.2) (by decide)
      simp [isIdentifierPart, isWord, small, Char.isAlphanum, digit]
    · decide
    · decide
  exact Bool.noConfusion ((isDotted_of_isIdentifierPart part).symm.trans apart)

/-- A character without a property tells nothing of what stands behind it. -/
theorem head?_append_cons (p : Char → Bool) (apart : p c = false) :
    (text ++ c :: rest).head?.any p = text.head?.any p := by
  cases text with
  | nil => simpa using apart
  | cons d text => rfl

/-- A call of a helper method is shortened to its name, and only where it is qualified by a self
reference. -/
theorem toHelper_eq_some {width : Nat} {replacement : Text}
    (found : toHelper name previous text = some (width, replacement)) :
    startsFresh previous = true ∧ replacement = name ∧ ∃ owner ∈ selfNames, ∃ rest,
      text = owner ++ name ++ rest ∧ ¬ rest.head?.any isPlainIdentifierPart = true ∧
        (owner ++ name).length = width := by
  unfold toHelper helperReference at found
  split at found
  · next fresh =>
    obtain ⟨owner, member, here⟩ := List.exists_of_findSome?_eq_some found
    obtain ⟨behind, owned, here⟩ := Option.bind_eq_some_iff.mp here
    obtain ⟨rest, named, here⟩ := Option.bind_eq_some_iff.mp here
    split at here
    · cases here
    · next stops =>
      obtain ⟨rfl, rfl⟩ := Prod.mk.inj (Option.some.inj here)
      refine ⟨fresh, Template.fill_text _ _, owner, member, rest, ?_, stops, List.length_append⟩
      rw [after?_eq_some_iff.mp owned, after?_eq_some_iff.mp named, List.append_assoc]
  · cases found

/-- Nothing is shortened exactly where no call of a helper method starts. -/
theorem toHelper_eq_none : toHelper name previous text = none ↔ ¬ HelperAt name previous text := by
  constructor
  · rintro absent ⟨fresh, owner, member, rest, rfl, stops⟩
    unfold toHelper helperReference at absent
    rw [if_pos fresh, List.findSome?_eq_none_iff] at absent
    have here := absent owner member
    rw [List.append_assoc, after?_append] at here
    simp [stops] at here
  · intro elsewhere
    cases found : toHelper name previous text with
    | none => rfl
    | some result =>
      obtain ⟨fresh, -, owner, member, rest, same, stops, -⟩ := toHelper_eq_some found
      exact absurd ⟨fresh, owner, member, rest, same, stops⟩ elsewhere

theorem isDotted_of_mem_selfNames : ∀ owner ∈ selfNames, ∀ c ∈ owner, isDotted c = true := by
  decide

/-- The rule for helper methods looks at dotted names only. -/
theorem toHelper_dotted (named : Identifier name) : (toHelper name).Dotted where
  fits {previous text width replacement} found := by
    obtain ⟨-, rfl, owner, member, rest, same, -, fits⟩ := toHelper_eq_some found
    refine ⟨owner ++ replacement, rest, same, fits, ?_, named.ne_nil, ?_, ?_⟩
    · simp [named.ne_nil]
    · intro c inside
      rcases List.mem_append.mp inside with first | second
      · exact isDotted_of_mem_selfNames owner member c first
      · exact isDotted_of_isIdentifierPart (named.2 c second)
    · exact fun c inside => isDotted_of_isIdentifierPart (named.2 c inside)
  behind {c} apart := by
    funext text
    unfold toHelper helperReference
    rw [startsFresh_of_not_isDotted apart]
    rfl
  before {c} apart previous text rest := by
    unfold toHelper helperReference
    have dotted : ∀ d ∈ name, isDotted d = true := fun d inside =>
      isDotted_of_isIdentifierPart (named.2 d inside)
    have plain := isPlainIdentifierPart_of_not_isDotted apart
    have same : ∀ owner ∈ selfNames, (do
        let behind ← after? name (← after? owner (text ++ c :: rest))
        if behind.head?.any isPlainIdentifierPart then none
        else some (owner.length + name.length, Template.fill [.text name] (owner ++ name))) = (do
        let behind ← after? name (← after? owner text)
        if behind.head?.any isPlainIdentifierPart then none
        else some (owner.length + name.length, Template.fill [.text name] (owner ++ name))) := by
      intro owner member
      rw [after?_append_cons (isDotted_of_mem_selfNames owner member) apart]
      cases after? owner text with
      | none => rfl
      | some more =>
        simp only [Option.map_some, Option.bind_eq_bind, Option.bind_some]
        rw [after?_append_cons dotted apart]
        cases after? name more with
        | none => rfl
        | some behind => simp only [Option.map_some, Option.bind_some, head?_append_cons _ plain]
    split
    · rw [selfNames, List.findSome?_cons, List.findSome?_cons, List.findSome?_cons]
      rw [same _ (by decide), same _ (by decide), same _ (by decide)]
      rfl
    · rfl

/-- The rule for self references looks at dotted names only. -/
theorem toFixture_dotted {fixture : Text} (named : Identifier fixture) : (toFixture fixture).Dotted where
  fits {previous text width replacement} found := by
    obtain ⟨⟨-, c, rest, same, -⟩, result⟩ := toFixture_eq_some.mp found
    obtain ⟨rfl, rfl⟩ := Prod.mk.inj result
    refine ⟨selfAccess, c :: rest, same, rfl, by decide, by simp, by decide, ?_⟩
    intro c inside
    rcases List.mem_append.mp inside with part | dot
    · exact isDotted_of_isIdentifierPart (named.2 c part)
    · exact List.mem_singleton.mp dot ▸ (by decide)
  behind {c} apart := by
    funext text
    unfold toFixture selfReference
    rw [startsFresh_of_not_isDotted apart]
    rfl
  before {c} apart previous text rest := by
    have start : isIdentifierStart c = false := by
      rw [Bool.eq_false_iff]
      intro starts
      have part := isDotted_of_isIdentifierPart (isIdentifierPart_of_isIdentifierStart starts)
      exact Bool.noConfusion (part.symm.trans apart)
    unfold toFixture selfReference
    rw [after?_append_cons (by decide) apart]
    cases after? selfAccess text with
    | none => rfl
    | some behind => simp only [Option.map_some, head?_append_cons _ start]

/-! ## Rewriting literals and comments -/

theorem dot_notMem (named : Identifier name) : '.' ∉ name := by
  intro member
  exact absurd (named.2 '.' member) (by decide)

theorem backslash_notMem (named : Identifier name) : '\\' ∉ name := by
  intro member
  exact absurd (named.2 '\\' member) (by decide)

/-- A text in which helper methods are reached by their names alone. -/
def shortened (names : List Text) (text : Text) : Text :=
  names.foldl (fun text name => replaceAll (toHelper name) text) text

/-- Names of identifiers are shortened without a failure. -/
theorem shortenHelpers_eq {names : List Text} (named : ∀ name ∈ names, Identifier name) (text : Text) :
    shortenHelpers names text = .ok (shortened names text) := by
  induction names generalizing text with
  | nil => rfl
  | cons name names ih =>
    obtain ⟨here, further⟩ := List.forall_mem_cons.mp named
    have first : shortenHelper text name = .ok (replaceAll (toHelper name) text) := by
      rw [shortenHelper, Template.parse_of_no_backslash (backslash_notMem here)]
    rw [shortenHelpers, List.foldlM_cons, first]
    exact ih further _

/-- A fixture that is an identifier replaces self references without a failure. -/
theorem replaceSelf_eq {fixture : Text} (named : Identifier fixture) (text : Text) :
    replaceSelf fixture text = .ok (replaceAll (toFixture fixture) text) := by
  have plain : '\\' ∉ fixture ++ ['.'] := by simp [backslash_notMem named]
  rw [replaceSelf, Template.parse_of_no_backslash plain]

/-- Shortening rewrites each token by itself. -/
theorem tokens_shortened {names : List Text} (named : ∀ name ∈ names, Identifier name) (text : Text) :
    tokens (shortened names text) = (tokens text).map (shortened names) := by
  induction names generalizing text with
  | nil => exact (List.map_id _).symm
  | cons name names ih =>
    obtain ⟨here, further⟩ := List.forall_mem_cons.mp named
    rw [shortened, List.foldl_cons]
    exact (ih further _).trans (by rw [tokens_replaceAll (toHelper_dotted here), List.map_map]; rfl)

/-! ## Texts that are not changed -/

theorem dot_of_mem_selfNames : ∀ owner ∈ selfNames, 0 < owner.count '.' := by
  decide

/-- A call that is shortened loses a point. -/
theorem count_toHelper_lt (named : Identifier name) {width : Nat} {replacement : Text}
    (found : toHelper name previous text = some (width, replacement)) :
    replacement.count '.' < (text.take width).count '.' := by
  obtain ⟨-, rfl, owner, member, rest, rfl, -, rfl⟩ := toHelper_eq_some found
  have dot := dot_of_mem_selfNames owner member
  rw [List.take_left' rfl, List.count_append]
  omega

/-- Replacing self references adds no point. -/
theorem count_replaceAll_toFixture_le {fixture : Text} (named : Identifier fixture) (text : Text) :
    (replaceAll (toFixture fixture) text).count '.' ≤ text.count '.' := by
  refine (toFixture_dotted named).count_replaceFrom_le fun found => ?_
  obtain ⟨⟨-, c, rest, rfl, -⟩, result⟩ := toFixture_eq_some.mp found
  obtain ⟨rfl, rfl⟩ := Prod.mk.inj result
  rw [List.take_left' rfl, List.count_append, List.count_eq_zero_of_not_mem (dot_notMem named)]
  decide

/-- Shortening adds no point. -/
theorem count_shortened_le {names : List Text} (named : ∀ name ∈ names, Identifier name) (text : Text) :
    (shortened names text).count '.' ≤ text.count '.' := by
  induction names generalizing text with
  | nil => exact Nat.le_refl _
  | cons name names ih =>
    obtain ⟨here, further⟩ := List.forall_mem_cons.mp named
    refine Nat.le_trans (ih further _) ?_
    exact (toHelper_dotted here).count_replaceFrom_le fun found => Nat.le_of_lt (count_toHelper_lt here found)

/-- A text that loses no dot holds no reference to a helper method. -/
theorem shortened_of_count {names : List Text} (named : ∀ name ∈ names, Identifier name)
    (same : (shortened names text).count '.' = text.count '.') :
    shortened names text = text ∧ ∀ name ∈ names, FindsNothing (toHelper name) none text := by
  induction names generalizing text with
  | nil => exact ⟨rfl, by simp⟩
  | cons name names ih =>
    obtain ⟨here, further⟩ := List.forall_mem_cons.mp named
    have dotted := toHelper_dotted here
    have first : (replaceAll (toHelper name) text).count '.' ≤ text.count '.' :=
      dotted.count_replaceFrom_le fun found => Nat.le_of_lt (count_toHelper_lt here found)
    have others := count_shortened_le further (replaceAll (toHelper name) text)
    change (shortened names (replaceAll (toHelper name) text)).count '.' = _ at same
    have nothing : FindsNothing (toHelper name) none text :=
      dotted.findsNothing_of_count (count_toHelper_lt here) (Nat.le_antisymm first (same ▸ others))
    have kept : replaceAll (toHelper name) text = text := replaceFrom_of_findsNothing nothing
    rw [kept] at same
    obtain ⟨unchanged, none⟩ := ih further same
    refine ⟨?_, List.forall_mem_cons.mpr ⟨nothing, none⟩⟩
    change shortened names (replaceAll (toHelper name) text) = text
    rw [kept, unchanged]

/-- A text without calls of helper methods is left as it is. -/
theorem shortened_of_findsNothing {names : List Text}
    (nothing : ∀ name ∈ names, FindsNothing (toHelper name) none text) : shortened names text = text := by
  induction names with
  | nil => rfl
  | cons name names ih =>
    obtain ⟨here, further⟩ := List.forall_mem_cons.mp nothing
    change shortened names (replaceAll (toHelper name) text) = text
    rw [replaceAll, replaceFrom_of_findsNothing here, ih further]

end Body

namespace BodyStyle

open Body

variable {style : BodyStyle} {names : List Text}

/-- The body of a hook is adapted by shortening calls and replacing self references. -/
theorem hookBody_eq (fixture : Identifier style.fixture) (named : ∀ name ∈ names, Identifier name)
    (body : Text) :
    style.hookBody names body = .ok (replaceAll (toFixture style.fixture) (shortened names body)) :=
  exceptBind_eq_ok_iff.mpr ⟨_, shortenHelpers_eq named body, replaceSelf_eq fixture _⟩

/-- The rewriting of a hook leaves exactly those texts as they are that hold no reference. -/
theorem hookBody_eq_self_iff (fixture : SettingValue.fixtureFault? style.fixture = none)
    (named : ∀ name ∈ names, Identifier name) (text : Text) :
    style.hookBody names text = .ok text ↔ ¬ HoldsReference names text := by
  obtain ⟨identifier, -⟩ := identifier_of_fixtureFault? fixture
  constructor
  · intro same
    have noSelf := not_holdsSelf_of_hookBody fixture same
    rw [hookBody_eq identifier named] at same
    have kept := Except.ok.inj same
    have dots : (shortened names text).count '.' = text.count '.' := by
      refine Nat.le_antisymm (count_shortened_le named text) ?_
      have fewer := count_replaceAll_toFixture_le identifier (shortened names text)
      rwa [kept] at fewer
    obtain ⟨-, nothing⟩ := shortened_of_count named dots
    rintro ⟨front, back, split, access | ⟨name, member, helper⟩⟩
    · exact noSelf ⟨front, back, split, access⟩
    · have dotted := toHelper_dotted (named name member)
      exact toHelper_eq_none.mp (dotted.findsNothing_iff.mp (nothing name member) front back split) helper
  · intro free
    have nothing : ∀ name ∈ names, FindsNothing (toHelper name) none text := fun name member =>
      (toHelper_dotted (named name member)).findsNothing_iff.mpr fun front back split =>
        toHelper_eq_none.mpr fun helper => free ⟨front, back, split, .inr ⟨name, member, helper⟩⟩
    have noSelf : FindsNothing (toFixture style.fixture) none text :=
      (toFixture_dotted identifier).findsNothing_iff.mpr fun front back split =>
        toFixture_eq_none.mpr fun access => free ⟨front, back, split, .inl access⟩
    rw [hookBody_eq identifier named, shortened_of_findsNothing nothing, replaceAll,
      replaceFrom_of_findsNothing noSelf]

/-- The literals and comments of a hook are rewritten each on its own. -/
theorem tokens_hookBody (fixture : Identifier style.fixture) (named : ∀ name ∈ names, Identifier name)
    {body raw : Text} (adapted : style.hookBody names body = .ok raw) :
    (tokens body).mapM (style.hookBody names) = .ok (tokens raw) := by
  rw [hookBody_eq fixture named] at adapted
  obtain rfl := Except.ok.inj adapted
  rw [tokens_replaceAll (toFixture_dotted fixture), tokens_shortened named, List.map_map,
    funext (hookBody_eq fixture named)]
  exact List.mapM_pure

end BodyStyle

/-- The hooks of a test case are rewritten without a failure, whatever their code. The literals and comments in
them keep their number and their order, and each becomes what it is rewritten to alone. They are the same as
before exactly if no literal or comment holds a reference to a helper method or a member access on `this`. -/
theorem hook_tokens_rewritten {style : BodyStyle} {owner : TestCase}
    (fixture : SettingValue.fixtureFault? style.fixture = none)
    (named : ∀ helper ∈ owner.helpers, Identifier helper.name) (body : Text) :
    ∃ raw, style.hookBody (owner.helpers.map (·.name)) body = .ok raw ∧
      (tokens body).mapM (style.hookBody (owner.helpers.map (·.name))) = .ok (tokens raw) ∧
      (tokens raw = tokens body ↔
        ∀ token ∈ tokens body, ¬ Body.HoldsReference (owner.helpers.map (·.name)) token) := by
  have identifiers : ∀ name ∈ owner.helpers.map (·.name), Identifier name := by
    simpa using named
  have identifier := (identifier_of_fixtureFault? fixture).1
  have adapts := BodyStyle.hookBody_eq identifier identifiers
  have apart := BodyStyle.tokens_hookBody identifier identifiers (adapts body)
  have mapped := apart
  rw [funext adapts] at mapped
  replace mapped := Except.ok.inj (List.mapM_pure.symm.trans mapped)
  refine ⟨_, adapts body, apart, ?_⟩
  rw [← mapped]
  constructor
  · intro same token member
    have kept := List.map_inj_left.mp (same.trans (List.map_id _).symm) token member
    exact (BodyStyle.hookBody_eq_self_iff fixture identifiers token).mp
      ((adapts token).trans (congrArg Except.ok kept))
  · intro free
    refine (List.map_inj_left.mpr fun token member => ?_).trans (List.map_id _)
    have kept := (BodyStyle.hookBody_eq_self_iff fixture identifiers token).mpr (free token member)
    exact Except.ok.inj ((adapts token).symm.trans kept)

/-- The body of a hook that logs, in words, what it does. -/
def loggingHook : Text :=
  "log( \"this.x\" );  // me.go( 1 )\nthis.go( /this.x/ );".toList

/-- A test case with that hook and a helper that it calls. -/
def loggingCase : TestCase where
  name := "a".toList
  setUp := some ⟨loggingHook, 2⟩
  helpers := [⟨"go".toList, [], ⟨[], 4⟩⟩]

/-- A string, a comment and a regular expression of a hook are rewritten like code. -/
theorem loggingCase_tokens_rewritten :
    ∃ raw, ({} : BodyStyle).hookBody (loggingCase.helpers.map (·.name)) loggingHook = .ok raw ∧
      tokens raw = ["\"thisSuite.x\"".toList, "// go( 1 )".toList, "/thisSuite.x/".toList] := by
  obtain ⟨raw, adapted, apart, -⟩ :=
    @hook_tokens_rewritten {} loggingCase (by decide) (by decide) loggingHook
  refine ⟨raw, adapted, ?_⟩
  have alone : (tokens loggingHook).mapM (({} : BodyStyle).hookBody (loggingCase.helpers.map (·.name))) =
      .ok ["\"thisSuite.x\"".toList, "// go( 1 )".toList, "/thisSuite.x/".toList] := by
    rfl
  exact Except.ok.inj (apart.symm.trans alone)

/-- The hook is left with other literals and another comment than it had. -/
theorem loggingCase_tokens_changed :
    SettingValue.fixtureFault? ({} : BodyStyle).fixture = none ∧
      (∀ helper ∈ loggingCase.helpers, Identifier helper.name) ∧
      (∀ hook ∈ loggingCase.setUp, hook.body = loggingHook) ∧
      ({} : BodyStyle).hookBody (loggingCase.helpers.map (·.name)) loggingHook =
        .ok "log( \"thisSuite.x\" );  // go( 1 )\ngo( /thisSuite.x/ );".toList ∧
      tokens loggingHook = ["\"this.x\"".toList, "// me.go( 1 )".toList, "/this.x/".toList] ∧
      tokens "log( \"thisSuite.x\" );  // go( 1 )\ngo( /thisSuite.x/ );".toList ≠ tokens loggingHook := by
  refine ⟨by decide, by decide, ?_, by rfl, by decide, by decide⟩
  rintro hook ⟨⟩
  rfl

end JasmineConversion
