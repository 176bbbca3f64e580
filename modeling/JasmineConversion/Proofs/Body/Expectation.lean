import JasmineConversion.Proofs.Body.Reports
import JasmineConversion.Proofs.Body.SelfReference
import JasmineConversion.Proofs.Literal.Reports

/-! # What expectations hold of their assertions

An expectation is put together from fixed texts and the arguments of an assertion call. It holds a member
access on `this` only if an argument does, or if it reaches a member of an argument that ends in `this`, and
no access reaches out of it but behind a message.
-/

namespace JasmineConversion

open Text Source Body

/-! ## Arguments -/

/-- What an argument holds stands in the parentheses of the call. -/
theorem Body.HoldsSelf.of_splitArguments {text item : Text} {items : List Text}
    (split : splitArguments text = .ok items) (member : item ∈ items) (holds : HoldsSelf item) :
    HoldsSelf text := by
  unfold splitArguments at split
  split at split
  · next pieces segmented =>
    cases split
    obtain ⟨piece, inside, rfl⟩ := List.mem_map.mp (mem_of_mem_dropEmptyLast member)
    rw [← (join_of_segmentsFrom segmented).2]
    exact holds.of_trim.join (by simp) (by decide) inside
  · cases split

/-! ## Expectations -/

namespace AssertionRule

/-- The texts by which an expectation reaches a member of an argument. -/
def memberAccesses : List Text :=
  [".hasOwnProperty( ".toList, ".length".toList]

/-- A text ends in `this`, which is no part of a longer name. -/
def EndsInSelf (text : Text) : Prop :=
  ∃ front, text = front ++ "this".toList ∧ startsFresh front.getLast? = true

/-- An expectation reaches a member of an argument that ends in `this`. -/
def ReachesMember (arguments : List Text) (expectation : Text) : Prop :=
  ∃ before owner access behind, owner ∈ arguments ∧ access ∈ memberAccesses ∧
    expectation = before ++ owner ++ access ++ behind ∧ EndsInSelf owner

variable {arguments : List Text} {expectation actual matcher expected : Text}

/-- An expectation that reaches a member through an argument does so with more arguments. -/
theorem ReachesMember.of_subset {more : List Text} (reaches : ReachesMember arguments expectation)
    (within : ∀ argument ∈ arguments, argument ∈ more) : ReachesMember more expectation := by
  obtain ⟨before, owner, access, behind, given, known, rfl, ends⟩ := reaches
  exact ⟨before, owner, access, behind, within owner given, known, rfl, ends⟩

/-- A member is still reached with a text behind the expectation. -/
theorem ReachesMember.append_right (reaches : ReachesMember arguments expectation) (more : Text) :
    ReachesMember arguments (expectation ++ more) := by
  obtain ⟨before, owner, access, behind, given, known, rfl, ends⟩ := reaches
  exact ⟨before, owner, access, behind ++ more, given, known, by simp, ends⟩

/-- A member is still reached with a text in front of the expectation. -/
theorem ReachesMember.append_left (reaches : ReachesMember arguments expectation) (more : Text) :
    ReachesMember arguments (more ++ expectation) := by
  obtain ⟨before, owner, access, behind, given, known, rfl, ends⟩ := reaches
  exact ⟨more ++ before, owner, access, behind, given, known, by simp, ends⟩

theorem reachesMember_of_owner {owner access : Text} (known : access ∈ memberAccesses)
    (ends : EndsInSelf owner) : ReachesMember [owner] (owner ++ access) :=
  ⟨[], owner, access, [], List.mem_singleton_self owner, known, by simp, ends⟩

/-- What an expectation is about, and what it compares with, reaches a member in the expectation too. -/
theorem ReachesMember.expect_actual (reaches : ReachesMember arguments actual) :
    ReachesMember arguments (expect actual matcher expected) := by
  unfold expect
  iterate 5 refine ReachesMember.append_right ?_ _
  exact reaches.append_left _

/-- What the expected side reaches is reached by the whole expectation. -/
theorem ReachesMember.expect_expected (reaches : ReachesMember arguments expected) :
    ReachesMember arguments (expect actual matcher expected) := by
  unfold expect
  exact (reaches.append_left _).append_right _

theorem endsApart_expect : EndsApart (expect actual matcher expected) := by
  have semicolon : EndsApart " );".toList := by decide
  unfold expect
  exact semicolon.append_left (by decide) _

/-- A self reference in an expectation is in one of its sides, unless the words between them hold one.
-/
theorem holdsSelf_of_expect (plain : ¬ HoldsSelf (" ).".toList ++ matcher ++ "( ".toList))
    (holds : HoldsSelf (expect actual matcher expected)) : HoldsSelf actual ∨ HoldsSelf expected := by
  have grouped : expect actual matcher expected = "expect( ".toList ++ actual ++
      (" ).".toList ++ matcher ++ "( ".toList) ++ expected ++ " );".toList := by
    unfold expect
    simp only [List.append_assoc]
  have space : EndsApart "( ".toList ∧ StartsApart " ).".toList := by decide
  have last : EndsApart (" ).".toList ++ matcher ++ "( ".toList) := space.1.append_left (by decide) _
  have head : StartsApart (" ).".toList ++ matcher ++ "( ".toList) := by
    rw [List.append_assoc]
    exact space.2.append_right (by decide) _
  rw [grouped] at holds
  rcases holds.of_between (last.append_left (by simp) _) (by decide) with front | inner | back
  · rcases front.of_between (by decide) head with lead | inner | middle
    · exact absurd lead (by decide)
    · exact .inl inner
    · exact absurd middle plain
  · exact .inr inner
  · exact absurd back (by decide)

/-- A rule whose expectations hold a member access on `this` only in an argument, or where they reach a
member of one. -/
structure Carries (rule : AssertionRule) : Prop where
  holds : ∀ arguments expectation, rule.expectation arguments = .ok (some expectation) →
    HoldsSelf expectation →
      (∃ argument ∈ arguments, HoldsSelf argument) ∨ ReachesMember arguments expectation
  ends : ∀ arguments expectation, rule.expectation arguments = .ok (some expectation) →
    EndsApart expectation

/-- A rule without arguments carries no self reference if its words hold none. -/
theorem carries_nullary (plain : ¬ HoldsSelf expectation) (ends : EndsApart expectation) :
    (nullary expectation).Carries where
  holds _ _ given holds := by
    cases given
    exact absurd holds plain
  ends _ _ given := by
    cases given
    exact ends

/-- A rule of one argument carries the self references of this argument. -/
theorem carries_unary {expectation : Text → Text}
    (quotes : ∀ value, HoldsSelf (expectation value) → HoldsSelf value)
    (ends : ∀ value, EndsApart (expectation value)) : (unary expectation).Carries where
  holds arguments _ given holds := by
    cases arguments with
    | nil => cases given
    | cons first others =>
      cases given
      exact .inl ⟨first, List.mem_cons_self, quotes first holds⟩
  ends arguments _ given := by
    cases arguments with
    | nil => cases given
    | cons first others =>
      cases given
      exact ends first

/-- A rule of two arguments carries the self references of these, and those that it makes of an argument
and a member. -/
theorem carries_binary {expectation : Text → Text → Text}
    (quotes : ∀ first second, HoldsSelf (expectation first second) →
      HoldsSelf first ∨ HoldsSelf second ∨ ReachesMember [first, second] (expectation first second))
    (ends : ∀ first second, EndsApart (expectation first second)) :
    (binary expectation).Carries where
  holds arguments _ given holds := by
    match arguments, given with
    | first :: second :: others, given =>
      cases given
      rcases quotes first second holds with inFirst | inSecond | reaches
      · exact .inl ⟨first, by simp, inFirst⟩
      · exact .inl ⟨second, by simp, inSecond⟩
      · exact .inr (reaches.of_subset (by simp))
  ends arguments _ given := by
    match arguments, given with
    | first :: second :: others, given =>
      cases given
      exact ends first second

/-- A comparison with a constant carries the self references of its argument. -/
theorem carries_constant {matcher value : String}
    (plain : ¬ HoldsSelf (" ).".toList ++ matcher.toList ++ "( ".toList))
    (plainValue : ¬ HoldsSelf value.toList) : (constant matcher value).Carries :=
  carries_unary (fun _ holds => (holdsSelf_of_expect plain holds).resolve_right plainValue)
    fun _ => endsApart_expect

/-- A test carries the self references of its argument. -/
theorem carries_holds {test : Text} (plain : ¬ HoldsSelf (test ++ "( ".toList)) : (holds test).Carries := by
  refine carries_unary (fun value holds => ?_) fun _ => endsApart_expect
  have inner := (holdsSelf_of_expect (by decide) holds).resolve_right (by decide)
  have space : EndsApart "( ".toList := by decide
  rcases inner.of_between (space.append_left (by decide) test) (by decide) with front | inner | back
  · exact absurd front plain
  · exact inner
  · exact absurd back (by decide)

/-- A comparison carries the self references of both arguments. -/
theorem carries_compare {matcher : String}
    (plain : ¬ HoldsSelf (" ).".toList ++ matcher.toList ++ "( ".toList)) : (compare matcher).Carries :=
  carries_binary (fun _ _ holds => (holdsSelf_of_expect plain holds).elim (.inr ∘ .inl) .inl)
    fun _ _ => endsApart_expect

/-- The rule for instances carries the self references of both arguments. -/
theorem carries_instanceOf : (binary fun type value =>
    expect (value ++ " instanceof ".toList ++ type) "toBe".toList "true".toList).Carries := by
  refine carries_binary (fun type value holds => ?_) fun _ _ => endsApart_expect
  have inner := (holdsSelf_of_expect (by decide) holds).resolve_right (by decide)
  have space : EndsApart " instanceof ".toList := by decide
  rcases inner.of_append_of_last (space.append_left (by decide) value) with front | inType
  · rcases front.of_append_of_head (by decide) with inValue | word
    · exact .inr (.inl inValue)
    · exact absurd word (by decide)
  · exact .inl inType

/-- A text from which an access reaches over a dot ends in `this`. -/
theorem endsInSelf_of_straddles {owner rest : Text} (reaches : Straddles owner ('.' :: rest)) :
    EndsInSelf owner := by
  have dot : ∀ n ≤ selfAccess.length, (selfAccess.drop n).head? = some '.' →
      selfAccess.take n = "this".toList := by
    decide
  obtain ⟨front, first, rfl, -, short, here⟩ := reaches
  obtain ⟨second, c, behind, split, same, starts⟩ := here.exists_second short
  refine ⟨front, ?_, here.1⟩
  cases second with
  | nil =>
    obtain ⟨rfl, -⟩ := List.cons.inj same
    cases starts
  | cons d second =>
    obtain ⟨rfl, -⟩ := List.cons.inj same
    have word := dot first.length short
    rw [split, List.drop_left, List.take_left] at word
    rw [word rfl]

/-- An argument and the access of its member hold an access on `this` if the argument does, or if it ends
in `this`. -/
theorem holdsSelf_of_owner {owner access : Text} (known : access ∈ memberAccesses)
    (holds : HoldsSelf (owner ++ access)) : HoldsSelf owner ∨ EndsInSelf owner := by
  have plain : ∀ access ∈ memberAccesses, ¬ HoldsSelf access ∧ access.head? = some '.' := by decide
  obtain ⟨noAccess, dot⟩ := plain access known
  obtain ⟨rest, rfl⟩ := List.head?_eq_some_iff.mp dot
  rcases holds.of_append with inOwner | inAccess | reaches
  · exact .inl inOwner
  · exact absurd inAccess noAccess
  · exact .inr (endsInSelf_of_straddles reaches)

/-- The rule for the items of an array makes a self reference only by the length of its first argument.
-/
theorem carries_containsItems : (binary fun items array =>
    expect ("_.intersection( ".toList ++ items ++ ", ".toList ++ array ++ " ).length".toList)
      "toBe".toList (items ++ ".length".toList)).Carries := by
  refine carries_binary (fun items array holds => ?_) fun _ _ => endsApart_expect
  rcases holdsSelf_of_expect (by decide) holds with inner | inner
  · have space : EndsApart ", ".toList := by decide
    rcases inner.of_between (space.append_left (by decide) _) (by decide) with front | inArray | back
    · rcases front.of_between (by decide) (by decide) with lead | inItems | comma
      · exact absurd lead (by decide)
      · exact .inl inItems
      · exact absurd comma (by decide)
    · exact .inr (.inl inArray)
    · exact absurd back (by decide)
  · rcases holdsSelf_of_owner (by decide) inner with inItems | ends
    · exact .inl inItems
    · have member := reachesMember_of_owner (by decide : ".length".toList ∈ memberAccesses) ends
      exact .inr (.inr (member.expect_expected.of_subset (by simp)))

/-- The expectation that an object has a key holds what these hold, or reaches a member of the object. -/
theorem holdsSelf_of_hasOwnKey {object key : Text} (holds : HoldsSelf (hasOwnKey object key)) :
    HoldsSelf object ∨ HoldsSelf key ∨ ReachesMember [object] (hasOwnKey object key) := by
  have inner := (holdsSelf_of_expect (by decide) holds).resolve_right (by decide)
  have space : EndsApart ".hasOwnProperty( ".toList := by decide
  rcases inner.of_between (space.append_left (by decide) object) (by decide) with
    front | inKey | back
  · rcases holdsSelf_of_owner (by decide) front with inObject | ends
    · exact .inl inObject
    · have member := reachesMember_of_owner (by decide : ".hasOwnProperty( ".toList ∈ memberAccesses) ends
      exact .inr (.inr ((member.append_right key).append_right " )".toList).expect_actual)
  · exact .inr (.inl inKey)
  · exact absurd back (by decide)

/-- The rule for a key makes a self reference only by a member of its second argument. -/
theorem carries_hasKey : (binary fun key object => hasOwnKey object key).Carries := by
  refine carries_binary (fun key object holds => ?_) fun _ _ => endsApart_expect
  rcases holdsSelf_of_hasOwnKey holds with inObject | inKey | reaches
  · exact .inr (.inl inObject)
  · exact .inl inKey
  · exact .inr (.inr (reaches.of_subset (by simp)))

/-- Expectations for keys end apart from what follows. -/
theorem endsApart_hasOwnKeys (object : Text) (names : List Text) :
    EndsApart (names.flatMap (hasOwnKey object)) := by
  induction names with
  | nil => exact (by decide : EndsApart [])
  | cons name names ih =>
    rw [List.flatMap_cons]
    exact EndsApart.append endsApart_expect ih

/-- A self reference in expectations for keys comes from the object, from a key, or from a member of the
object. -/
theorem holdsSelf_of_hasOwnKeys {object : Text} {names : List Text}
    (holds : HoldsSelf (names.flatMap (hasOwnKey object))) :
    HoldsSelf object ∨ (∃ name ∈ names, HoldsSelf name) ∨
      ReachesMember [object] (names.flatMap (hasOwnKey object)) := by
  induction names with
  | nil => exact absurd holds (by decide : ¬ HoldsSelf [])
  | cons name names ih =>
    rcases (List.flatMap_cons ▸ holds).of_append_of_last endsApart_expect with here | further
    · rcases holdsSelf_of_hasOwnKey here with inObject | inName | reaches
      · exact .inl inObject
      · exact .inr (.inl ⟨name, List.mem_cons_self, inName⟩)
      · exact .inr (.inr (List.flatMap_cons ▸ reaches.append_right _))
    · rcases ih further with inObject | ⟨other, member, inName⟩ | reaches
      · exact .inl inObject
      · exact .inr (.inl ⟨other, List.mem_cons_of_mem name member, inName⟩)
      · exact .inr (.inr (List.flatMap_cons ▸ reaches.append_left _))

/-- A rule for all keys that applies was given a list of keys and an object. -/
theorem exists_of_ownKeys {arguments : List Text}
    (given : ownKeys.expectation arguments = .ok (some expectation)) :
    ∃ keys object others names, arguments = keys :: object :: others ∧ startsWith ['['] keys = true ∧
      splitArguments (keys.drop 1).dropLast = .ok names ∧ expectation = names.flatMap (hasOwnKey object) := by
  unfold ownKeys at given
  dsimp only at given
  split at given
  · next keys object others =>
    split at given
    · next listed =>
      obtain ⟨names, split, given⟩ := exceptBind_eq_ok_iff.mp given
      cases given
      exact ⟨keys, object, others, names, rfl, (Bool.and_eq_true_iff.mp listed).1, split, rfl⟩
    · cases given
  · cases given

/-- The rule for all keys makes a self reference only by a member of its second argument. -/
theorem carries_ownKeys : ownKeys.Carries where
  holds arguments expectation given holds := by
    obtain ⟨keys, object, others, names, rfl, opens, split, rfl⟩ := exists_of_ownKeys given
    rcases holdsSelf_of_hasOwnKeys holds with inObject | ⟨name, member, inName⟩ | reaches
    · exact .inl ⟨object, by simp, inObject⟩
    · obtain ⟨rest, rfl⟩ := startsWith_singleton_iff.mp opens
      have inside := (inName.of_splitArguments split member).of_front (List.dropLast_prefix _)
      have fresh : startsFresh ['['].getLast? = true := by decide
      exact .inl ⟨'[' :: rest, List.mem_cons_self, inside.append_left fresh⟩
    · exact .inr (reaches.of_subset (by simp))
  ends arguments expectation given := by
    obtain ⟨keys, object, others, names, rfl, opens, split, rfl⟩ := exists_of_ownKeys given
    exact endsApart_hasOwnKeys object names

/-- Every rule of the table carries the self references of its arguments. -/
theorem carries_of_mem {rules : List (String × AssertionRule)} {space : String}
    (listed : (space, rules) ∈ namespaces) {name : String} {rule : AssertionRule}
    (member : (name, rule) ∈ rules) : rule.Carries := by
  simp only [namespaces, List.mem_cons, Prod.mk.injEq, List.not_mem_nil, or_false] at listed
  rcases listed with ⟨-, rfl⟩ | ⟨-, rfl⟩ | ⟨-, rfl⟩
  · have all : ∀ entry ∈ valueRules, entry.2.Carries := by
      simp only [valueRules, List.forall_mem_cons]
      refine ⟨carries_constant ?_ ?_, carries_constant ?_ ?_, carries_constant ?_ ?_,
        carries_constant ?_ ?_, carries_holds ?_, carries_holds ?_, carries_holds ?_, carries_holds ?_,
        carries_holds ?_, carries_instanceOf, carries_compare ?_, carries_compare ?_, carries_compare ?_,
        carries_compare ?_, carries_nullary ?_ ?_, fun entry none => (List.not_mem_nil none).elim⟩
      all_goals decide
    exact all _ member
  · have all : ∀ entry ∈ arrayRules, entry.2.Carries := by
      simp only [arrayRules, List.forall_mem_cons]
      refine ⟨carries_compare ?_, carries_compare ?_, carries_containsItems, carries_compare ?_,
        carries_constant ?_ ?_, fun entry none => (List.not_mem_nil none).elim⟩
      all_goals decide
    exact all _ member
  · have all : ∀ entry ∈ objectRules, entry.2.Carries := by
      simp only [objectRules, List.forall_mem_cons]
      exact ⟨carries_hasKey, carries_ownKeys, carries_ownKeys,
        fun entry none => (List.not_mem_nil none).elim⟩
    exact all _ member

/-- The expectation for a call is that of a rule in the tables, with the message behind it that was given. -/
theorem exists_rule_of_expectationFor {space function : Text}
    (translated : expectationFor space function arguments = .ok expectation) :
    ∃ table rules name, ∃ (rule : AssertionRule) (stated : Text), (table, rules) ∈ namespaces ∧
      (name, rule) ∈ rules ∧ rule.expectation arguments = .ok (some stated) ∧
      expectation = withMessage stated arguments[rule.arity]? := by
  unfold expectationFor at translated
  dsimp only at translated
  split at translated
  · cases translated
  · next rules listed =>
    split at translated
    · cases translated
    · next rule found =>
      split at translated
      · cases translated
      · split at translated
        · cases translated
        · cases translated
        · next stated given =>
          cases translated
          obtain ⟨space, listed⟩ := exists_mem_of_entry? listed
          obtain ⟨name, member⟩ := exists_mem_of_entry? found
          exact ⟨space, rules, name, rule, stated, listed, member, given, rfl⟩

/-- An assertion that is translated has a rule, which states something about the arguments. -/
theorem exists_of_expectationFor {space function : Text}
    (translated : expectationFor space function arguments = .ok expectation) :
    ∃ (rule : AssertionRule) (stated : Text), rule.Carries ∧
      rule.expectation arguments = .ok (some stated) ∧ expectation = withMessage stated arguments[rule.arity]? := by
  obtain ⟨_, _, _, rule, stated, listed, member, given, same⟩ := exists_rule_of_expectationFor translated
  exact ⟨rule, stated, carries_of_mem listed member, given, same⟩

/-- A self reference in an expectation is in an argument, or is made of an argument and a member. -/
theorem holdsSelf_of_expectationFor {space function : Text}
    (translated : expectationFor space function arguments = .ok expectation) (holds : HoldsSelf expectation) :
    (∃ argument ∈ arguments, HoldsSelf argument) ∨ ReachesMember arguments expectation := by
  obtain ⟨rule, stated, carries, given, rfl⟩ := exists_of_expectationFor translated
  cases message : arguments[rule.arity]? with
  | none =>
    rw [message] at holds
    exact carries.holds arguments stated given holds
  | some text =>
    rw [message, withMessage, List.append_assoc] at holds
    have space : StartsApart messageComment := by decide
    rcases holds.of_append_of_head (space.append_right (by decide) text) with inStated | behind
    · rcases carries.holds arguments stated given inStated with inArgument | reaches
      · exact .inl inArgument
      · rw [withMessage, List.append_assoc]
        exact .inr (reaches.append_right _)
    · rcases behind.of_append_of_last (by decide) with comment | inMessage
      · exact absurd comment (by decide)
      · exact .inl ⟨text, List.mem_of_getElem? message, inMessage⟩

/-- An access reaches out of an expectation only behind a message. -/
theorem exists_message_of_straddles {space function behind : Text}
    (translated : expectationFor space function arguments = .ok expectation)
    (reaches : Straddles expectation behind) :
    ∃ stated, ∃ message ∈ arguments, expectation = withMessage stated (some message) ∧
      Straddles message behind := by
  obtain ⟨rule, stated, carries, given, rfl⟩ := exists_of_expectationFor translated
  cases message : arguments[rule.arity]? with
  | none =>
    rw [message] at reaches
    exact absurd reaches (not_straddles_of_last (carries.ends arguments stated given))
  | some text =>
    rw [message, withMessage] at reaches
    have space : EndsApart messageComment := by decide
    have comment : EndsApart (stated ++ messageComment) := space.append_left (by decide) stated
    exact ⟨stated, text, List.mem_of_getElem? message, rfl, reaches.of_append comment⟩

end AssertionRule

end JasmineConversion
