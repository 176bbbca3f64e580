import JasmineConversion.Proofs.Body.Expectation

/-! # What expectations are made of

An expectation states something of two operands. An operand is a constant, an argument, or one of a few
expressions about arguments. Nothing else of a call is in its expectation.
-/

namespace JasmineConversion.AssertionRule

open Text Source

/-- The matchers of expectations. -/
def matchers : List String :=
  ["toBe", "not.toBe", "toEqual", "not.toEqual", "toContain", "not.toContain"]

/-- The values that expectations compare with. -/
def constants : List String :=
  ["true", "false", "null", "[]"]

/-- The tests that expectations apply. -/
def tests : List String :=
  ["_.isUndefined", "_.isString", "_.isObject", "_.isArray", "isNaN"]

/-- The text by which an expectation asks an object for a key. -/
def ownKeyAccess : Text :=
  ".hasOwnProperty( ".toList

/-- What an expectation is about or compares with, in which some texts are quoted. -/
inductive Operand (quoted : List Text) : Text → Prop
  | constant (value : String) (known : value ∈ constants) : Operand quoted value.toList
  | argument {value : Text} (given : value ∈ quoted) : Operand quoted value
  | test {name : String} {value : Text} (known : name ∈ tests) (given : value ∈ quoted) :
      Operand quoted (name.toList ++ "( ".toList ++ value ++ " )".toList)
  | instanceOf {value type : Text} (given : value ∈ quoted) (given' : type ∈ quoted) :
      Operand quoted (value ++ " instanceof ".toList ++ type)
  | common {items array : Text} (given : items ∈ quoted) (given' : array ∈ quoted) :
      Operand quoted ("_.intersection( ".toList ++ items ++ ", ".toList ++ array ++ " ).length".toList)
  | size {items : Text} (given : items ∈ quoted) : Operand quoted (items ++ ".length".toList)
  | ownKey {object key : Text} (given : object ∈ quoted) (given' : key ∈ quoted) :
      Operand quoted (object ++ ownKeyAccess ++ key ++ " )".toList)

/-- A run of expectations, in which some texts are quoted. -/
inductive Stated (quoted : List Text) : Text → Prop
  | nil : Stated quoted []
  | expect {actual expected rest : Text} (matcher : String) (known : matcher ∈ matchers)
      (about : Operand quoted actual) (against : Operand quoted expected) (others : Stated quoted rest) :
      Stated quoted (expect actual matcher.toList expected ++ rest)

/-- The texts that the expectation of a call quotes: as many arguments as its rule needs, or an object and the
keys in the array literal in front of it. -/
inductive Quoted (arguments : List Text) (arity : Nat) : (quoted : List Text) → Prop
  | arguments : Quoted arguments arity (arguments.take arity)
  | keys {keys object : Text} {others names : List Text} (same : arguments = keys :: object :: others)
      (opens : startsWith ['['] keys = true) (split : splitArguments (keys.drop 1).dropLast = .ok names) :
      Quoted arguments arity (object :: names)

/-- The expectations of a rule are made of what it quotes. -/
def Composes (rule : AssertionRule) : Prop :=
  ∀ arguments stated, rule.expectation arguments = .ok (some stated) →
    ∃ quoted, Quoted arguments rule.arity quoted ∧ Stated quoted stated

/-- An expectation, as it is read from left to right. -/
theorem expect_eq (actual matcher expected : Text) : expect actual matcher expected =
    "expect( ".toList ++ (actual ++ (" ).".toList ++ matcher ++ "( ".toList ++
      (expected ++ " );".toList))) := by
  unfold expect
  -- As variables, the literals are not computed when the texts are regrouped.
  generalize "expect( ".toList = opening, " ).".toList = closing, "( ".toList = against, " );".toList = ending
  simp only [List.append_assoc]

/-- One expectation with a known matcher is stated. -/
theorem Stated.single {quoted : List Text} {actual expected : Text} (matcher : String)
    (known : matcher ∈ matchers) (about : Operand quoted actual) (against : Operand quoted expected) :
    Stated quoted (AssertionRule.expect actual matcher.toList expected) := by
  have whole := Stated.expect matcher known about against .nil
  rwa [List.append_nil] at whole

/-- A rule without arguments states what it says. -/
theorem composes_nullary {expectation : Text} (stated : Stated [] expectation) :
    (nullary expectation).Composes := by
  rintro arguments _ ⟨⟩
  exact ⟨_, .arguments, stated⟩

/-- A rule of one argument states something about it. -/
theorem composes_unary {expectation : Text → Text}
    (stated : ∀ value, Stated [value] (expectation value)) : (unary expectation).Composes := by
  intro arguments _ given
  cases arguments with
  | nil => cases given
  | cons first others =>
    cases given
    exact ⟨_, .arguments, stated first⟩

/-- A rule of two arguments states something about them. -/
theorem composes_binary {expectation : Text → Text → Text}
    (stated : ∀ first second, Stated [first, second] (expectation first second)) :
    (binary expectation).Composes := by
  intro arguments _ given
  match arguments, given with
  | first :: second :: others, given =>
    cases given
    exact ⟨_, .arguments, stated first second⟩

theorem composes_constant {matcher value : String} (known : matcher ∈ matchers)
    (known' : value ∈ constants) : (constant matcher value).Composes :=
  composes_unary fun _ => .single matcher known (.argument (by simp)) (.constant value known')

theorem composes_holds {test : String} (known : test ∈ tests) : (holds test.toList).Composes :=
  composes_unary fun _ => .single "toBe" (by decide) (.test known (by simp)) (.constant "true" (by decide))

theorem composes_compare {matcher : String} (known : matcher ∈ matchers) : (compare matcher).Composes :=
  composes_binary fun _ _ => .single matcher known (.argument (by simp)) (.argument (by simp))

theorem stated_hasOwnKey {quoted : List Text} {object key rest : Text} (given : object ∈ quoted)
    (given' : key ∈ quoted) (others : Stated quoted rest) : Stated quoted (hasOwnKey object key ++ rest) :=
  .expect "toBe" (by decide) (.ownKey given given') (.constant "true" (by decide)) others

/-- That an object has some keys is stated one after the other. -/
theorem stated_hasOwnKeys {quoted names : List Text} {object : Text} (given : object ∈ quoted)
    (given' : ∀ name ∈ names, name ∈ quoted) : Stated quoted (names.flatMap (hasOwnKey object)) := by
  induction names with
  | nil => exact .nil
  | cons name names ih =>
    obtain ⟨here, further⟩ := List.forall_mem_cons.mp given'
    rw [List.flatMap_cons]
    exact stated_hasOwnKey given here (ih further)

/-- A rule for all keys states one expectation for each of them. -/
theorem composes_ownKeys : ownKeys.Composes := by
  intro arguments stated given
  obtain ⟨keys, object, others, names, same, opens, split, rfl⟩ := exists_of_ownKeys given
  refine ⟨_, .keys same opens split, stated_hasOwnKeys List.mem_cons_self fun name member => ?_⟩
  exact List.mem_cons_of_mem object member

/-- Every rule of the table states something about its arguments. -/
theorem composes_of_mem {rules : List (String × AssertionRule)} {space : String}
    (listed : (space, rules) ∈ namespaces) {name : String} {rule : AssertionRule}
    (member : (name, rule) ∈ rules) : rule.Composes := by
  simp only [namespaces, List.mem_cons, Prod.mk.injEq, List.not_mem_nil, or_false] at listed
  rcases listed with ⟨-, rfl⟩ | ⟨-, rfl⟩ | ⟨-, rfl⟩
  · have all : ∀ entry ∈ valueRules, entry.2.Composes := by
      simp only [valueRules, List.forall_mem_cons]
      refine ⟨composes_constant ?_ ?_, composes_constant ?_ ?_, composes_constant ?_ ?_,
        composes_constant ?_ ?_, composes_holds ?_, composes_holds ?_, composes_holds ?_, composes_holds ?_,
        composes_holds ?_, composes_binary fun _ _ => .single "toBe" ?_
          (.instanceOf (by simp) (by simp)) (.constant "true" ?_),
        composes_compare ?_, composes_compare ?_, composes_compare ?_, composes_compare ?_,
        composes_nullary (.single "toBe" ?_ (.constant "true" ?_) (.constant "false" ?_)),
        fun entry none => (List.not_mem_nil none).elim⟩
      all_goals decide
    exact all _ member
  · have all : ∀ entry ∈ arrayRules, entry.2.Composes := by
      simp only [arrayRules, List.forall_mem_cons]
      refine ⟨composes_compare ?_, composes_compare ?_, composes_binary fun _ _ =>
          .single "toBe" ?_ (.common (by simp) (by simp)) (.size (by simp)),
        composes_compare ?_, composes_constant ?_ ?_, fun entry none => (List.not_mem_nil none).elim⟩
      all_goals decide
    exact all _ member
  · have all : ∀ entry ∈ objectRules, entry.2.Composes := by
      simp only [objectRules, List.forall_mem_cons]
      refine ⟨composes_binary fun key object => ?_, composes_ownKeys, composes_ownKeys,
        fun entry none => (List.not_mem_nil none).elim⟩
      have single := @stated_hasOwnKey [key, object] object key []
        (by simp) (by simp) .nil
      rwa [List.append_nil] at single
    exact all _ member

/-- An expectation is made of what is quoted of the arguments, with the next argument for its message. -/
theorem exists_stated_of_expectationFor {space function expectation : Text} {arguments : List Text}
    (translated : expectationFor space function arguments = .ok expectation) :
    ∃ arity quoted stated, Quoted arguments arity quoted ∧ Stated quoted stated ∧
      expectation = withMessage stated arguments[arity]? := by
  obtain ⟨_, _, _, rule, stated, listed, member, given, same⟩ := exists_rule_of_expectationFor translated
  obtain ⟨quoted, quotes, composed⟩ := composes_of_mem listed member arguments stated given
  exact ⟨rule.arity, quoted, stated, quotes, composed, same⟩

end JasmineConversion.AssertionRule
