import JasmineConversion.Proofs.Assertion.Statements
import JasmineConversion.Proofs.Source.WellFormed

/-! # Properties that expectations keep

An expectation puts what it quotes together with names and parentheses. A property that these leave alone, such
as that the reading comes back to code, or that the brackets of a kind are balanced, is one of the expectation
if it is one of each text that is quoted.
-/

namespace JasmineConversion.AssertionRule

open Text Source

/-- A character that is no bracket and starts no literal. -/
def Bare (c : Char) : Prop :=
  ∀ bracket : Bracket, bracket.Plain c

instance (c : Char) : Decidable (Bare c) :=
  decidable_of_iff (Bracket.round.Plain c ∧ Bracket.square.Plain c ∧ Bracket.brace.Plain c) (by
    refine ⟨fun ⟨round, square, brace⟩ bracket => ?_, fun bare => ⟨bare _, bare _, bare _⟩⟩
    cases bracket <;> assumption)

/-- A property of code that texts without literals and brackets have, and that texts get from what they are put
together from or enclose in parentheses. -/
structure Steady (holds : Text → Prop) : Prop where
  bare {text : Text} (bare : ∀ c ∈ text, Bare c) : holds text
  append {text more : Text} (first : holds text) (second : holds more) : holds (text ++ more)
  enclosed {text : Text} (inside : holds text) (bracket : Bracket) :
    holds (bracket.opener :: text ++ [bracket.closer])

/-- Whether a text ends in code as it began is a steady property. -/
theorem steady_code : Steady fun text => text.foldl Mode.next .code = .code where
  bare bare := (Bracket.mode_of_scan (Bracket.passes_of_plain (fun c member => bare c member .round) 0)).symm
  append first second := by rw [List.foldl_append, first, second]
  enclosed {text} inside bracket := by
    rw [List.cons_append, List.foldl_cons, Bracket.code_next_opener, List.foldl_append, inside]
    exact Bracket.code_next_closer bracket

/-- Whether a text leaves the nesting as it was is a steady property. -/
theorem steady_passes (bracket : Bracket) : Steady bracket.Passes where
  bare bare := Bracket.passes_of_plain fun c member => bare c member bracket
  append := Bracket.Passes.append
  enclosed := Bracket.Passes.enclosed

/-- An expectation is put together from two calls, one behind the other. -/
theorem expect_eq_calls (actual matcher expected : Text) : expect actual matcher expected =
    ("expect".toList ++ "( ".toList ++ actual ++ " )".toList ++ '.' :: matcher) ++ "( ".toList ++ expected ++
      " )".toList ++ [';'] := by
  have opening : "expect( ".toList = "expect".toList ++ "( ".toList := rfl
  have closing : " ).".toList = " )".toList ++ ['.'] := rfl
  have ending : " );".toList = " )".toList ++ [';'] := rfl
  unfold expect
  -- As variables, the literals are not computed when the texts are regrouped.
  generalize "expect( ".toList = start, " ).".toList = middle, " );".toList = last, "expect".toList = name,
    "( ".toList = before, " )".toList = after at *
  subst opening closing ending
  simp only [List.append_assoc, List.cons_append, List.nil_append]

namespace Steady

variable {holds : Text → Prop} (steady : Steady holds) {quoted : List Text} {text front inner : Text}
include steady

/-- A call of what stands in front of the parenthesis. -/
theorem call (called : holds front) (inside : holds inner) :
    holds (front ++ "( ".toList ++ inner ++ " )".toList) := by
  have space : holds [' '] := steady.bare (by decide)
  have whole := steady.append called (steady.enclosed (steady.append (steady.append space inside) space) .round)
  have same : front ++ "( ".toList ++ inner ++ " )".toList =
      front ++ ('(' :: ([' '] ++ inner ++ [' ']) ++ [')']) := by
    change front ++ ['(', ' '] ++ inner ++ [' ', ')'] = _
    simp
  rwa [same]

/-- An operand has every steady property that the quoted texts have. -/
theorem operand (quotes : ∀ text ∈ quoted, holds text) (operand : Operand quoted text) : holds text := by
  cases operand with
  | constant value known =>
    simp only [constants, List.mem_cons, List.not_mem_nil, or_false] at known
    rcases known with rfl | rfl | rfl | rfl
    · exact steady.bare (by decide)
    · exact steady.bare (by decide)
    · exact steady.bare (by decide)
    · exact steady.enclosed (steady.bare (List.forall_mem_nil _)) .square
  | argument given => exact quotes text given
  | @test name value known given =>
    have bare : ∀ name ∈ tests, ∀ c ∈ name.toList, Bare c := by decide
    exact steady.call (steady.bare (bare name known)) (quotes value given)
  | @instanceOf value type given given' =>
    exact steady.append (steady.append (quotes value given) (steady.bare (by decide))) (quotes type given')
  | @common items array given given' =>
    have comma : holds ", ".toList := steady.bare (by decide)
    have called : holds "_.intersection".toList := steady.bare (by decide)
    have length : holds ".length".toList := steady.bare (by decide)
    have both := steady.append (steady.append (quotes items given) comma) (quotes array given')
    have whole := steady.append (steady.call called both) length
    have opening : "_.intersection( ".toList = "_.intersection".toList ++ "( ".toList := rfl
    have closing : " ).length".toList = " )".toList ++ ".length".toList := rfl
    generalize "_.intersection( ".toList = start, " ).length".toList = ending, "_.intersection".toList = name,
      "( ".toList = before, " )".toList = after, ", ".toList = between, ".length".toList = member at *
    subst opening closing
    simpa only [List.append_assoc] using whole
  | @size items given => exact steady.append (quotes items given) (steady.bare (by decide))
  | @ownKey object key given given' =>
    have access : holds ".hasOwnProperty".toList := steady.bare (by decide)
    have whole := steady.call (steady.append (quotes object given) access) (quotes key given')
    have opening : ownKeyAccess = ".hasOwnProperty".toList ++ "( ".toList := rfl
    generalize ".hasOwnProperty".toList = name, "( ".toList = before, " )".toList = after at *
    rw [opening, ← List.append_assoc object]
    exact whole

/-- An expectation has every steady property that its operands have. -/
theorem expect {matcher actual expected : Text} (matches' : ∀ c ∈ matcher, Bare c) (about : holds actual)
    (against : holds expected) : holds (expect actual matcher expected) := by
  have name : holds "expect".toList := steady.bare (by decide)
  have access : holds ('.' :: matcher) :=
    steady.bare (List.forall_mem_cons.mpr ⟨by decide, matches'⟩)
  have ends : holds [';'] := steady.bare (by decide)
  have whole := steady.append (steady.call (steady.append (steady.call name about) access) against) ends
  rw [expect_eq_calls]
  exact whole

/-- A run of expectations has the property if what it quotes has it. -/
theorem stated (quotes : ∀ text ∈ quoted, holds text) (stated : Stated quoted text) : holds text := by
  have bare : ∀ matcher ∈ matchers, ∀ c ∈ matcher.toList, Bare c := by decide
  induction stated with
  | nil => exact steady.bare (List.forall_mem_nil _)
  | expect matcher known about against _ ih =>
    have here := steady.expect (bare matcher known) (steady.operand quotes about) (steady.operand quotes against)
    exact steady.append here ih

end Steady

end JasmineConversion.AssertionRule
