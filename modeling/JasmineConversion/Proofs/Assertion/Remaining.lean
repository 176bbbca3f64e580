import JasmineConversion.Proofs.Assertion.Sites
import JasmineConversion.Proofs.Assertion.Starts
import JasmineConversion.Proofs.Assertion.Statements

/-! # Assertion calls that are left

What an expectation quotes is not searched, so that a call inside an argument stays. A call may also come about
where a text ends in a name and a member is reached behind it, behind a message, or where a call leaves nothing
in its place. There is no other call in the result, and every call of the code is translated or stands inside
one that is, or right behind a message.
-/

namespace JasmineConversion.AssertionCall

open Text Source AssertionRule

variable {previous : Option Char} {text behind front : Text}

/-! ## Expectations -/

/-- An expectation brings a call along: one in a text that it quotes, or one at the end of such a text, behind
which it asks for a key. -/
inductive Brings (quoted : List Text) (expectation : Text) : Prop
  | quoted {argument : Text} (given : argument ∈ quoted) (holds : HoldsCall argument) : Brings quoted expectation
  | owner {object : Text} (given : object ∈ quoted) (asks : object ++ ownKeyAccess <:+: expectation)
      (holds : HoldsCall (object ++ ownKeyAccess)) : Brings quoted expectation

variable {quoted : List Text} {actual expected expectation : Text}

/-- What brings calls of the quoted texts brings them into a longer text too. -/
theorem Brings.mono {more : Text} (brings : Brings quoted text) (inside : text <:+: more) :
    Brings quoted more := by
  cases brings with
  | quoted given holds => exact .quoted given holds
  | owner given asks holds => exact .owner given (asks.trans inside) holds

/-- A call in an operand comes from the quoted texts. -/
theorem brings_of_operand (operand : Operand quoted text) (starts : CallIn previous text behind)
    (stops : Stopping behind) : Brings quoted text := by
  have space : Stopping " )".toList := by decide
  cases operand with
  | constant value known =>
    have free : ∀ value ∈ constants, CallFree none value.toList := by decide
    exact absurd (starts.holdsCall stops) (free value known).not_holdsCall
  | argument given => exact .quoted given (starts.holdsCall stops)
  | @test name value known given =>
    have silent : ∀ name ∈ tests, Silent none (name.toList ++ "( ".toList) := by decide
    have inner := starts.of_between (silent name known) (by decide)
    exact .quoted given (inner.holdsCall (space.append _))
  | @instanceOf value type given given' =>
    rcases callIn_append.mp starts with front | inType
    · rcases callIn_append.mp front with inValue | word
      · have word : Stopping " instanceof ".toList := by decide
        exact .quoted given (inValue.holdsCall (word.append _))
      · exact absurd word (Silent.of_none (by decide) |>.not_callIn _)
    · exact .quoted given' (inType.holdsCall stops)
  | @common items array given given' =>
    rcases callIn_append.mp starts with front | last
    · rcases callIn_append.mp front with first | inArray
      · have comma : Stopping ", ".toList := by decide
        have inner := first.of_between (by decide) (by decide)
        exact .quoted given (inner.holdsCall (comma.append _))
      · exact .quoted given' (inArray.holdsCall ((by decide : Stopping " ).length".toList).append _))
    · exact absurd last (Silent.of_none (by decide) |>.not_callIn _)
  | @size items given =>
    rcases callIn_append.mp starts with inItems | length
    · exact .quoted given (inItems.holdsCall (stops.of_dotted (by decide)))
    · exact absurd length (Silent.of_none (by decide) |>.not_callIn _)
  | @ownKey object key given given' =>
    rcases callIn_append.mp starts with front | last
    · rcases callIn_append.mp front with first | inKey
      · rcases callIn_append.mp first with inObject | access
        · have asks : object ++ ownKeyAccess <:+: object ++ ownKeyAccess ++ key ++ " )".toList :=
            ((List.prefix_append _ key).trans (List.prefix_append _ _)).isInfix
          have opens : '(' ∈ ownKeyAccess := by decide
          exact .owner given asks (CallIn.holdsCall_append inObject opens)
        · exact absurd access (Silent.of_none (by decide) |>.not_callIn _)
      · exact .quoted given' (inKey.holdsCall (space.append _))
    · exact absurd last (Silent.of_none (by decide) |>.not_callIn _)

/-- A call in an expectation comes from the quoted texts, since the words of the expectation start none.
-/
theorem brings_of_expect {matcher : String} (known : matcher ∈ matchers) (about : Operand quoted actual)
    (against : Operand quoted expected)
    (starts : CallIn previous (expect actual matcher.toList expected) behind) :
    Brings quoted (expect actual matcher.toList expected) := by
  have silent : ∀ matcher ∈ matchers, Silent none (" ).".toList ++ matcher.toList ++ "( ".toList) := by decide
  have closes : Stopping " ).".toList := by decide
  have ends : Stopping " );".toList := by decide
  rw [expect_eq] at starts ⊢
  rcases callIn_append.mp starts with opening | starts
  · exact absurd opening (Silent.of_none (by decide) |>.not_callIn _)
  rcases callIn_append.mp starts with inActual | starts
  · rw [List.append_assoc, List.append_assoc, List.append_assoc] at inActual
    exact (brings_of_operand about inActual (closes.append _)).mono ⟨_, _, List.append_assoc _ _ _⟩
  rcases callIn_append.mp starts with middle | starts
  · exact absurd middle ((silent matcher known).of_none.not_callIn _)
  rcases callIn_append.mp starts with inExpected | closing
  · refine (brings_of_operand against inExpected (ends.append behind)).mono ?_
    exact (List.prefix_append _ _).isInfix.trans ((List.suffix_append _ _).trans
      ((List.suffix_append _ _).trans (List.suffix_append _ _))).isInfix
  · exact absurd closing (Silent.of_none (by decide) |>.not_callIn _)

/-- A call in what is stated comes from the quoted texts. -/
theorem brings_of_stated (stated : Stated quoted text) (starts : CallIn previous text behind) :
    Brings quoted text := by
  induction stated generalizing previous with
  | nil => exact absurd starts not_callIn_nil
  | expect matcher known about against _ ih =>
    rcases callIn_append.mp starts with here | further
    · exact (brings_of_expect known about against here).mono (List.prefix_append _ _).isInfix
    · exact (ih further).mono (List.suffix_append _ _).isInfix

/-- What is stated starts with the word of an expectation. -/
theorem exists_front_of_stated (stated : Stated quoted text) (nonempty : text ≠ []) :
    ∃ rest, text = "expect( ".toList ++ rest := by
  cases stated with
  | nil => exact absurd rfl nonempty
  | expect =>
    rw [expect_eq]
    exact ⟨_, List.append_assoc _ _ _⟩

/-! ## Calls of the result -/

/-- What stands for a call, and the gap in front of it, have an assertion call start in them: one that the
expectation brings along with what it quotes, one in the message, or one that comes about in the gap, since
nothing stands for the call. -/
inductive Site.Leaves (site : Site) (behind : Text) : Prop
  | quoted {arguments quoted : List Text} {arity : Nat} (given : splitArguments site.inside = .ok arguments)
      (quotes : Quoted arguments arity quoted) (brings : Brings quoted site.expectation) : site.Leaves behind
  | message {arguments : List Text} {stated message : Text} (given : splitArguments site.inside = .ok arguments)
      (member : message ∈ arguments) (shown : site.expectation = stated ++ messageComment ++ message)
      (starts : CallIn none message behind) : site.Leaves behind
  | removed {previous : Option Char} (nothing : site.expectation = [])
      (starts : CallIn previous site.gap behind) : site.Leaves behind

variable {site : Site} {sites : List Site} {last : Text}

/-- A call that starts in the expectation of a site is left by an argument of the site. -/
theorem Site.Reads.leaves_of_expectation {other : Option Char} {after : Text}
    (reads : site.Reads previous behind) (starts : CallIn other site.expectation after) :
    site.Leaves after := by
  obtain ⟨arguments, given, translated⟩ := reads.translated
  obtain ⟨arity, quoted, stated, quotes, isStated, shown⟩ := exists_stated_of_expectationFor translated
  cases found : arguments[arity]? with
  | none =>
    rw [found] at shown
    rw [shown] at starts
    have brings := brings_of_stated isStated starts
    exact .quoted given quotes (by rwa [shown])
  | some message =>
    rw [found] at shown
    change _ = stated ++ messageComment ++ message at shown
    rw [shown] at starts
    rcases callIn_append.mp starts with front | inMessage
    · rcases callIn_append.mp front with inStated | comment
      · refine .quoted given quotes ((brings_of_stated isStated inStated).mono ?_)
        rw [shown]
        exact ((List.prefix_append _ _).trans (List.prefix_append _ _)).isInfix
      · exact absurd comment (Silent.of_none (by decide) |>.not_callIn _)
    · exact .message given (List.mem_of_getElem? found) shown (inMessage.of_apart apart_none)

/-- Behind white space, an expectation starts with no parenthesis. -/
theorem Site.Reads.exists_solid (reads : site.Reads previous behind) (nonempty : site.expectation ≠ []) :
    ∃ blank c rest, site.expectation = blank ++ c :: rest ∧ isBlankText blank = true ∧ isBlank c = false ∧
      c ≠ '(' := by
  obtain ⟨arguments, given, translated⟩ := reads.translated
  obtain ⟨arity, quoted, stated, quotes, isStated, shown⟩ := exists_stated_of_expectationFor translated
  by_cases empty : stated = []
  · subst empty
    cases found : arguments[arity]? with
    | none => exact absurd (by rw [shown, found]; rfl) nonempty
    | some message =>
      rw [found] at shown
      exact ⟨[' ', ' '], '/', _, shown, by decide, by decide, by decide⟩
  · obtain ⟨rest, rfl⟩ := exists_front_of_stated isStated empty
    cases found : arguments[arity]? with
    | none =>
      rw [found] at shown
      exact ⟨[], 'e', _, shown, by decide, by decide, by decide⟩
    | some message =>
      rw [found] at shown
      exact ⟨[], 'e', _, shown, by decide, by decide, by decide⟩

/-- A call that starts in the text in front of a site is left as it was. -/
theorem Site.Reads.leaves_of_gap {after : Text} (reads : site.Reads previous behind)
    (starts : CallIn previous site.gap (site.expectation ++ after)) : site.Leaves after := by
  by_cases nothing : site.expectation = []
  · rw [nothing] at starts
    exact .removed nothing starts
  obtain ⟨front, rest, same, nonempty, here⟩ := starts
  have absent := reads.first front rest same nonempty
  rcases here.of_append with inside | ⟨tail, space, function, more, headed, split⟩
  · exact absurd (inside.append _) absent
  · obtain ⟨rest, c, concat⟩ := (List.eq_nil_or_concat rest).resolve_left nonempty
    rw [List.concat_eq_append] at concat
    subst concat
    have apart := reads.apart
    rw [same, ← List.append_assoc, List.getLast?_concat, Option.some_or] at apart
    rw [List.append_assoc] at headed
    have white := headed.isBlankText_rest apart.isDotted_eq_false
    obtain ⟨blank, d, others, shown, white', solid, noParenthesis⟩ := reads.exists_solid nothing
    rw [shown, List.append_assoc] at split
    obtain ⟨-, split⟩ := run_unique (isBlankText_iff.mp white') ((stops_cons _ _ _).mpr solid)
      (isBlankText_iff.mp white) ((stops_cons _ _ _).mpr (by decide)) split
    exact absurd (List.cons.inj split).1 noParenthesis

/-- Each call of the result starts in a gap or an expectation, which leaves it. -/
theorem exists_leaves_of_callAt {back : Text} (replaces : Replaces previous sites last)
    (split : written sites last = front ++ back) (here : CallAt (front.getLast?.or previous) back) :
    ∃ former site others inner rest, sites = former ++ site :: others ∧ front = written former inner ∧
      inner ++ rest = site.gap ++ site.expectation ∧ rest ≠ [] ∧ back = rest ++ written others last ∧
      site.Leaves (written others last) := by
  induction replaces generalizing front with
  | last free => exact absurd here (free front back split)
  | @site previous site sites last reads others ih =>
    rw [written, ← List.append_assoc] at split
    rcases append_eq_append_cases split with ⟨rest, shown, nonempty, rfl⟩ | ⟨more, rfl, further⟩
    · refine ⟨[], site, sites, front, rest, rfl, rfl, shown.symm, nonempty, rfl, ?_⟩
      have starts : CallIn previous (site.gap ++ site.expectation) (written sites last) :=
        ⟨front, rest, shown, nonempty, here⟩
      rcases callIn_append.mp starts with inGap | inExpectation
      · exact reads.leaves_of_gap inGap
      · exact reads.leaves_of_expectation inExpectation
    · rw [List.getLast?_append, List.getLast?_append, Option.or_assoc, Option.or_assoc] at here
      obtain ⟨former, other, later, inner, rest, rfl, rfl, shown, nonempty, rfl, leaves⟩ := ih further here
      exact ⟨site :: former, other, later, inner, rest, rfl, by simp [written], shown, nonempty, rfl, leaves⟩

/-! ## Calls of the code -/

/-- Where an assertion call of the code starts, behind what stands in front of a site: it is the call of the
site, or it stands between its parentheses, or it follows it and would join what its expectation ends in. -/
inductive Site.Starts (site : Site) : (inner : Text) → Prop
  | own : site.Starts site.gap
  | nested {front rest : Text} (inside : site.inside = front ++ rest) (nonempty : rest ≠ []) :
      site.Starts (site.gap ++ (site.head ++ '(' :: front))
  | joined {c : Char} (last : c ∈ site.expectation.getLast?) (joins : ¬ Apart (some c)) :
      site.Starts (site.gap ++ site.call)

/-- No call starts inside the head of another one. -/
theorem CallHead.not_callAt {head space function rest : Text} (headed : CallHead head space function)
    (split : head = front ++ rest) (front_ne : front ≠ []) (rest_ne : rest ≠ []) :
    ¬ CallAt (front.getLast?.or previous) (rest ++ behind) := by
  obtain ⟨name, blank, rfl, dotted, white, -⟩ := headed.exists_dotted
  rcases append_eq_append_cases split with ⟨more, rfl, -, rfl⟩ | ⟨more, rfl, rfl⟩
  · have last := List.getLast?_eq_some_getLast front_ne
    rintro ⟨apart, -⟩
    rw [last, Option.some_or] at apart
    have part := dotted _ (List.mem_append_left more (List.getLast_mem front_ne))
    exact Bool.noConfusion (part.symm.trans apart.isDotted_eq_false)
  · obtain ⟨c, others, rfl⟩ := List.exists_cons_of_ne_nil rest_ne
    exact not_callAt_cons (isWord_of_isBlank (isBlankText_iff.mp white c (by simp)))

/-- No call starts in what ends another one. -/
theorem Ends.not_callAt {ending rest : Text} (ends : Ends ending behind) (split : ending = front ++ rest)
    (rest_ne : rest ≠ []) : ¬ CallAt previous (rest ++ text) := by
  obtain ⟨c, others, rfl⟩ := List.exists_cons_of_ne_nil rest_ne
  rcases ends.isIndent_or_eq c (by simp [split]) with indent | rfl
  · exact not_callAt_cons (isWord_of_isBlank (isBlank_of_isIndent indent))
  · exact not_callAt_cons (by decide)

/-- A call that starts inside the call of a site stands between its parentheses. -/
theorem Site.Reads.exists_nested {front rest : Text} (reads : site.Reads previous behind)
    (split : site.call = front ++ rest) (front_ne : front ≠ []) (rest_ne : rest ≠ [])
    {other : Option Char} (here : CallAt (front.getLast?.or other) (rest ++ text)) :
    ∃ inner more, site.inside = inner ++ more ∧ more ≠ [] ∧ front = site.head ++ '(' :: inner := by
  have whole : site.head ++ ('(' :: (site.inside ++ ')' :: site.ending)) = front ++ rest := by
    rw [← split, Site.call]
    simp
  rcases append_eq_append_cases whole with ⟨more, headSplit, more_ne, rfl⟩ | ⟨inner, rfl, behindHead⟩
  · rw [List.append_assoc] at here
    exact absurd here (reads.headed.not_callAt headSplit front_ne more_ne)
  cases inner with
  | nil =>
    obtain rfl : '(' :: (site.inside ++ ')' :: site.ending) = rest := behindHead
    exact absurd here (not_callAt_cons (by decide))
  | cons c inner =>
    obtain ⟨rfl, behindOpener⟩ := List.cons.inj behindHead
    rcases append_eq_append_cases behindOpener with ⟨more, insideSplit, more_ne, -⟩ | ⟨more, rfl, endSplit⟩
    · exact ⟨inner, more, insideSplit, more_ne, rfl⟩
    · cases more with
      | nil =>
        obtain rfl : ')' :: site.ending = rest := endSplit
        exact absurd here (not_callAt_cons (by decide))
      | cons d more =>
        obtain ⟨-, endSplit⟩ := List.cons.inj endSplit
        exact absurd here (reads.ends.not_callAt endSplit rest_ne)

/-- Each call of the code is the one of a site, or stands in the one of a site or right behind it. Behind the
calls that are done with, the code and the result may follow different characters. -/
theorem exists_starts_of_callAt {original : Option Char} {back : Text} (replaces : Replaces previous sites last)
    (split : source sites last = front ++ back) (here : CallAt (front.getLast?.or original) back) :
    front = [] ∧ ¬ Apart previous ∨
      ∃ former site others inner, sites = former ++ site :: others ∧ front = source former inner ∧
        site.Starts inner := by
  have first {gap more rest : Text} {previous original : Option Char}
      (free : ¬ CallAt (gap.getLast?.or previous) (more ++ rest))
      (here : CallAt (gap.getLast?.or original) (more ++ rest)) : gap = [] ∧ ¬ Apart previous := by
    rcases gap.eq_nil_or_concat with rfl | ⟨others, c, rfl⟩
    · exact ⟨rfl, fun apart => free (here.of_apart apart)⟩
    · rw [List.concat_eq_append, List.getLast?_concat] at free here
      exact absurd here free
  induction replaces generalizing front original with
  | @last previous last free =>
    exact .inl (@first front back [] previous original (by simpa using free front back split) (by simpa using here))
  | @site previous site sites last reads others ih =>
    rw [source] at split
    rcases append_eq_append_cases split with ⟨rest, shown, nonempty, rfl⟩ | ⟨inner, rfl, behindGap⟩
    · exact .inl (first (reads.first front rest shown nonempty) here)
    rcases append_eq_append_cases behindGap with ⟨rest, shown, nonempty, rfl⟩ | ⟨more, rfl, further⟩
    · cases inner with
      | nil => exact .inr ⟨[], site, sites, _, rfl, rfl, by simpa using Site.Starts.own⟩
      | cons c inner =>
        rw [List.getLast?_append, Option.or_assoc] at here
        obtain ⟨inner', rest', inside, rest_ne, same⟩ :=
          reads.exists_nested shown (List.cons_ne_nil c inner) nonempty here
        rw [same]
        exact .inr ⟨[], site, sites, _, rfl, rfl, .nested inside rest_ne⟩
    · rw [← List.append_assoc, List.getLast?_append, Option.or_assoc] at here
      rcases ih further here with ⟨rfl, joins⟩ | ⟨former, other, later, inner, rfl, rfl, starts⟩
      · cases last : site.expectation.getLast? with
        | none =>
          rw [last] at joins
          exact absurd reads.apart joins
        | some c =>
          rw [last] at joins
          exact .inr ⟨[], site, sites, _, rfl, by simp [source], .joined last joins⟩
      · exact .inr ⟨site :: former, other, later, inner, rfl, by simp [source], starts⟩

/-! ## All calls -/

/-- Replacing the assertion calls of code replaces those of its sites. Every call of the code is one of them, or
stands in one, or follows one whose message ends in a name or a dot; every call of the result was brought along
in what an expectation quotes or in a message, or came about where nothing stands for a call. -/
theorem calls_of_replaceAll {code result : Text} (ran : replaceAll code = .ok result) :
    ∃ sites last, Replaces none sites last ∧ code = source sites last ∧ result = written sites last ∧
      (∀ front back, code = front ++ back → CallAt front.getLast? back →
        ∃ former site others inner, sites = former ++ site :: others ∧ front = source former inner ∧
          site.Starts inner) ∧
      ∀ front back, result = front ++ back → CallAt front.getLast? back →
        ∃ former site others inner rest, sites = former ++ site :: others ∧ front = written former inner ∧
          inner ++ rest = site.gap ++ site.expectation ∧ rest ≠ [] ∧ back = rest ++ written others last ∧
          site.Leaves (written others last) := by
  obtain ⟨sites, last, replaces, rfl, rfl⟩ := exists_sites_of_replaceAll ran
  refine ⟨sites, last, replaces, rfl, rfl, ?_, ?_⟩
  · intro front back split here
    refine (@exists_starts_of_callAt _ _ _ _ none _ replaces split ?_).resolve_left ?_
    · rwa [Option.or_none]
    · exact fun blocked => blocked.2 apart_none
  · intro front back split here
    exact exists_leaves_of_callAt replaces split (by rwa [Option.or_none])

/-- An assertion of which an argument is a function that asserts something itself. -/
def nestedCode : Text :=
  "Y.Assert.isTrue( f( function() \x7b Y.Assert.isFalse( x ); \x7d ) );".toList

set_option maxRecDepth 4000 in
/-- An assertion inside the argument of another one is left as a call. -/
theorem calls_of_nestedCode : ∃ sites last, nestedCode = source sites last ∧
    replaceAll nestedCode = .ok (written sites last) ∧
      ∃ former site others, sites = former ++ site :: others ∧ site.Leaves (written others last) := by
  have ran : replaceAll nestedCode =
      .ok ("expect( f( function() \x7b ".toList ++ "Y.Assert.isFalse( x ); \x7d ) ).toBe( true );".toList) := by
    rfl
  obtain ⟨sites, last, -, code, result, -, left⟩ := calls_of_replaceAll ran
  obtain ⟨former, site, others, -, -, same, -, -, -, -, leaves⟩ := left _ _ rfl (by decide)
  exact ⟨sites, last, code, result ▸ ran, former, site, others, same, leaves⟩

set_option maxRecDepth 4000 in
/-- In the result, a call is left outside literals and comments. -/
theorem nestedCode_keeps_call : ∃ front back,
    replaceAll nestedCode = .ok (front ++ back) ∧ front.foldl Mode.next .code = .code ∧
      CallAt front.getLast? back :=
  ⟨"expect( f( function() \x7b ".toList, "Y.Assert.isFalse( x ); \x7d ) ).toBe( true );".toList,
    by rfl, by decide, by decide⟩

end JasmineConversion.AssertionCall
