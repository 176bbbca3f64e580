import JasmineConversion.Proofs.Assertion.Sites

/-! # Replacing calls in place

A step finds exactly the first call behind the text that is done with, so what replacing calls gives depends on
nothing but the sites of the code. Every call is matched in the code as it was given, although the steps before
have changed the text in front of it, and no character outside the calls is touched.
-/

namespace JasmineConversion.AssertionCall

open Text Source

/-- A call in its place in code: its parenthesis is matched there, what it takes up ends behind the parenthesis
or a semicolon, and its expectation is the one for its arguments. -/
structure Site.Placed (code before : Text) (site : Site) (behind : Text) : Prop where
  split : code = before ++ site.call ++ behind
  headed : CallHead site.head site.space site.function
  matched : matchBracket code (before ++ site.head).length =
    .ok (before ++ site.head ++ '(' :: site.inside).length
  ends : Ends site.ending behind
  translated : ∃ arguments, splitArguments site.inside = .ok arguments ∧
    expectationFor site.space site.function arguments = .ok site.expectation

/-- A call with its closing parenthesis stands in code, and does not go on with a name. -/
def HoldsClosedCall (code : Text) : Prop :=
  ∃ before head space function inside behind, code = before ++ (head ++ '(' :: inside ++ ')' :: behind) ∧
    Apart before.getLast? ∧ CallHead head space function ∧ Bracket.round.Encloses inside

variable {previous : Option Char} {site : Site} {sites former others : List Site}
  {gap rest last behind before code result : Text} {index bound : Nat} {call : AssertionCall}

/-! ## Steps -/

/-- A call behind a gap in which none starts is the first one. -/
theorem findFrom_append (here : at? (index + gap.length) (gap.getLast?.or previous) rest = some call)
    (first : ∀ front back, gap = front ++ back → back ≠ [] →
      ¬ CallAt (front.getLast?.or previous) (back ++ rest)) :
    findFrom index previous (gap ++ rest) = some call := by
  induction gap generalizing index previous with
  | nil =>
    have here : at? index previous rest = some call := here
    cases rest with
    | nil => cases (at?_eq_none_iff.mpr not_callAt_nil).symm.trans here
    | cons c rest => rw [List.nil_append, findFrom, here]
  | cons c gap ih =>
    have absent : at? index previous (c :: (gap ++ rest)) = none :=
      at?_eq_none_iff.mpr (first [] (c :: gap) rfl (List.cons_ne_nil c gap))
    rw [List.cons_append, findFrom, absent]
    apply ih
    · rwa [getLast?_cons_or, List.length_cons, Nat.add_comm gap.length, ← Nat.add_assoc] at here
    · intro front back split nonempty
      rw [← getLast?_cons_or c front previous]
      exact first (c :: front) back (congrArg _ split) nonempty

/-- What ends a call is dropped as a whole. -/
theorem Ends.dropSemicolon {ending : Text} (ends : Ends ending behind) :
    dropSemicolon (ending ++ behind) = behind := by
  unfold AssertionCall.dropSemicolon
  cases ends with
  | semicolon blank =>
    have stops : Stops isIndent (';' :: behind) := (stops_cons _ _ _).mpr (by decide)
    rw [List.append_assoc, List.singleton_append, dropWhile_append_of_stops blank stops,
      after?_singleton_cons, if_pos rfl, Option.getD_some]
  | bare none =>
    rw [List.nil_append]
    cases found : after? [';'] (behind.dropWhile isIndent) with
    | none => rfl
    | some rest =>
      rw [after?_eq_some_iff.mp found] at none
      exact absurd rfl none

/-- The parenthesis of a call stands behind its head. -/
theorem Site.here (site : Site) (before behind : Text) :
    (before ++ site.call ++ behind).drop (before ++ site.head).length =
      '(' :: site.inside ++ [')'] ++ (site.ending ++ behind) := by
  have split : before ++ site.call ++ behind =
      before ++ site.head ++ ('(' :: site.inside ++ [')'] ++ (site.ending ++ behind)) := by
    simp [call]
  rw [split, List.drop_left]

/-- The parentheses of a call with what they enclose. -/
theorem Site.spans (site : Site) (before behind : Text) :
    Spans (before ++ site.call ++ behind) (before ++ site.head).length ('(' :: site.inside ++ [')'])
      ((before ++ site.head ++ '(' :: site.inside).length + 1) := by
  apply Spans.of_drop (site.here before behind)
  simp only [List.length_append, List.length_cons, List.length_nil]
  omega

/-- The parenthesis of a call is matched behind any text. -/
theorem Site.Reads.matched (reads : site.Reads previous behind) (before : Text) :
    matchBracket (before ++ site.call ++ behind) (before ++ site.head).length =
      .ok (before ++ site.head ++ '(' :: site.inside).length := by
  have opens : ((before ++ site.call ++ behind).drop (before ++ site.head).length).head? =
      some Bracket.round.opener := by
    rw [site.here]
    rfl
  exact (matchBracket_eq_ok_iff opens).mpr ⟨site.inside, site.spans before behind, reads.encloses⟩

/-- A step replaces the first site behind the text that is done with. -/
theorem Site.Reads.step (reads : site.Reads before.getLast? behind) :
    step (before ++ (site.gap ++ (site.call ++ behind))) before.length =
      .ok (some ⟨before ++ site.gap ++ site.expectation ++ behind,
        (before ++ site.gap ++ site.expectation).length⟩) := by
  obtain ⟨arguments, split, translated⟩ := reads.translated
  have found : find (before ++ (site.gap ++ (site.call ++ behind))) before.length =
      some ⟨(before ++ site.gap).length, site.space, site.function, (before ++ site.gap ++ site.head).length⟩ := by
    rw [find_append]
    apply findFrom_append _ reads.first
    refine at?_eq_some_iff.mpr ⟨reads.apart, site.head, _, reads.headed, site.call_append behind, ?_, ?_⟩ <;>
      simp only [List.length_append]
  have whole : before ++ (site.gap ++ (site.call ++ behind)) = before ++ site.gap ++ site.call ++ behind := by
    simp
  have inner := (site.spans (before ++ site.gap) behind).slice_inside
  have tail := (site.spans (before ++ site.gap) behind).drop_stop (site.here (before ++ site.gap) behind)
  have front : (before ++ site.gap ++ site.call ++ behind).take (before ++ site.gap).length =
      before ++ site.gap := by
    rw [List.append_assoc, List.take_left]
  unfold AssertionCall.step
  rw [found, whole]
  apply exceptBind_eq_ok_iff.mpr ⟨_, reads.matched (before ++ site.gap), ?_⟩
  apply exceptBind_eq_ok_iff.mpr ⟨arguments, by rw [inner]; exact split, ?_⟩
  apply exceptBind_eq_ok_iff.mpr ⟨site.expectation, mapError_eq_ok_iff.mpr translated, ?_⟩
  rw [front, tail, reads.ends.dropSemicolon, @List.length_append _ _ site.expectation]
  rfl

/-! ## Runs -/

/-- Replacing the calls behind a text that is done with replaces each site that follows it. -/
theorem Replaces.replaceFrom (replaces : Replaces previous sites last) (done : before.getLast? = previous)
    (enough : (source sites last).length < bound) :
    replaceFrom bound (before ++ source sites last) before.length = .ok (before ++ written sites last) := by
  induction replaces generalizing before bound with
  | @last previous last free =>
    cases bound with
    | zero => cases enough
    | succ bound =>
      have absent : find (before ++ last) before.length = none := by
        rw [find_append, findFrom_eq_none_iff, done]
        exact free
      simp only [AssertionCall.replaceFrom, AssertionCall.step, source, written, absent]
      rfl
  | @site previous site sites last reads others ih =>
    subst done
    cases bound with
    | zero => cases enough
    | succ bound =>
      have stepped := reads.step
      have less := lt_of_step stepped
      have shorter : (source sites last).length < bound := by
        simp only [source, List.length_append] at less enough
        omega
      have further := @ih (before ++ site.gap ++ site.expectation) _ (by simp [Option.or_assoc]) shorter
      rw [AssertionCall.replaceFrom]
      apply exceptBind_eq_ok_iff.mpr ⟨_, stepped, ?_⟩
      simpa [written] using further

/-- Replacing the calls of code is replacing its sites. -/
theorem replaceAll_eq_ok_iff : replaceAll code = .ok result ↔
    ∃ sites last, Replaces none sites last ∧ code = source sites last ∧ result = written sites last := by
  refine ⟨exists_sites_of_replaceAll, ?_⟩
  rintro ⟨sites, last, replaces, rfl, rfl⟩
  exact @Replaces.replaceFrom _ _ _ [] _ replaces rfl (Nat.lt_succ_self _)

/-- The sites of a code are its first sites and then the others. -/
theorem source_append (former others : List Site) (last : Text) :
    source (former ++ others) last = source former (source others last) := by
  induction former with
  | nil => rfl
  | cons site former ih => rw [List.cons_append, source, ih, source]

/-- Each site of a replacement is read where it stands. -/
theorem Replaces.reads (replaces : Replaces previous (former ++ site :: others) last) :
    ∃ previous, site.Reads previous (source others last) := by
  induction former generalizing previous with
  | nil =>
    cases replaces with
    | site reads _ => exact ⟨previous, reads⟩
  | cons other former ih =>
    cases replaces with
    | site _ further => exact ih further

/-- Each site is a call in its place in the code. -/
theorem Replaces.placed (replaces : Replaces previous (former ++ site :: others) last) :
    site.Placed (source (former ++ site :: others) last) (source former site.gap) (source others last) := by
  obtain ⟨previous, reads⟩ := replaces.reads
  have split : source (former ++ site :: others) last =
      source former site.gap ++ site.call ++ source others last := by
    rw [source_append, source, source_last_append, List.append_assoc]
  rw [split]
  exact ⟨rfl, reads.headed, reads.matched _, reads.ends, reads.translated⟩

/-- The first site is a closed call. -/
theorem Replaces.holdsClosedCall (replaces : Replaces none (site :: sites) last) :
    HoldsClosedCall (source (site :: sites) last) := by
  cases replaces with
  | site reads _ =>
    refine ⟨site.gap, site.head, site.space, site.function, site.inside, site.ending ++ source sites last, ?_,
      by simpa using reads.apart, reads.headed, reads.encloses⟩
    rw [source, Site.call_append]
    simp

/-- Replacing calls is local. Code is taken apart into gaps and calls, each of which is matched where it stands, and
the result is put together from the same gaps and the expectations; this is how replacing succeeds, and the only way
it does. Code in which no call starts stays as it is, and so does code in which none that starts is closed, unless
replacing fails. -/
theorem replaceAll_is_local (code result : Text) :
    (replaceAll code = .ok result ↔ ∃ sites last, Replaces none sites last ∧ code = source sites last ∧
      result = written sites last ∧ ∀ former site others, sites = former ++ site :: others →
        site.Placed code (source former site.gap) (source others last)) ∧
    (CallFree none code → replaceAll code = .ok code) ∧
    (¬ HoldsClosedCall code → replaceAll code = .ok result → result = code) := by
  refine ⟨?_, ?_, ?_⟩
  · rw [replaceAll_eq_ok_iff]
    constructor
    · rintro ⟨sites, last, replaces, rfl, rfl⟩
      refine ⟨sites, last, replaces, rfl, rfl, ?_⟩
      rintro former site others rfl
      exact replaces.placed
    · rintro ⟨sites, last, replaces, split, replaced, -⟩
      exact ⟨sites, last, replaces, split, replaced⟩
  · intro free
    exact replaceAll_eq_ok_iff.mpr ⟨[], code, .last free, rfl, rfl⟩
  · intro unclosed ran
    obtain ⟨sites, last, replaces, rfl, rfl⟩ := replaceAll_eq_ok_iff.mp ran
    cases sites with
    | nil => rfl
    | cons site sites => exact absurd replaces.holdsClosedCall unclosed

/-- Calls of which the first becomes longer and the second shorter, and an assertion of another object. -/
def mixedCode : Text :=
  "a();\nY.Assert.isTrue( a, 'm' ) ;\nArrayAssert.isEmpty( list )\no.Assert.fail( b );".toList

/-- The code with the two expectations in place. -/
def mixedResult : Text :=
  "a();\nexpect( a ).toBe( true );  // orig YUI Test err msg: 'm'\n".toList ++
    "expect( list ).toEqual( [] );\no.Assert.fail( b );".toList

/-- A code with an assertion, another call and a comment is rewritten at the assertion only. -/
theorem replaceAll_mixedCode_is_local :
    (∃ sites last, Replaces none sites last ∧ mixedCode = source sites last ∧
      mixedResult = written sites last ∧ ∀ former site others, sites = former ++ site :: others →
        site.Placed mixedCode (source former site.gap) (source others last)) ∧
    replaceAll "o.Assert.fail( b );".toList = .ok "o.Assert.fail( b );".toList ∧
    ∃ result, replaceAll "o.Assert".toList = .ok result ∧ result = "o.Assert".toList := by
  obtain ⟨result, ran, same⟩ := exists_eq_ok_of_any (by decide +kernel :
    (replaceAll mixedCode).toOption.any (· == mixedResult) = true)
  obtain rfl := beq_iff_eq.mp same
  have unopened : ¬ HoldsClosedCall "o.Assert".toList := by
    rintro ⟨before, head, space, function, inside, behind, split, -⟩
    have opens : '(' ∈ "o.Assert".toList := by
      rw [split]
      simp
    exact absurd opens (by decide)
  exact ⟨(replaceAll_is_local mixedCode mixedResult).1.mp ran, (replaceAll_is_local _ []).2.1 (by decide),
    _, rfl, (replaceAll_is_local _ _).2.2 unopened rfl⟩

end JasmineConversion.AssertionCall
