import JasmineConversion.Proofs.Assertion.Sites

/-! # Calls that are refused

Replacing assertion calls stops at the first call that has no expectation. The calls in front of it have given way to
their expectations by then, and the error points at the call in this code.
-/

namespace JasmineConversion.AssertionCall

open Text Source

/-- The sites of a text that follows a given character, in front of a call that has no expectation. -/
inductive Refuses (space function : Text) (fault : AssertionFault) :
    (previous : Option Char) → (sites : List Site) → (gap rest : Text) → Prop
  | call {previous : Option Char} {gap head inside behind : Text} {arguments : List Text}
      (isFirst : FirstCall previous gap head space function inside behind)
      (split : splitArguments inside = .ok arguments)
      (refused : expectationFor space function arguments = .error ⟨.assertion space function fault, none⟩) :
      Refuses space function fault previous [] gap (head ++ '(' :: (inside ++ ')' :: behind))
  | site {previous : Option Char} {site : Site} {sites : List Site} {gap rest : Text}
      (reads : site.Reads previous (source sites (gap ++ rest)))
      (others : Refuses space function fault (site.expectation.getLast?.or (site.gap.getLast?.or previous)) sites
        gap rest) :
      Refuses space function fault previous (site :: sites) gap rest

variable {space function : Text} {fault : AssertionFault} {previous : Option Char} {sites : List Site} {gap rest : Text}
  {error : SourceError}

/-- A call that is refused is not empty. -/
theorem Refuses.exists_cons {call : Text} (refuses : Refuses space function fault previous sites gap call) :
    ∃ c rest, call = c :: rest := by
  induction refuses with
  | @call previous gap head inside behind arguments isFirst split refused =>
    exact List.exists_cons_of_ne_nil (by simp)
  | site reads others ih => exact ih

/-- Code that keeps its line feeds call by call keeps them as a whole. -/
theorem count_written {c : Char} (same : ∀ site ∈ sites, site.expectation.count c = site.call.count c) :
    (written sites gap).count c = (source sites gap).count c := by
  induction sites with
  | nil => rfl
  | cons site sites ih =>
    obtain ⟨here, further⟩ := List.forall_mem_cons.mp same
    rw [written, source, List.count_append, List.count_append, List.count_append, List.count_append, here, ih further]

/-- A rule that fails with an assertion fails with the one that was called. -/
theorem refused_of_expectationFor {arguments : List Text} {space' function' : Text}
    (failed : expectationFor space' function' arguments = .error error)
    (isAssertion : error.cause = .assertion space function fault) :
    error = ⟨.assertion space function fault, none⟩ ∧ space' = space ∧ function' = function := by
  rcases expectationFor_reports space' function' arguments failed with ⟨fault', rfl⟩ | ofReading
  · cases isAssertion
    exact ⟨rfl, rfl, rfl⟩
  · exact absurd isAssertion (ofReading.ne_assertion space function fault)

/-- A step that is refused has come to a call without an expectation, and the error points at the call. -/
theorem exists_call_of_step {before rest : Text} (failed : step (before ++ rest) before.length = .error error)
    (isAssertion : error.cause = .assertion space function fault) :
    ∃ gap call, rest = gap ++ call ∧ Refuses space function fault before.getLast? [] gap call ∧
      error = .ofIndex (.assertion space function fault) (before ++ gap ++ call) (before ++ gap).length := by
  unfold step at failed
  cases found : find (before ++ rest) before.length with
  | none => simp [found, pure, Except.pure] at failed
  | some call =>
    simp only [found] at failed
    rcases exceptBind_eq_error_iff.mp failed with unmatched | ⟨close, matched, failed⟩
    · have inCode := (matchBracket_reports .round (opens_of_find found) unmatched).inCode
      exact absurd isAssertion (inCode.ne_assertion space function fault)
    obtain ⟨gap, head, inside, behind, rfl, isFirst, start, inner, -⟩ := exists_firstCall_of_find found matched
    rw [inner] at failed
    rcases exceptBind_eq_error_iff.mp failed with unsplit | ⟨arguments, split, failed⟩
    · exact absurd isAssertion ((splitArguments_reports inside unsplit).inCode.ne_assertion space function fault)
    rcases exceptBind_eq_error_iff.mp failed with pointed | ⟨expectation, -, stepped⟩
    · obtain ⟨refusal, refused, same⟩ := mapError_eq_error_iff.mp pointed
      have cause : refusal.cause = error.cause := by
        rw [← same]
        split <;> rfl
      obtain ⟨rfl, rfl, rfl⟩ := refused_of_expectationFor refused (cause.trans isAssertion)
      refine ⟨gap, _, rfl, .call isFirst split refused, ?_⟩
      rw [← same, start]
      simp [SourceError.pointAt, SourceError.ofIndex]
    · cases stepped

/-- Replacing the calls behind a text that is done with is refused at a call. The calls in front of it have been
replaced, and the error points at the call behind them. -/
theorem exists_refuses_of_replaceFrom {bound : Nat} {before rest : Text} (enough : rest.length < bound)
    (failed : replaceFrom bound (before ++ rest) before.length = .error error)
    (isAssertion : error.cause = .assertion space function fault) :
    ∃ sites gap call, rest = source sites gap ++ call ∧
      Refuses space function fault before.getLast? sites gap call ∧
      error = .ofIndex (.assertion space function fault) (before ++ written sites gap ++ call)
        (before ++ written sites gap).length := by
  induction bound generalizing before rest with
  | zero => cases enough
  | succ bound ih =>
    rw [replaceFrom] at failed
    rcases exceptBind_eq_error_iff.mp failed with stepped | ⟨outcome, stepped, failed⟩
    · obtain ⟨gap, call, rfl, refuses, same⟩ := exists_call_of_step stepped isAssertion
      exact ⟨[], gap, call, rfl, refuses, same⟩
    · cases outcome with
      | none => cases failed
      | some next =>
        have less := lt_of_step stepped
        obtain ⟨site, behind, rfl, reads, rfl⟩ := exists_site_of_step stepped
        have shorter : behind.length < bound := by
          simp only [List.length_append] at less enough
          omega
        obtain ⟨sites, gap, call, rfl, others, same⟩ := ih shorter failed
        rw [List.getLast?_append, List.getLast?_append] at others
        rw [← source_last_append] at reads
        refine ⟨site :: sites, gap, call, by simp [source], .site reads others, ?_⟩
        rw [same]
        simp [written]

/-- A code whose assertions are refused has a first call that is refused, and the failure is located
there in the code as rewritten so far. -/
theorem exists_refuses_of_replaceAll {code : Text} (failed : replaceAll code = .error error)
    (isAssertion : error.cause = .assertion space function fault) :
    ∃ sites gap call, code = source sites gap ++ call ∧ Refuses space function fault none sites gap call ∧
      error = .ofIndex (.assertion space function fault) (written sites gap ++ call) (written sites gap).length :=
  @exists_refuses_of_replaceFrom _ _ _ _ _ [] _ (Nat.lt_succ_self _) failed isAssertion

end JasmineConversion.AssertionCall
