import JasmineConversion.Proofs.Body.Expectation
import JasmineConversion.Proofs.Body.Progress

/-! # Where member accesses on the test case come about

A body is rewritten further when the references to the test case in it are replaced. A member access on
`this` comes about then only where a rewriting joins two texts: behind the code of a wrapper, behind the
message of an assertion, and where an expectation reaches a member of an argument.
-/

namespace JasmineConversion

open Text Source

namespace Body

/-! ## Pieces of code -/

variable {source piece : Text} {index close : Nat}

/-- The last character of what is in front of the next index is the character at this one. -/
theorem getLast?_take_succ {c : Char} {rest : Text} (here : source.drop index = c :: rest) :
    (source.take (index + 1)).getLast? = some c := by
  rw [List.take_add, here, List.getLast?_append]
  rfl

/-- A self reference behind an index at which a word may start is one of the whole text. -/
theorem HoldsSelf.of_drop (fresh : startsFresh (source.take index).getLast? = true)
    (holds : HoldsSelf (source.drop index)) : HoldsSelf source := by
  have whole := holds.append_left fresh
  rwa [List.take_append_drop] at whole

/-- What stands in a bracket stands in the code, and so does what stands behind it. -/
theorem HoldsSelf.of_matchBracket (bracket : Bracket)
    (opens : (source.drop index).head? = some bracket.opener)
    (matched : matchBracket source index = .ok close) :
    (HoldsSelf (slice source (index + 1) close) → HoldsSelf source) ∧
      (HoldsSelf (source.drop (close + 1)) → HoldsSelf source) := by
  have apart : isIdentifierPart bracket.opener = false ∧ isIdentifierPart bracket.closer = false := by
    cases bracket <;> decide
  obtain ⟨raw, spans, -⟩ := (matchBracket_eq_ok_iff opens).mp matched
  obtain ⟨-, inside, closes⟩ := spans.inside
  obtain ⟨rest, begins⟩ := List.head?_eq_some_iff.mp opens
  constructor
  · intro holds
    rw [spans.slice_inside] at holds
    refine HoldsSelf.of_drop ?_ (inside.here ▸ holds.append_right _)
    rw [getLast?_take_succ begins]
    simp [startsFresh, apart.1]
  · refine HoldsSelf.of_drop ?_
    rw [getLast?_take_succ closes]
    simp [startsFresh, apart.2]

/-! ## Wrappers -/

/-- A line end is part of no identifier. -/
theorem isIdentifierPart_of_isLineEnd {c : Char} (ends : isLineEnd c = true) :
    isIdentifierPart c = false := by
  simp only [isLineEnd, Bool.or_eq_true, beq_iff_eq] at ends
  rcases ends with rfl | rfl <;> decide

theorem HoldsSelf.of_unwrapped (holds : HoldsSelf (unwrapped piece)) : HoldsSelf piece :=
  (HoldsSelf.of_dropWhile (fun _ => isIdentifierPart_of_isLineEnd)
    holds.of_dropEndWhile).of_removeOneIndent

/-- A block that is found starts at the start of a line. -/
theorem last_of_findTryFrom {fresh : Bool} {text : Text} {block : TryBlock}
    (found : findTryFrom fresh index text = some block) :
    ∃ front, front <+: text ∧ block.start = index + front.length ∧
      (front = [] ∧ fresh = true ∨ front.getLast? = some '\n') := by
  induction text generalizing fresh index with
  | nil => cases found
  | cons c rest ih =>
    rw [findTryFrom] at found
    split at found
    · next here =>
      obtain rfl := Option.some.inj found
      refine ⟨[], List.nil_prefix, ?_, .inl ⟨rfl, ?_⟩⟩
      · split at here
        · unfold tryBlock? at here
          obtain ⟨behind, -, here⟩ := Option.bind_eq_some_iff.mp here
          dsimp only at here
          split at here
          · exact congrArg TryBlock.start (Option.some.inj here).symm
          · cases here
        · cases here
      · split at here
        · next starts => exact starts
        · cases here
    · obtain ⟨front, begins, start, last⟩ := ih found
      refine ⟨c :: front, List.cons_prefix_cons.mpr ⟨rfl, begins⟩, ?_, .inr ?_⟩
      · rw [start, List.length_cons]
        omega
      · rw [List.getLast?_cons]
        rcases last with ⟨rfl, feed⟩ | feed
        · rw [beq_iff_eq] at feed
          rw [feed]
          rfl
        · rw [feed]
          rfl

/-- A `try` block starts a line. -/
theorem last_of_findTry {code : Text} {block : TryBlock} (found : findTry code index = some block) :
    ∀ c ∈ (code.take block.start).getLast?, c = '\n' := by
  obtain ⟨front, begins, start, last⟩ := last_of_findTryFrom found
  have front_eq : code.take block.start = code.take index ++ front := by
    rw [start, List.take_add, ← List.prefix_iff_eq_take.mp begins]
  rw [front_eq, List.getLast?_append]
  rcases last with ⟨rfl, starts⟩ | feed
  · simp only [startsLine, Bool.or_eq_true, beq_iff_eq] at starts
    rw [List.getLast?_nil, Option.none_or, List.getLast?_take]
    split
    · simp
    · next positive =>
      have feed := starts.resolve_left positive
      simp [feed]
  · simp [feed]

/-- Removing wrappers from code, from an index on, puts a member access on `this` together: the code of
a wrapper ends within one that goes on behind the `catch` clause. -/
inductive UnwrapJoins (marker : Content) : Text → Nat → Prop
  | wrapper {code : Text} {index close clauseClose : Nat} {block : TryBlock} {clause : Text}
      (found : findTry code index = some block) (matched : matchBracket code block.opened = .ok close)
      (marked : marker.occursIn (slice code (block.opened + 1) close) = true)
      (caught : catch? (code.drop (close + 1)) = some clause)
      (closed : matchBracket code (code.length - clause.length) = .ok clauseClose)
      (reaches : Straddles (unwrapped (slice code (block.opened + 1) close))
        (code.drop (clauseClose + 1))) :
      UnwrapJoins marker code index
  | further {code : Text} {index : Nat} {next : UnwrapStep}
      (ran : unwrapStep marker code index = .ok (some next))
      (joins : UnwrapJoins marker next.code next.resume) :
      UnwrapJoins marker code index

/-- A step over wrappers brings an access about only behind the code of one. -/
theorem HoldsSelf.of_unwrapStep {marker : Content} {code : Text} {next : UnwrapStep}
    (ran : unwrapStep marker code index = .ok (some next)) (holds : HoldsSelf next.code) :
    HoldsSelf code ∨ UnwrapJoins marker code index := by
  unfold unwrapStep at ran
  cases found : findTry code index with
  | none => simp [found, pure, Except.pure] at ran
  | some block =>
    simp only [found, exceptBind_eq_ok_iff] at ran
    obtain ⟨close, matched, ran⟩ := ran
    split at ran
    · next marked =>
      cases caught : catch? (code.drop (close + 1)) with
      | none =>
        simp only [caught, exceptPure_eq_ok_iff, Option.some.injEq] at ran
        subst ran
        exact .inl holds
      | some clause =>
        simp only [caught, exceptBind_eq_ok_iff, exceptPure_eq_ok_iff, Option.some.injEq] at ran
        obtain ⟨clauseClose, closed, rfl⟩ := ran
        have lineStart : EndsApart (code.take block.start) := by
          intro c last
          rw [last_of_findTry found c last]
          decide
        obtain ⟨inside, -⟩ := HoldsSelf.of_matchBracket .brace (opens_of_findTry found) matched
        obtain ⟨-, behind⟩ := HoldsSelf.of_matchBracket .brace (opens_of_catch? caught) closed
        rcases holds.of_append with front | back | reaches
        · rcases front.of_append_of_last lineStart with before | body
          · exact .inl (before.of_front (List.take_prefix _ _))
          · exact .inl (inside body.of_unwrapped)
        · exact .inl (behind back)
        · exact .inr (.wrapper found matched marked caught closed (reaches.of_append lineStart))
    · simp only [exceptPure_eq_ok_iff, Option.some.injEq] at ran
      subst ran
      exact .inl holds

/-- A self reference in the unwrapped code was in the code, unless a removal joined it. -/
theorem HoldsSelf.of_unwrapFrom {marker : Content} {bound : Nat} {code result : Text}
    (ran : (unwrapFrom marker bound code index).2 = .ok result) (holds : HoldsSelf result) :
    HoldsSelf code ∨ UnwrapJoins marker code index := by
  induction bound generalizing code index with
  | zero =>
    cases ran
    exact .inl holds
  | succ bound ih =>
    rcases unwrapFrom_eq_ok_iff.mp ran with ⟨-, rfl⟩ | ⟨next, step, ran⟩
    · exact .inl holds
    · rcases ih ran with here | joins
      · exact here.of_unwrapStep step
      · exact .inr (.further step joins)

end Body

/-! ## Assertion calls -/

namespace AssertionCall

open AssertionRule Body

variable {code : Text} {index close : Nat} {call : AssertionCall} {arguments : List Text}
  {expectation : Text}

/-- What a step over assertion calls reads: the first call from an index on, where its parenthesis closes,
its arguments and its expectation. -/
structure Translates (code : Text) (index : Nat) (call : AssertionCall) (close : Nat)
    (arguments : List Text) (expectation : Text) : Prop where
  found : find code index = some call
  matched : matchBracket code call.opened = .ok close
  split : splitArguments (slice code (call.opened + 1) close) = .ok arguments
  translated : expectationFor call.space call.function arguments = .ok expectation

/-- Replacing the assertion calls in code, from an index on, puts a member access on `this` together: an
expectation reaches a member of an argument, or a message ends within an access that goes on behind the
call. -/
inductive ReplaceJoins : Text → Nat → Prop
  | member {code : Text} {index close : Nat} {call : AssertionCall} {arguments : List Text}
      {expectation : Text} (reads : Translates code index call close arguments expectation)
      (reaches : ReachesMember arguments expectation) :
      ReplaceJoins code index
  | message {code : Text} {index close : Nat} {call : AssertionCall} {arguments : List Text}
      {expectation stated message : Text}
      (reads : Translates code index call close arguments expectation) (given : message ∈ arguments)
      (written : expectation = withMessage stated (some message))
      (reaches : Straddles message (dropSemicolon (code.drop (close + 1)))) :
      ReplaceJoins code index
  | further {code : Text} {index : Nat} {next : Step} (ran : step code index = .ok (some next))
      (joins : ReplaceJoins next.code next.resume) :
      ReplaceJoins code index

/-- A step that finds an assertion puts its expectation in the place of the call. -/
theorem exists_translates_of_step {next : Step} (ran : step code index = .ok (some next)) :
    ∃ call close arguments expectation, Translates code index call close arguments expectation ∧
      next.code = code.take call.start ++ expectation ++ dropSemicolon (code.drop (close + 1)) := by
  unfold step at ran
  cases found : find code index with
  | none => simp [found, pure, Except.pure] at ran
  | some call =>
    simp only [found, exceptBind_eq_ok_iff, exceptPure_eq_ok_iff, Option.some.injEq, mapError_eq_ok_iff]
      at ran
    obtain ⟨close, matched, arguments, split, expectation, translated, rfl⟩ := ran
    exact ⟨call, close, arguments, expectation, ⟨found, matched, split, translated⟩, rfl⟩

/-- A call that is found stands apart from what is in front of it. -/
theorem last_of_findFrom {previous : Option Char} {text : Text}
    (found : findFrom index previous text = some call) :
    ∃ front, front <+: text ∧ call.start = index + front.length ∧
      startsFresh (front.getLast?.or previous) = true ∧ front.getLast?.or previous ≠ some '.' := by
  induction text generalizing index previous with
  | nil => cases found
  | cons c rest ih =>
    rw [findFrom] at found
    split at found
    · next here =>
      obtain rfl := Option.some.inj found
      unfold at? at here
      split at here
      · next apart =>
        obtain ⟨parts, -, rfl⟩ := Option.map_eq_some_iff.mp here
        rw [Bool.and_eq_true, bne_iff_ne] at apart
        exact ⟨[], List.nil_prefix, rfl, apart⟩
      · cases here
    · obtain ⟨front, begins, start, apart⟩ := ih found
      refine ⟨c :: front, List.cons_prefix_cons.mpr ⟨rfl, begins⟩, ?_, ?_⟩
      · rw [start, List.length_cons]
        omega
      · rw [List.getLast?_cons]
        cases last : front.getLast? <;> simpa [last] using apart

/-- No member access on `this` reaches into an assertion call. -/
theorem endsApart_of_find (found : find code index = some call) : EndsApart (code.take call.start) := by
  have known : ∀ d ∈ selfAccess, isIdentifierPart d = true ∨ d = '.' := by decide
  have nonempty : code.drop index ≠ [] := by
    intro empty
    rw [find, empty] at found
    cases found
  have inside : index < code.length := by
    rw [ne_eq, List.drop_eq_nil_iff] at nonempty
    omega
  obtain ⟨front, begins, start, fresh, noDot⟩ := last_of_findFrom found
  have front_eq : code.take call.start = code.take index ++ front := by
    rw [start, List.take_add, ← List.prefix_iff_eq_take.mp begins]
  have before : (code.take index).getLast? = if index = 0 then none else code[index - 1]? := by
    rw [List.getLast?_take]
    split
    · rfl
    · rw [List.getElem?_eq_getElem (by omega), Option.some_or]
  rw [front_eq]
  intro c last member
  rw [List.getLast?_append, before] at last
  rw [Option.mem_def] at last
  rw [last] at fresh noDot
  rcases known c member with part | rfl
  · simp [startsFresh, part] at fresh
  · exact noDot rfl

/-- A self reference behind a semicolon is one of the whole text. -/
theorem holdsSelf_of_dropSemicolon {text : Text} (holds : HoldsSelf (dropSemicolon text)) :
    HoldsSelf text := by
  unfold dropSemicolon at holds
  cases semicolon : after? [';'] (text.dropWhile isIndent) with
  | none => rwa [semicolon] at holds
  | some rest =>
    rw [semicolon] at holds
    exact (HoldsSelf.of_after? (by decide) semicolon holds).of_dropWhile fun _ =>
      isIdentifierPart_of_isIndent

/-- A step over assertion calls brings an access about only in an expectation or behind a message. -/
theorem holdsSelf_of_step {next : Step} (ran : step code index = .ok (some next))
    (holds : HoldsSelf next.code) : HoldsSelf code ∨ ReplaceJoins code index := by
  obtain ⟨call, close, arguments, expectation, reads, result⟩ := exists_translates_of_step ran
  obtain ⟨inside, behind⟩ := HoldsSelf.of_matchBracket .round (opens_of_find reads.found) reads.matched
  have apart := endsApart_of_find reads.found
  rw [result] at holds
  rcases holds.of_append with front | back | reaches
  · rcases front.of_append_of_last apart with before | inExpectation
    · exact .inl (before.of_front (List.take_prefix _ _))
    · rcases holdsSelf_of_expectationFor reads.translated inExpectation with
        ⟨argument, given, inArgument⟩ | reaches
      · exact .inl (inside (inArgument.of_splitArguments reads.split given))
      · exact .inr (.member reads reaches)
  · exact .inl (behind (holdsSelf_of_dropSemicolon back))
  · obtain ⟨stated, message, given, written, reaches⟩ :=
      exists_message_of_straddles reads.translated (reaches.of_append apart)
    exact .inr (.message reads given written reaches)

/-- A self reference in the rewritten code was in the code, unless an expectation joined it. -/
theorem holdsSelf_of_replaceFrom {bound : Nat} {result : Text}
    (ran : replaceFrom bound code index = .ok result) (holds : HoldsSelf result) :
    HoldsSelf code ∨ ReplaceJoins code index := by
  induction bound generalizing code index with
  | zero =>
    cases ran
    exact .inl holds
  | succ bound ih =>
    rw [replaceFrom] at ran
    obtain ⟨outcome, stepped, ran⟩ := exceptBind_eq_ok_iff.mp ran
    cases outcome with
    | none =>
      cases ran
      exact .inl holds
    | some next =>
      rcases ih ran with here | joins
      · exact holdsSelf_of_step stepped here
      · exact .inr (.further stepped joins)

end AssertionCall

end JasmineConversion
