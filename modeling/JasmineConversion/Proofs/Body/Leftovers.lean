import JasmineConversion.Proofs.Body.Wrappers

/-! # Wrappers that a run leaves over

A run over a body removes the wrappers that it comes upon. A removal puts the code of a wrapper in its place, and the
run goes on in that code, as far on as the keyword of the wrapper reached. A wrapper stays when its block starts before
that, or when it starts in front of the code and reaches into it. No other wrapper stays.
-/

namespace JasmineConversion.Body

open Text Source JasmineConversion.Bracket

variable {marker : Content} {start code result before indent head raw clause : Text} {index bound : Nat}

/-- The code and the index that a run over a body comes to. -/
inductive Reaches (marker : Content) (start : Text) : Text → Nat → Prop
  | start : Reaches marker start start 0
  | step {code : Text} {index : Nat} {next : UnwrapStep} (reached : Reaches marker start code index)
      (ran : unwrapStep marker code index = .ok (some next)) :
      Reaches marker start next.code next.resume

/-- A removal in a run over a body leaves a wrapper: it starts in front of where the run goes on, in the code that
takes the place of the wrapper removed, or it starts in front of that code and reaches into it. -/
inductive LeftBy (marker : Content) (start before indent head raw clause : Text) : Prop
  | intro {code : Text} {index removed : Nat} {next : UnwrapStep} (reached : Reaches marker start code index)
      (ran : unwrapStep marker code index = .ok (some next)) (removes : next.removed = some removed)
      (wrapper : WrapperIn marker next.code before indent head raw clause)
      (place : removed ≤ before.length ∧ before.length < next.resume ∨
        before.length < removed ∧ removed ≤ (before ++ head ++ '{' :: raw ++ '}' :: clause).length)

/-- Code in which each `try` block that starts a line has its closing brace, and none is a wrapper. -/
def Settled (marker : Content) (code : Text) : Prop :=
  ∀ before indent head, TryIn code before indent head → ∃ raw, KeptIn marker code before indent head raw

/-- A wrapper is a block of its keyword. -/
theorem WrapperIn.tryIn (wrapper : WrapperIn marker code before indent head raw clause) :
    TryIn code before indent head := by
  refine ⟨List.IsPrefix.trans ⟨raw ++ '}' :: clause ++ ['{'], ?_⟩ wrapper.here, wrapper.starts, wrapper.isHead⟩
  simp

/-- A wrapper depends on the text up to the brace of its `catch` clause only. -/
theorem WrapperIn.of_prefix {other front : Text} (wrapper : WrapperIn marker code before indent head raw clause)
    (within : front <+: code) (within' : front <+: other)
    (short : (before ++ head ++ '{' :: raw ++ '}' :: clause).length < front.length) :
    WrapperIn marker other before indent head raw clause := by
  refine { wrapper with here := (List.prefix_of_prefix_length_le wrapper.here within ?_).trans within' }
  rw [List.length_append, List.length_singleton]
  exact short

/-! ## What a run leaves -/

/-- A wrapper in front of where a run has come to was left by a removal. -/
theorem Reaches.leftBy (reaches : Reaches marker start code index)
    (wrapper : WrapperIn marker code before indent head raw clause) (passed : before.length < index) :
    LeftBy marker start before indent head raw clause := by
  induction reaches with
  | start => cases passed
  | @step code index next reached ran ih =>
    cases unwrapStep_eq_some_iff.mp ran with
    | @kept front indent' head' raw' first kept =>
      refine ih wrapper (Nat.lt_of_not_le fun ahead => ?_)
      have behind := first.first _ _ _ wrapper.tryIn ahead
      -- No block starts between the start of the one that is passed and the end of its keyword.
      rcases Nat.lt_or_eq_of_le behind with later | same
      · exact Nat.not_lt_of_le (first.tryIn.keyword_le wrapper.tryIn later) passed
      · obtain ⟨rfl, rfl, rfl⟩ := first.tryIn.unique wrapper.tryIn same
        obtain rfl := wrapper.raw_unique kept.here kept.encloses
        exact kept.plain _ wrapper
    | @removed front indent' head' raw' clause' handler rest first removed handles whole =>
      rcases Nat.lt_or_ge before.length front.length with early | inside
      · rcases Nat.lt_or_ge (before ++ head ++ '{' :: raw ++ '}' :: clause).length front.length with apart | reaching
        · have earlier : WrapperIn marker code before indent head raw clause :=
            wrapper.of_prefix ((List.prefix_append _ _).trans (List.prefix_append _ _)) first.tryIn.prefix apart
          refine ih earlier (Nat.lt_of_not_le fun ahead => ?_)
          exact Nat.not_lt_of_le (first.first _ _ _ earlier.tryIn ahead) early
        · exact .intro reached ran rfl wrapper (.inr ⟨early, reaching⟩)
      · exact .intro reached ran rfl wrapper (.inl ⟨inside, passed⟩)

/-- A run that succeeds comes to its result, where no `try` block is ahead. -/
theorem Reaches.exists_of_unwrapFrom (reaches : Reaches marker start code index)
    (enough : code.length - index < bound) (ran : (unwrapFrom marker bound code index).2 = .ok result) :
    ∃ stop, Reaches marker start result stop ∧ findTry result stop = none := by
  induction bound generalizing code index with
  | zero => cases enough
  | succ bound ih =>
    rcases unwrapFrom_eq_ok_iff.mp ran with ⟨ends, rfl⟩ | ⟨next, stepped, ran⟩
    · exact ⟨index, reaches, unwrapStep_eq_none_iff.mp ends⟩
    · have less := Nat.lt_of_lt_of_le (lt_of_unwrapStep stepped) (Nat.le_of_lt_succ enough)
      exact ih (.step reaches stepped) less ran

/-! ## Running again -/

/-- Settled code is passed over. -/
theorem Settled.unwrapFrom (settled : Settled marker code) :
    unwrapFrom marker bound code index = ([], .ok code) := by
  induction bound generalizing index with
  | zero => rfl
  | succ bound ih =>
    rw [Body.unwrapFrom]
    cases found : findTry code index with
    | none =>
      rw [unwrapStep_eq_none_iff.mpr found]
    | some block =>
      obtain ⟨before, indent, head, first, -⟩ := exists_firstTry_of_findTry found
      obtain ⟨raw, kept⟩ := settled _ _ _ first.tryIn
      rw [kept.unwrapStep first]
      dsimp only
      rw [ih]
      rfl

/-- A run that gives code back has passed each block ahead. -/
theorem exists_keptIn_of_unwrapFrom (enough : code.length - index < bound)
    (ran : (Body.unwrapFrom marker bound code index).2 = .ok code)
    (found : TryIn code before indent head) (ahead : index ≤ before.length) :
    ∃ raw, KeptIn marker code before indent head raw := by
  induction bound generalizing index with
  | zero => cases enough
  | succ bound ih =>
    rcases unwrapFrom_eq_ok_iff.mp ran with ⟨ends, -⟩ | ⟨next, stepped, ran⟩
    · exact absurd (length_lt_of_findTry (unwrapStep_eq_none_iff.mp ends) found) (Nat.not_lt_of_le ahead)
    · have less := Nat.lt_of_lt_of_le (lt_of_unwrapStep stepped) (Nat.le_of_lt_succ enough)
      have stepAt := unwrapStep_eq_some_iff.mp stepped
      cases stepAt with
      | @kept front indent' head' raw first kept =>
        rcases Nat.lt_or_eq_of_le (first.first _ _ _ found ahead) with later | same
        · exact ih less ran (first.tryIn.keyword_le found later)
        · obtain ⟨rfl, rfl, rfl⟩ := first.tryIn.unique found same
          exact ⟨raw, kept⟩
      | removed first wrapper handles whole =>
        have shorter := (StepAt.removed first wrapper handles whole).length_lt (by simp)
        exact absurd (length_le_of_unwrapFrom ran) (Nat.not_le_of_lt shorter)

/-- A code is left as it is exactly if it is settled. -/
theorem unwrapMocks_eq_self_iff : unwrapMocks marker code = .ok code ↔ Settled marker code := by
  constructor
  · intro ran before indent head found
    exact exists_keptIn_of_unwrapFrom (by omega) ran found (Nat.zero_le _)
  · intro settled
    rw [unwrapMocks, unwrapMocksAt, settled.unwrapFrom]

/-! ## Wrappers left over -/

/-- Each wrapper that is left in the result was left by a removal. The result is passed over by another run exactly
when each block in it is closed and none is a wrapper. -/
theorem wrappers_left_by_removals (ran : unwrapMocks marker code = .ok result) :
    (∀ before indent head raw clause, WrapperIn marker result before indent head raw clause →
      LeftBy marker code before indent head raw clause) ∧
    (unwrapMocks marker result = .ok result ↔ Settled marker result) := by
  obtain ⟨stop, reaches, done⟩ := Reaches.exists_of_unwrapFrom .start (by omega) ran
  refine ⟨fun before indent head raw clause wrapper => ?_, unwrapMocks_eq_self_iff⟩
  exact reaches.leftBy wrapper (length_lt_of_findTry done wrapper.tryIn)

/-- A wrapper that starts the code of another one. -/
def nestedWrappers : Text :=
  "try \x7b\n\ttry \x7b\n\t\tJsMockito.verify();\n\t\x7d catch( e ) \x7b\x7d\n\x7d catch( e ) \x7b\x7d".toList

/-- What a run leaves of it. -/
def nestedRemainder : Text :=
  "try \x7b\n\tJsMockito.verify();\n\x7d catch( e ) \x7b\x7d".toList

/-- A run removes the outer wrapper, goes on behind the keyword of the inner one, and finds no other. -/
theorem unwrapMocks_nestedWrappers :
    unwrapMocks (.text "JsMockito".toList) nestedWrappers = .ok nestedRemainder :=
  rfl

/-- What is left of nested wrappers is a wrapper. -/
theorem wrapperIn_nestedRemainder : WrapperIn (.text "JsMockito".toList) nestedRemainder [] [] "try ".toList
    "\n\tJsMockito.verify();\n".toList " catch( e ) ".toList where
  here := by decide +kernel
  starts := by simp [StartsLine]
  isHead := @TryHead.intro [] [' '] (by simp) (by decide)
  encloses := by decide +kernel
  mentions := by decide +kernel
  caught := @CatchHead.intro [' '] [] " e ".toList [' '] (by decide) (by decide) (by decide) (by decide)

/-- The inner one of two nested wrappers is left by the removal of the outer one. -/
theorem nestedWrappers_left_by_removal :
    unwrapMocks (.text "JsMockito".toList) nestedWrappers = .ok nestedRemainder ∧
      LeftBy (.text "JsMockito".toList) nestedWrappers [] [] "try ".toList "\n\tJsMockito.verify();\n".toList
        " catch( e ) ".toList ∧
      (unwrapMocks (.text "JsMockito".toList) nestedRemainder = .ok nestedRemainder ↔
        Settled (.text "JsMockito".toList) nestedRemainder) :=
  ⟨unwrapMocks_nestedWrappers,
    (wrappers_left_by_removals unwrapMocks_nestedWrappers).1 _ _ _ _ _ wrapperIn_nestedRemainder,
    (wrappers_left_by_removals unwrapMocks_nestedWrappers).2⟩

/-- Two wrappers next to each other, where the indent of the first one is longer than its code. -/
def neighbouringWrappers : Text :=
  "\t\t\t\t\t\t\t\ttry \x7bJsMockito\x7d catch( e ) \x7b\x7d\ntry \x7bJsMockito\x7d catch( e ) \x7b\x7d".toList

/-- What a run leaves of them. -/
def secondNeighbour : Text :=
  "JsMockito\ntry \x7bJsMockito\x7d catch( e ) \x7b\x7d".toList

/-- A run may skip the second of two neighbouring wrappers, which another run removes. -/
theorem second_neighbour_skipped :
    unwrapMocks (.text "JsMockito".toList) neighbouringWrappers = .ok secondNeighbour ∧
      WrapperIn (.text "JsMockito".toList) secondNeighbour "JsMockito\n".toList [] "try ".toList "JsMockito".toList
        " catch( e ) ".toList ∧
      unwrapMocks (.text "JsMockito".toList) secondNeighbour = .ok "JsMockito\nJsMockito".toList ∧
      unwrapMocks (.text "JsMockito".toList) secondNeighbour ≠ .ok secondNeighbour := by
  have again : unwrapMocks (.text "JsMockito".toList) secondNeighbour = .ok "JsMockito\nJsMockito".toList := rfl
  refine ⟨rfl, ⟨by decide +kernel, by simp [StartsLine], @TryHead.intro [] [' '] (by simp) (by decide),
    by decide +kernel, by decide +kernel, @CatchHead.intro [' '] [] " e ".toList [' '] (by decide) (by decide)
      (by decide) (by decide)⟩, again, ?_⟩
  rw [again, Ne, Except.ok.injEq]
  decide

end JasmineConversion.Body
