import JasmineConversion.Proofs.Body.Joints
import JasmineConversion.Proofs.Suite.Sweep

/-! # Member accesses on the test case in a suite

An adaptation without a failure rewrites each body in its place. The hooks are left without a member access
on `this`. A helper method or a test holds one only if the removal of a wrapper or the replacement of an
assertion call has put it together.
-/

namespace JasmineConversion

open Text Body

/-! ## Adaptations without a failure -/

variable {style : BodyStyle}

/-- A step that sweeps delivers bodies that are swept. -/
theorem Sweeps.delivers {α : Type} {placed : α → List PlacedCode} {step : Adapting α} {kept : α}
    (sweeps : Sweeps style placed step kept) :
    Delivers Adapting.Unfailed step fun result => Swept style (placed kept) (placed result) none := by
  rintro ⟨log, failure⟩ ended
  cases failure with
  | none =>
    have swept := sweeps.swept log
    rw [show (step ⟨log, none⟩).2.failure = none from ended] at swept
    exact ⟨rfl, swept⟩
  | some error =>
    rw [sweeps.halted _ rfl] at ended
    cases ended

namespace Adapting

/-- Adapting a hook sweeps its body. -/
theorem hook_sweeps {owner : TestCase} (role : CodeRole) (isHook : role.isHook = true)
    (found : Option Code) :
    Delivers Unfailed (hook (style.hookBody (owner.helpers.map (·.name))) (found.map owner.ownHook))
      fun result =>
        Swept style (found.toList.map (owner.place role)) (result.toList.map (owner.place role)) none := by
  cases found with
  | none => exact .pure .done
  | some code =>
    refine (code_delivers _ (owner.ownHook code)).map ?_
    rintro _ ⟨raw, adapted, rfl⟩
    exact Swept.ownHook isHook adapted

/-- Adapting the other bodies of a test case sweeps them. -/
theorem bodies_sweeps (owner : TestCase) (setUp tearDown : Option Code) :
    Delivers Unfailed (bodies style (owner.helpers.map (·.name)) owner setUp tearDown) fun result =>
      (result.setUp = setUp ∧ result.tearDown = tearDown) ∧
        Swept style (owner.placedBodies owner.helpers owner.tests)
          (owner.placedBodies result.helpers result.tests) none := by
  intro trail ended
  obtain ⟨began, swept⟩ := (Sweeps.bodies owner setUp tearDown).delivers trail ended
  exact ⟨began, ⟨rfl, rfl⟩, swept⟩

/-- The parts of a test case are rewritten in their places, once its hooks are its own. -/
theorem ownParts_sweeps (found : TestCase) :
    Delivers Unfailed (do
      let setUp ← hook (style.hookBody (found.helpers.map (·.name))) (found.setUp.map found.ownHook)
      let tearDown ← hook (style.hookBody (found.helpers.map (·.name))) (found.tearDown.map found.ownHook)
      bodies style (found.helpers.map (·.name)) found setUp tearDown)
      fun after => Swept style found.placed (found.placedHooks after.setUp after.tearDown ++
        found.placedBodies after.helpers after.tests) none := by
  refine (hook_sweeps .setUp rfl found.setUp).bind fun setUp => ?_
  refine (hook_sweeps .tearDown rfl found.tearDown).bind fun tearDown => ?_
  intro trail ended
  obtain ⟨began, ⟨sameSetUp, sameTearDown⟩, swept⟩ := bodies_sweeps found setUp tearDown trail ended
  refine ⟨began, fun tearDowns setUps => ?_⟩
  rw [sameSetUp, sameTearDown]
  exact (setUps.append tearDowns).append swept

/-- Adapting the parts of a test case sweeps its bodies. -/
theorem parts_sweeps (found : TestCase) :
    Delivers Unfailed (parts style (found.helpers.map (·.name)) found) fun after =>
      Swept style found.placed after.placed none := by
  have orderly := Orderly.parts style (found.helpers.map (·.name)) found
  rintro ⟨log, failure⟩ ended
  cases failure with
  | some error =>
    rw [orderly.halted _ rfl] at ended
    cases ended
  | none =>
    refine ⟨rfl, ?_⟩
    dsimp only
    rw [TestCase.placed_of_bare (orderly.bodies ⟨log, none⟩)]
    unfold parts at ended ⊢
    rw [bind_of_apply (ownHooks_apply found log)] at ended ⊢
    exact (ownParts_sweeps found _ ended).2

/-- Adapting a test case sweeps its bodies. -/
theorem testCase_sweeps (found : TestCase) :
    Delivers Unfailed (testCase style found) fun after => Swept style found.placed after.placed none := by
  refine (note_delivers _).bind fun _ => ?_
  intro trail ended
  obtain ⟨began, swept⟩ := parts_sweeps found trail ended
  exact ⟨began, fun _ => swept⟩

mutual

/-- Adapting a container sweeps its bodies. -/
theorem container_sweeps (tree : Container) :
    Delivers Unfailed (container style tree) fun after => Swept style tree.placed after.placed none := by
  cases tree with
  | suite name children =>
    refine (note_delivers _).bind fun _ => (containers_sweeps children).bind fun adapted => .pure ?_
    exact fun swept _ => swept
  | testCase inner =>
    refine (testCase_sweeps inner).bind fun adapted => .pure fun swept => ?_
    change Swept style (inner.placed ++ []) (adapted.placed ++ []) none
    rwa [List.append_nil, List.append_nil]

/-- Adapting containers sweeps their bodies. -/
theorem containers_sweeps (trees : List Container) :
    Delivers Unfailed (containers style trees) fun after =>
      Swept style ((Container.cases.all trees).flatMap TestCase.placed)
        ((Container.cases.all after).flatMap TestCase.placed) none := by
  cases trees with
  | nil => exact .pure .done
  | cons first rest =>
    refine (container_sweeps first).bind fun adapted => (containers_sweeps rest).bind fun others => .pure ?_
    intro further here
    rw [Container.cases.all, Container.cases.all, List.flatMap_append, List.flatMap_append]
    exact here.append further

end

end Adapting

/-- Bodies that are swept without a failure are all rewritten. -/
theorem Swept.eq_map {before after : List PlacedCode} (swept : Swept style before after none) :
    after = before.map (·.rewritten style) ∧ ∀ placed ∈ before, ∃ raw, placed.rewrite style = .ok raw := by
  generalize ended : none = failure at swept
  induction swept with
  | done => exact ⟨rfl, by simp⟩
  | rewritten adapted _ ih =>
    obtain ⟨rfl, further⟩ := ih ended
    exact ⟨rfl, List.forall_mem_cons.mpr ⟨⟨_, adapted⟩, further⟩⟩
  | failed => cases ended

/-! ## Bodies -/

/-- Rewriting placed code puts a member access on `this` together, once the references to the test case are
replaced. -/
def PlacedCode.JoinsSelf (style : BodyStyle) (placed : PlacedCode) : Prop :=
  ∃ replaced, style.hookBody placed.names placed.body = .ok replaced ∧
    (UnwrapJoins style.marker replaced 0 ∨
      ∃ unwrapped, unwrapMocks style.marker replaced = .ok unwrapped ∧
        AssertionCall.ReplaceJoins unwrapped 0)

/-- A name that is checked for an identifier is one. -/
theorem identifier_of_isIdentifier {name : Text} (named : SettingValue.isIdentifier name = true) :
    Pattern.Identifier name := by
  obtain ⟨starts, parts⟩ := Bool.and_eq_true_iff.mp named
  exact ⟨starts, List.all_eq_true.mp parts⟩

/-- A fixture without a fault is an identifier other than the word of a self reference. -/
theorem identifier_of_fixtureFault? {name : Text} (allowed : SettingValue.fixtureFault? name = none) :
    Pattern.Identifier name ∧ name ≠ "this".toList := by
  refine ⟨identifier_of_isIdentifier (SettingValue.fixture_rule allowed), ?_⟩
  rintro rfl
  exact absurd allowed (by decide)

/-- An adapted hook holds no self reference. -/
theorem BodyStyle.not_holdsSelf_of_hookBody (fixture : SettingValue.fixtureFault? style.fixture = none)
    {names : List Text} {body raw : Text} (adapted : style.hookBody names body = .ok raw) :
    ¬ HoldsSelf raw := by
  obtain ⟨named, other⟩ := identifier_of_fixtureFault? fixture
  obtain ⟨short, -, replaced⟩ := exceptBind_eq_ok_iff.mp adapted
  exact not_holdsSelf_of_replaceSelf named other replaced

/-- A self reference in an adapted body was joined there, and this is no hook. -/
theorem PlacedCode.joinsSelf_of_holdsSelf (fixture : SettingValue.fixtureFault? style.fixture = none)
    {placed : PlacedCode} {raw : Text} (adapted : placed.rewrite style = .ok raw) (holds : HoldsSelf raw) :
    placed.role.isHook = false ∧ placed.JoinsSelf style := by
  unfold rewrite at adapted
  split at adapted
  · exact absurd holds (BodyStyle.not_holdsSelf_of_hookBody fixture adapted)
  · next other =>
    refine ⟨Bool.eq_false_iff.mpr other, ?_⟩
    unfold BodyStyle.testBody at adapted
    split at adapted
    · cases adapted
    · next replaced hooked =>
      obtain ⟨unwrapped, removed, adapted⟩ := exceptBind_eq_ok_iff.mp adapted
      refine ⟨replaced, hooked, ?_⟩
      rcases AssertionCall.holdsSelf_of_replaceFrom adapted holds with here | joins
      · rcases HoldsSelf.of_unwrapFrom removed here with earlier | joins
        · exact absurd earlier (BodyStyle.not_holdsSelf_of_hookBody fixture hooked)
        · exact .inl joins
      · exact .inr ⟨unwrapped, removed, joins⟩

/-- An adaptation without a failure rewrites all code of a tree. A hook is left without a member access on
`this`, and a helper method or a test holds one only if a rewriting has joined two texts to one. -/
theorem self_references_joined {tree : Container}
    (fixture : SettingValue.fixtureFault? style.fixture = none)
    (unfailed : (tree.adapt style).2.failure = none) :
    (tree.adapt style).1.placed = tree.placed.map (·.rewritten style) ∧
      ∀ placed ∈ tree.placed, HoldsSelf (placed.rewritten style).code.body →
        placed.role.isHook = false ∧ placed.JoinsSelf style := by
  obtain ⟨-, swept⟩ := Adapting.container_sweeps tree {} unfailed
  obtain ⟨result, succeed⟩ := swept.eq_map
  refine ⟨result, fun placed member holds => ?_⟩
  obtain ⟨raw, adapted⟩ := succeed placed member
  have body : (placed.rewritten style).code.body = dedent raw := by
    rw [PlacedCode.rewritten, adapted]
    rfl
  rw [body] at holds
  exact PlacedCode.joinsSelf_of_holdsSelf fixture adapted holds.of_dedent

/-- A test case that passes itself on: to an assertion about its keys, as the message of an assertion, and at
the end of a wrapper. -/
def passedOn : Container :=
  .testCase
    { name := "a".toList
      setUp := some ⟨"this.x = this.go();".toList, 2⟩
      tests := [⟨"key".toList, ⟨"Y.ObjectAssert.hasKey( 'k', this );".toList, 4⟩⟩,
        ⟨"message".toList, ⟨"Y.Assert.isTrue( a, this ).x;".toList, 7⟩⟩,
        ⟨"wrapper".toList,
          ⟨"try \x7b JsMockito.verify( a ); this\x7d catch ( e ) \x7b\x7d.x;".toList, 10⟩⟩] }

/-- A test that passes its own object on has a self reference joined. -/
theorem passedOn_joined :
    (passedOn.adapt {}).2.failure = none ∧
      (passedOn.adapt {}).1.placed = passedOn.placed.map (·.rewritten {}) ∧
      ∀ placed ∈ passedOn.placed, placed.role = .test → placed.JoinsSelf {} := by
  have unfailed : (passedOn.adapt {}).2.failure = none := by decide +kernel
  obtain ⟨result, joined⟩ := self_references_joined (by decide) unfailed
  refine ⟨unfailed, result, fun placed member isTest => (joined placed member ?_).2⟩
  have holds : ∀ placed ∈ passedOn.placed, placed.role = .test →
      HoldsSelf (placed.rewritten {}).code.body := by
    decide +kernel
  exact holds placed member isTest

/-- A body may hold a member access on `this` in each of these ways. -/
theorem passedOn_holds_self :
    SettingValue.fixtureFault? ({} : BodyStyle).fixture = none ∧ (passedOn.adapt {}).2.failure = none ∧
      (passedOn.adapt {}).1.placed.map (·.code.body) =
        ["thisSuite.x = thisSuite.go();".toList,
          "expect( this.hasOwnProperty( 'k' ) ).toBe( true );".toList,
          "expect( a ).toBe( true );  // orig YUI Test err msg: this.x;".toList,
          "JsMockito.verify( a ); this.x;".toList] ∧
      ∀ placed ∈ (passedOn.adapt {}).1.placed, placed.role = .test → HoldsSelf placed.code.body := by
  decide +kernel

end JasmineConversion
