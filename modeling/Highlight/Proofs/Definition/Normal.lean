import Highlight.Definition.Normal
import Highlight.Proofs.Outcome

set_option autoImplicit false

/-! What stands within a mode. Doing away with shorthand leaves it alone, except that a mode that stands
behind another match is moved behind a mode for that match. The steps come in two parts: those that a mode
has been through before it may be moved, and those behind them. -/

namespace Highlight

open Outcome

namespace ModeDefinition

structure SameWithin (before after : ModeDefinition) : Prop where
  contains : after.contains = before.contains
  variants : after.variants = before.variants
  starts : after.starts = before.starts
  flags : after.flags = before.flags
  beforeMatch : after.beforeMatch = before.beforeMatch

variable {mode after : ModeDefinition} {contained : Bool}

theorem SameWithin.refl (mode : ModeDefinition) : SameWithin mode mode :=
  ⟨rfl, rfl, rfl, rfl, rfl⟩

theorem SameWithin.trans {first second third : ModeDefinition} (left : SameWithin first second)
    (right : SameWithin second third) : SameWithin first third where
  contains := right.contains.trans left.contains
  variants := right.variants.trans left.variants
  starts := right.starts.trans left.starts
  flags := right.flags.trans left.flags
  beforeMatch := right.beforeMatch.trans left.beforeMatch

theorem withClassName_sameWithin (mode : ModeDefinition) : SameWithin mode mode.withClassName := by
  unfold withClassName
  split <;> exact ⟨rfl, rfl, rfl, rfl, rfl⟩

theorem withCaptureScope_sameWithin (mode : ModeDefinition) :
    SameWithin mode mode.withCaptureScope := by
  unfold withCaptureScope
  split <;> exact ⟨rfl, rfl, rfl, rfl, rfl⟩

theorem withBeginKeywords_sameWithin (mode : ModeDefinition) :
    SameWithin mode mode.withBeginKeywords := by
  unfold withBeginKeywords
  split <;> exact ⟨rfl, rfl, rfl, rfl, rfl⟩

theorem withIllegalChoice_sameWithin (mode : ModeDefinition) :
    SameWithin mode mode.withIllegalChoice := by
  unfold withIllegalChoice
  split <;> exact ⟨rfl, rfl, rfl, rfl, rfl⟩

theorem withDefaultRelevance_sameWithin (mode : ModeDefinition) :
    SameWithin mode mode.withDefaultRelevance :=
  ⟨rfl, rfl, rfl, rfl, rfl⟩

theorem withMatching_sameWithin (matching : mode.withMatching = .ok after) :
    SameWithin mode after := by
  unfold withMatching at matching
  split at matching
  · split at matching
    · cases matching
    · obtain rfl := Except.ok.inj matching
      exact ⟨rfl, rfl, rfl, rfl, rfl⟩
  · obtain rfl := Except.ok.inj matching
    exact .refl mode

theorem withBeginParts_sameWithin (joined : mode.withBeginParts = .ok after) :
    SameWithin mode after := by
  unfold withBeginParts at joined
  split at joined
  · split at joined
    · cases joined
    · split at joined
      · cases joined
      · obtain rfl := Except.ok.inj joined
        exact ⟨rfl, rfl, rfl, rfl, rfl⟩
  · obtain rfl := Except.ok.inj joined
    exact .refl mode

theorem withEndParts_sameWithin (joined : mode.withEndParts = .ok after) :
    SameWithin mode after := by
  unfold withEndParts at joined
  split at joined
  · split at joined
    · cases joined
    · split at joined
      · cases joined
      · obtain rfl := Except.ok.inj joined
        exact ⟨rfl, rfl, rfl, rfl, rfl⟩
  · obtain rfl := Except.ok.inj joined
    exact .refl mode

/-- A mode that stands behind another match: a mode of its own for that match starts one that contains
nothing but the mode, without the match before it. -/
structure MovesBehind (mode after : ModeDefinition) : Prop where
  before : mode.beforeMatch ≠ none
  contains : after.contains = []
  flags : after.flags = {}
  starts : ∃ inner, after.starts = some { relevance := some 0, contains := [.inline inner] } ∧
    inner.beforeMatch = none ∧ inner.contains = mode.contains ∧ inner.variants = mode.variants ∧
    inner.starts = none

theorem withBeforeMatch_cases (moved : mode.withBeforeMatch = .ok after) :
    SameWithin mode after ∧ mode.beforeMatch = none ∨ MovesBehind mode after := by
  unfold withBeforeMatch at moved
  split at moved
  · rename_i none_
    obtain rfl := Except.ok.inj moved
    exact Or.inl ⟨.refl mode, none_⟩
  · rename_i before some_
    split at moved
    · cases moved
    · rename_i first
      obtain rfl := Except.ok.inj moved
      exact Or.inr ⟨by simp [some_], rfl, rfl, _, rfl, rfl, rfl, rfl, by simpa using first⟩

/-! ### The steps in two parts -/

/-- The steps that a mode has been through before it may be moved. -/
def settle (mode : ModeDefinition) : Except DefinitionError ModeDefinition := do
  let mode ← mode.withClassName.withMatching
  let mode ← mode.withCaptureScope.withBeginParts
  mode.withEndParts

/-- The steps behind those, none of which fails. -/
def complete (contained : Bool) (extensions : List (ModeDefinition → ModeDefinition))
    (mode : ModeDefinition) : ModeDefinition :=
  let mode := extensions.foldl (fun mode extension => extension mode) mode
  let mode := { mode with beforeBegin := none }
  let mode := if contained then mode.withBeginKeywords else mode
  mode.withIllegalChoice.withDefaultRelevance

theorem normalize_eq_settle (mode : ModeDefinition) (contained : Bool)
    (extensions : List (ModeDefinition → ModeDefinition)) :
    mode.normalize contained extensions = do
      let settled ← mode.settle
      let moved ← settled.withBeforeMatch
      return moved.complete contained extensions := by
  unfold normalize settle
  simp only [bind_assoc]
  rfl

theorem normalize_eq_ok {extensions : List (ModeDefinition → ModeDefinition)}
    (normalized : mode.normalize contained extensions = .ok after) :
    ∃ settled moved, mode.settle = .ok settled ∧ settled.withBeforeMatch = .ok moved ∧
      moved.complete contained extensions = after := by
  rw [normalize_eq_settle] at normalized
  obtain ⟨settled, settles, normalized⟩ := bind_eq_ok.mp normalized
  obtain ⟨moved, moves, normalized⟩ := bind_eq_ok.mp normalized
  exact ⟨settled, moved, settles, moves, pure_eq_ok.mp normalized⟩

theorem settle_eq_ok : mode.settle = .ok after ↔ ∃ matched begun,
    mode.withClassName.withMatching = .ok matched ∧
      matched.withCaptureScope.withBeginParts = .ok begun ∧ begun.withEndParts = .ok after := by
  unfold settle
  rw [bind_eq_ok]
  constructor
  · rintro ⟨matched, matching, onward⟩
    obtain ⟨begun, begins, ends⟩ := bind_eq_ok.mp onward
    exact ⟨matched, begun, matching, begins, ends⟩
  · rintro ⟨matched, begun, matching, begins, ends⟩
    exact ⟨matched, matching, bind_eq_ok.mpr ⟨begun, begins, ends⟩⟩

theorem settle_sameWithin (settles : mode.settle = .ok after) : SameWithin mode after := by
  obtain ⟨matched, begun, matching, begins, ends⟩ := settle_eq_ok.mp settles
  exact (((withClassName_sameWithin mode).trans (withMatching_sameWithin matching)).trans
    ((withCaptureScope_sameWithin matched).trans (withBeginParts_sameWithin begins))).trans
      (withEndParts_sameWithin ends)

/-- Without extensions, the steps that do not fail leave alone what stands within a mode, whether it is
contained or not. -/
theorem complete_sameWithin (mode : ModeDefinition) (contained : Bool) :
    SameWithin mode (mode.complete contained []) := by
  have cleared : SameWithin mode { mode with beforeBegin := none } := ⟨rfl, rfl, rfl, rfl, rfl⟩
  refine SameWithin.trans ?_
    ((withIllegalChoice_sameWithin _).trans (withDefaultRelevance_sameWithin _))
  cases contained with
  | true => exact cleared.trans (withBeginKeywords_sameWithin _)
  | false => exact cleared

/-- Without extensions, doing away with shorthand keeps what stands within a mode, or moves the mode
behind the match that stands before it. -/
theorem normalize_cases (normalized : mode.normalize contained [] = .ok after) :
    SameWithin mode after ∧ mode.beforeMatch = none ∨ MovesBehind mode after := by
  obtain ⟨settled, moved, settles, moves, rfl⟩ := normalize_eq_ok normalized
  have start := settle_sameWithin settles
  have finish := complete_sameWithin moved contained
  rcases withBeforeMatch_cases moves with ⟨same, none_⟩ | behind
  · exact Or.inl ⟨(start.trans same).trans finish, start.beforeMatch ▸ none_⟩
  · obtain ⟨inner, starts, innerFirst, innerContains, innerVariants, innerLast⟩ := behind.starts
    exact Or.inr ⟨start.beforeMatch ▸ behind.before, finish.contains.trans behind.contains,
      finish.flags.trans behind.flags, inner, finish.starts.trans starts, innerFirst,
      innerContains.trans start.contains, innerVariants.trans start.variants, innerLast⟩

theorem normalize_contained {other : ModeDefinition} {otherwise : Bool}
    (normalized : mode.normalize contained [] = .ok after)
    (otherNormalized : mode.normalize otherwise [] = .ok other) :
    other.contains = after.contains ∧ other.starts = after.starts := by
  obtain ⟨settled, moved, settles, moves, rfl⟩ := normalize_eq_ok normalized
  obtain ⟨_, _, otherSettles, otherMoves, rfl⟩ := normalize_eq_ok otherNormalized
  obtain rfl := Except.ok.inj (settles.symm.trans otherSettles)
  obtain rfl := Except.ok.inj (moves.symm.trans otherMoves)
  have finish := complete_sameWithin moved contained
  have otherFinish := complete_sameWithin moved otherwise
  exact ⟨otherFinish.contains.trans finish.contains.symm, otherFinish.starts.trans finish.starts.symm⟩

end ModeDefinition

end Highlight
