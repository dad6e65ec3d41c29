import Highlight.Proofs.Pattern.Matching

set_option autoImplicit false

/-! What a match remembers. A plan moves on, may take the match to start elsewhere, and writes down the
spans of the groups that it marks. So what holds of the progress before it and is kept by these three
holds behind it: above all, groups that a plan does not mark stay as they were. -/

namespace Highlight.Pattern

/-- A property of progress that lasts while a plan with such marks is tried. -/
structure Lasts (marks : List (Option Nat)) (held : Progress → Prop) : Prop where
  moves : ∀ progress position, held progress → held (progress.moveTo position)
  keeps : none ∈ marks → ∀ progress position, held progress →
    held { progress with kept := some position }
  sets : ∀ group, some group ∈ marks → ∀ (progress : Progress) (span : Option Span),
    held progress → held { progress with groups := progress.groups.setIfInBounds group span }

namespace Lasts

variable {marks : List (Option Nat)} {held : Progress → Prop}

theorem carries (lasts : Lasts marks held) :
    Carries marks fun before after => held before → held after where
  refl _ holds := holds
  trans left right holds := right (left holds)
  moves _ _ _ holds := lasts.moves _ _ holds
  looks _ reached holds := lasts.moves _ _ (reached (lasts.moves _ _ holds))
  keeps marked _ holds := lasts.keeps marked _ _ holds
  sets group marked _ _ holds := lasts.sets group marked _ _ holds

theorem unmarked {group : Nat} (other : some group ∉ marks) (span : Option Span) (size : Nat) :
    Lasts marks fun progress => progress.groups.size = size ∧ progress.span? group = span where
  moves _ _ holds := holds
  keeps _ _ _ holds := holds
  sets changed marked progress given holds := by
    refine ⟨by simpa using holds.1, ?_⟩
    have apart : changed ≠ group := fun same => other (same ▸ marked)
    rw [← holds.2, Progress.span?, Array.getElem?_setIfInBounds, if_neg apart]
    rfl

end Lasts

theorem Plan.holds_of_matchFrom {held : Progress → Prop} {plan : Plan}
    (lasts : Lasts plan.marks held) {groups : Nat} {text : Text} {origin position : Nat}
    {final : Progress} (start : held { position, groups := Array.replicate (groups + 1) none })
    (found : plan.matchFrom groups text origin position = some final) : held final := by
  obtain ⟨after, holds, last⟩ := plan.matchThen_reachesNext lasts.carries _ found
  cases last
  exact holds start

end Highlight.Pattern
