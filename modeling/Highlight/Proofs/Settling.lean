import Highlight.Proofs.Outcome

set_option autoImplicit false

/-! Computations within a bound. A recursion that need not end by itself takes a bound on its depth, so
for each input there is one computation for each bound. They settle if from some bound on they all come
to the same: then the bound has no part in what they come to. -/

namespace Highlight

open Outcome

universe u v

theorem exists_bound {α : Type} {items : List α} {bounded : α → Nat → Prop}
    (mono : ∀ item least most, least ≤ most → bounded item least → bounded item most)
    (each : ∀ item ∈ items, ∃ bound, bounded item bound) :
    ∃ bound, ∀ item ∈ items, bounded item bound := by
  induction items with
  | nil => exact ⟨0, by simp⟩
  | cons item rest ih =>
      obtain ⟨first, firstBounded⟩ := each item List.mem_cons_self
      obtain ⟨others, othersBounded⟩ := ih fun item member => each item (List.mem_cons_of_mem _ member)
      refine ⟨max first others, fun other member => ?_⟩
      rcases List.mem_cons.mp member with rfl | later
      · exact mono _ _ _ (Nat.le_max_left _ _) firstBounded
      · exact mono _ _ _ (Nat.le_max_right _ _) (othersBounded other later)

/-- From some bound on, all computations come to the same, which is fine. -/
def Settles {α : Type u} (fine : α → Prop) (bounded : Nat → α) : Prop :=
  ∃ value, fine value ∧ ∃ least, ∀ bound, least ≤ bound → bounded bound = value

namespace Settles

variable {α : Type u} {β : Type v} {fine more : α → Prop} {good : β → Prop}

theorem const {value : α} (holds : fine value) : Settles fine fun _ => value :=
  ⟨value, holds, 0, fun _ _ => rfl⟩

theorem mono {bounded : Nat → α} (settles : Settles fine bounded)
    (weaker : ∀ value, fine value → more value) : Settles more bounded := by
  obtain ⟨value, holds, comes⟩ := settles
  exact ⟨value, weaker value holds, comes⟩

/-- What settles may be gone on with, in a way that settles for what it comes to. -/
theorem andThen {bounded : Nat → α} {next : Nat → α → β} (settles : Settles fine bounded)
    (onward : ∀ value, fine value → (∃ least, ∀ bound, least ≤ bound → bounded bound = value) →
      Settles good fun bound => next bound value) :
    Settles good fun bound => next bound (bounded bound) := by
  obtain ⟨value, holds, least, comes⟩ := settles
  obtain ⟨last, lastHolds, later, goesOn⟩ := onward value holds ⟨least, comes⟩
  refine ⟨last, lastHolds, max least later, fun bound within => ?_⟩
  have there : bounded bound = value := comes bound (by omega)
  dsimp only
  rw [there]
  exact goesOn bound (by omega)

theorem of_succ {bounded : Nat → α} (settles : Settles fine fun bound => bounded (bound + 1)) :
    Settles fine bounded := by
  obtain ⟨value, holds, least, comes⟩ := settles
  refine ⟨value, holds, least + 1, fun bound within => ?_⟩
  obtain ⟨earlier, rfl⟩ := Nat.exists_eq_add_of_le' (Nat.le_trans (Nat.le_add_left 1 least) within)
  exact comes earlier (by omega)

end Settles

/-! ### Computations that may fail -/

section

variable {ε α β : Type} {allowed others : ε → Prop} {held : α → Prop} {goal : β → Prop}

/-- Computations that settle on an outcome which fails for reasons only that are allowed, and gives only
what has a property. -/
abbrev SettlesOn (allowed : ε → Prop) (held : α → Prop) (bounded : Nat → Except ε α) : Prop :=
  Settles (Satisfies allowed held) bounded

theorem SettlesOn.weaken {bounded : Nat → Except ε α} (settles : SettlesOn allowed held bounded)
    (among : ∀ failure, allowed failure → others failure) : SettlesOn others held bounded :=
  settles.mono fun _ fine => ⟨fun failure failed => among failure (fine.fails failure failed), fine.gives⟩

theorem SettlesOn.bind {first : Nat → Except ε α} {next : Nat → α → Except ε β}
    (settles : SettlesOn allowed held first)
    (onward : ∀ value, held value → (∃ least, ∀ bound, least ≤ bound → first bound = .ok value) →
      SettlesOn allowed goal fun bound => next bound value) :
    SettlesOn allowed goal fun bound => first bound >>= next bound := by
  refine @Settles.andThen _ _ _ _ first (fun bound outcome => outcome >>= next bound) settles
    fun outcome fine comes => ?_
  cases outcome with
  | error failure => exact Settles.const (Satisfies.error (fine.fails failure rfl))
  | ok value => exact onward value (fine.gives value rfl) comes

theorem SettlesOn.after {first : Except ε α} {next : Nat → α → Except ε β}
    (satisfies : Satisfies allowed held first)
    (onward : ∀ value, first = .ok value → SettlesOn allowed goal fun bound => next bound value) :
    SettlesOn allowed goal fun bound => first >>= next bound := by
  refine SettlesOn.bind (Settles.const satisfies) fun value _ comes => onward value ?_
  obtain ⟨least, comes⟩ := comes
  exact comes least (Nat.le_refl _)

theorem SettlesOn.mapM {step : Nat → α → Except ε β} {items : List α}
    (each : ∀ item ∈ items, SettlesOn allowed (fun _ => True) fun bound => step bound item) :
    SettlesOn allowed (fun _ => True) fun bound => items.mapM (step bound) := by
  induction items with
  | nil => exact Settles.const (Satisfies.ok trivial)
  | cons item rest ih =>
      simp only [List.mapM_cons]
      refine SettlesOn.bind (each item List.mem_cons_self) fun first _ _ => ?_
      refine SettlesOn.bind (ih fun item member => each item (List.mem_cons_of_mem _ member))
        fun others _ _ => ?_
      exact Settles.const (Satisfies.ok trivial)

end

end Highlight
