import Highlight.Proofs.Definition.Normal

set_option autoImplicit false

/-! Definitions within a definition. They are those that stand in it once it has no shorthand any more,
and those within them; the shared modes that it contains are only mentioned. There are finitely many,
which is not seen from their sizes, because doing away with shorthand can make a definition larger. It
is seen from their weights. -/

namespace Highlight.ModeDefinition

open Outcome

/-- A definition is another one or is compiled within it. -/
inductive Within : ModeDefinition → ModeDefinition → Prop
  | itself (mode : ModeDefinition) : Within mode mode
  | contained {mode normal inner variant part : ModeDefinition} {contained : Bool}
      (normalized : mode.normalize contained [] = .ok normal)
      (entry : .inline inner ∈ normal.contains) (stands : variant ∈ inner.expanded)
      (within : Within part variant) : Within part mode
  | started {mode normal next part : ModeDefinition} {contained : Bool}
      (normalized : mode.normalize contained [] = .ok normal) (follows : normal.starts = some next)
      (within : Within part next) : Within part mode

/-- A shared mode is among what a definition within another one contains. -/
def Mentions (mode : ModeDefinition) (name : String) : Prop :=
  ∃ (part normal : ModeDefinition) (contained : Bool), Within part mode ∧
    part.normalize contained [] = .ok normal ∧ .shared name ∈ normal.contains

variable {mode normal inner variant next : ModeDefinition} {nested : Bool} {name : String}

theorem Mentions.shared (normalized : mode.normalize nested [] = .ok normal)
    (entry : .shared name ∈ normal.contains) : mode.Mentions name :=
  ⟨mode, normal, nested, .itself mode, normalized, entry⟩

theorem Mentions.contained (normalized : mode.normalize nested [] = .ok normal)
    (entry : .inline inner ∈ normal.contains) (stands : variant ∈ inner.expanded)
    (mentions : variant.Mentions name) : mode.Mentions name := by
  obtain ⟨part, plain, inside, within, partNormalized, shared⟩ := mentions
  exact ⟨part, plain, inside, .contained normalized entry stands within, partNormalized, shared⟩

theorem Mentions.started (normalized : mode.normalize nested [] = .ok normal)
    (follows : normal.starts = some next) (mentions : next.Mentions name) : mode.Mentions name := by
  obtain ⟨part, plain, inside, within, partNormalized, shared⟩ := mentions
  exact ⟨part, plain, inside, .started normalized follows within, partNormalized, shared⟩

theorem Mentions.cases (mentions : mode.Mentions name)
    (normalized : mode.normalize nested [] = .ok normal) :
    .shared name ∈ normal.contains ∨
      (∃ inner variant, .inline inner ∈ normal.contains ∧ variant ∈ inner.expanded ∧
        variant.Mentions name) ∨
      ∃ next, normal.starts = some next ∧ next.Mentions name := by
  obtain ⟨part, plain, inside, within, partNormalized, shared⟩ := mentions
  cases within with
  | itself =>
      rw [(normalize_contained normalized partNormalized).1] at shared
      exact Or.inl shared
  | contained otherwise entry stands within =>
      rw [(normalize_contained normalized otherwise).1] at entry
      exact Or.inr (Or.inl ⟨_, _, entry, stands, part, plain, inside, within, partNormalized, shared⟩)
  | started otherwise follows within =>
      rw [(normalize_contained normalized otherwise).2] at follows
      exact Or.inr (Or.inr ⟨_, follows, part, plain, inside, within, partNormalized, shared⟩)

/-! ### Weights -/

mutual

/-- How much there is to compile. A mode that stands behind another match counts for the two that it
becomes and itself. -/
def weight : ModeDefinition → Nat
  | { contains := contains, variants := variants, starts := starts, beforeMatch := before, .. } =>
    1 + (if before.isSome then 2 else 0) + weightOfEntries contains + weightOfVariants variants +
      weightOfNext starts

def weightOfEntries : List (ContainsEntry ModeDefinition) → Nat
  | [] => 0
  | .itself :: rest => weightOfEntries rest
  | .shared _ :: rest => weightOfEntries rest
  | .inline inner :: rest => weight inner + weightOfEntries rest

def weightOfVariants : List ModeDefinition → Nat
  | [] => 0
  | variant :: rest => weight variant + weightOfVariants rest

def weightOfNext : Option ModeDefinition → Nat
  | none => 0
  | some next => weight next

end

theorem weight_eq (mode : ModeDefinition) : mode.weight =
    1 + (if mode.beforeMatch.isSome then 2 else 0) + weightOfEntries mode.contains +
      weightOfVariants mode.variants + weightOfNext mode.starts := by
  cases mode
  rfl

theorem weight_le_weightOfEntries {entries : List (ContainsEntry ModeDefinition)}
    (member : .inline inner ∈ entries) : inner.weight ≤ weightOfEntries entries := by
  induction entries with
  | nil => cases member
  | cons entry rest ih =>
      rcases List.mem_cons.mp member with rfl | later
      · simp [weightOfEntries]
      · have := ih later
        cases entry <;> simp only [weightOfEntries] <;> omega

theorem weight_le_weightOfVariants {variants : List ModeDefinition} (member : variant ∈ variants) :
    variant.weight ≤ weightOfVariants variants := by
  induction variants with
  | nil => cases member
  | cons first rest ih =>
      rcases List.mem_cons.mp member with rfl | later
      · simp [weightOfVariants]
      · have := ih later
        simp only [weightOfVariants]
        omega

theorem weight_le_of_expanded (stands : variant ∈ mode.expanded) : variant.weight ≤ mode.weight := by
  unfold expanded at stands
  split at stands
  · exact Nat.le_of_eq (congrArg weight (List.mem_singleton.mp stands))
  · obtain ⟨change, member, rfl⟩ := List.mem_map.mp stands
    have changeWeight := weight_le_weightOfVariants member
    rw [weight_eq] at changeWeight
    rw [weight_eq, weight_eq mode]
    -- each part is taken from one of the two
    have before : (if (mode.withVariant change).beforeMatch.isSome then 2 else 0) ≤
        (if change.beforeMatch.isSome then 2 else 0) +
          (if mode.beforeMatch.isSome then 2 else 0) := by
      change (if (change.beforeMatch.or mode.beforeMatch).isSome then 2 else 0) ≤ _
      cases change.beforeMatch with
      | none => exact Nat.le_add_left _ _
      | some before => simp
    have entries : weightOfEntries (mode.withVariant change).contains ≤
        weightOfEntries change.contains + weightOfEntries mode.contains := by
      change weightOfEntries (if change.contains.isEmpty then mode.contains else change.contains) ≤ _
      split <;> omega
    have starts : weightOfNext (mode.withVariant change).starts ≤
        weightOfNext change.starts + weightOfNext mode.starts := by
      change weightOfNext (change.starts.or mode.starts) ≤ _
      cases change.starts <;> simp [weightOfNext]
    have variants : weightOfVariants (mode.withVariant change).variants = 0 := rfl
    omega

/-- What stands in a mode without shorthand weighs less than the mode. -/
theorem weight_lt_of_normalize (normalized : mode.normalize nested [] = .ok normal) :
    weightOfEntries normal.contains < mode.weight ∧ weightOfNext normal.starts < mode.weight := by
  rw [weight_eq mode]
  rcases normalize_cases normalized with ⟨same, _⟩ | behind
  · rw [same.contains, same.starts]
    omega
  · obtain ⟨inner, starts, first, contains, variants, last⟩ := behind.starts
    have before : mode.beforeMatch.isSome = true := Option.isSome_iff_ne_none.mpr behind.before
    rw [behind.contains, starts, if_pos before, ← contains, ← variants]
    have innerWeight := weight_eq inner
    simp only [first, last, Option.isSome_none, Bool.false_eq_true, if_false, weightOfNext]
      at innerWeight
    simp only [weightOfNext, weightOfEntries, weight_eq { relevance := some 0, contains := [.inline inner] },
      Option.isSome_none, Bool.false_eq_true, if_false, weightOfVariants]
    omega

theorem weight_lt_of_contained (normalized : mode.normalize nested [] = .ok normal)
    (entry : .inline inner ∈ normal.contains) (stands : variant ∈ inner.expanded) :
    variant.weight < mode.weight :=
  calc variant.weight ≤ inner.weight := weight_le_of_expanded stands
    _ ≤ weightOfEntries normal.contains := weight_le_weightOfEntries entry
    _ < mode.weight := (weight_lt_of_normalize normalized).1

theorem weight_lt_of_started (normalized : mode.normalize nested [] = .ok normal)
    (follows : normal.starts = some next) : next.weight < mode.weight := by
  have less := (weight_lt_of_normalize normalized).2
  rw [follows] at less
  exact less

end Highlight.ModeDefinition
