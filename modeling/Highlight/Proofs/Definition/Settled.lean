import Highlight.Proofs.Definition.Normal

set_option autoImplicit false

/-! Modes without shorthand. The first steps of doing away with shorthand settle the bounds of a mode, and
leave a settled mode as it is. So it does no harm that a mode which is moved behind another match has been
through them already when its own turn comes: it comes out as if it had stood there from the start. -/

namespace Highlight

open Outcome

namespace ModeDefinition

variable {mode after : ModeDefinition} {contained : Bool}

/-! ### Settled modes -/

/-- A mode with one way to give its scope and bounds: the scope is a name, and the patterns are single
ones under their own names. -/
structure Settled (mode : ModeDefinition) : Prop where
  className : mode.className = none
  matching : mode.matching = none
  scope : ∀ scopes, mode.scope ≠ some (.captures scopes)
  begins : ∀ parts, mode.begins ≠ some (.sequence parts)
  ends : ∀ parts, mode.ends ≠ some (.sequence parts)

theorem className_withClassName (mode : ModeDefinition) : mode.withClassName.className = none := by
  unfold withClassName
  split
  · rfl
  · assumption

theorem matching_withMatching (matched : mode.withMatching = .ok after) :
    after.matching = none ∧ after.className = mode.className := by
  unfold withMatching at matched
  split at matched
  · split at matched
    · cases matched
    · obtain rfl := Except.ok.inj matched
      exact ⟨rfl, rfl⟩
  · obtain rfl := Except.ok.inj matched
    exact ⟨by assumption, rfl⟩

theorem scope_withCaptureScope (mode : ModeDefinition) :
    (∀ scopes, mode.withCaptureScope.scope ≠ some (.captures scopes)) ∧
      mode.withCaptureScope.className = mode.className ∧
      mode.withCaptureScope.matching = mode.matching := by
  unfold withCaptureScope
  split
  · exact ⟨nofun, rfl, rfl⟩
  · exact ⟨by assumption, rfl, rfl⟩

theorem begins_withBeginParts (joined : mode.withBeginParts = .ok after) :
    (∀ parts, after.begins ≠ some (.sequence parts)) ∧ after.scope = mode.scope ∧
      after.className = mode.className ∧ after.matching = mode.matching := by
  unfold withBeginParts at joined
  split at joined
  · split at joined
    · cases joined
    · split at joined
      · cases joined
      · obtain rfl := Except.ok.inj joined
        exact ⟨nofun, rfl, rfl, rfl⟩
  · obtain rfl := Except.ok.inj joined
    exact ⟨by assumption, rfl, rfl, rfl⟩

theorem ends_withEndParts (joined : mode.withEndParts = .ok after) :
    (∀ parts, after.ends ≠ some (.sequence parts)) ∧ after.begins = mode.begins ∧
      after.scope = mode.scope ∧ after.className = mode.className ∧
      after.matching = mode.matching := by
  unfold withEndParts at joined
  split at joined
  · split at joined
    · cases joined
    · split at joined
      · cases joined
      · obtain rfl := Except.ok.inj joined
        exact ⟨nofun, rfl, rfl, rfl, rfl⟩
  · obtain rfl := Except.ok.inj joined
    exact ⟨by assumption, rfl, rfl, rfl, rfl⟩

theorem settled_of_settle (settles : mode.settle = .ok after) : after.Settled := by
  obtain ⟨matched, begun, matching, begins, ends⟩ := settle_eq_ok.mp settles
  have unnamed := className_withClassName mode
  obtain ⟨unmatched, matchedName⟩ := matching_withMatching matching
  obtain ⟨single, scopeName, scopeMatching⟩ := scope_withCaptureScope matched
  obtain ⟨beginsOnce, begunScope, begunName, begunMatching⟩ := begins_withBeginParts begins
  obtain ⟨endsOnce, sameBegins, sameScope, sameName, sameMatching⟩ := ends_withEndParts ends
  exact {
    className := by rw [sameName, begunName, scopeName, matchedName, unnamed]
    matching := by rw [sameMatching, begunMatching, scopeMatching, unmatched]
    scope := by rwa [sameScope, begunScope]
    begins := by rwa [sameBegins]
    ends := endsOnce }

theorem Settled.settle (settled : mode.Settled) : mode.settle = .ok mode := by
  have named : mode.withClassName = mode := by
    unfold withClassName
    rw [settled.className]
  have matched : mode.withMatching = .ok mode := by
    unfold withMatching
    rw [settled.matching]
  have scoped_ : mode.withCaptureScope = mode := by
    unfold withCaptureScope
    split
    · exact absurd (by assumption) (settled.scope _)
    · rfl
  have begun : mode.withBeginParts = .ok mode := by
    unfold withBeginParts
    split
    · exact absurd (by assumption) (settled.begins _)
    · rfl
  have ended : mode.withEndParts = .ok mode := by
    unfold withEndParts
    split
    · exact absurd (by assumption) (settled.ends _)
    · rfl
  rw [settle_eq_ok, named]
  exact ⟨mode, mode, matched, by rw [scoped_, begun], ended⟩

/-- To settle a mode beforehand makes no difference. -/
theorem settle_then_normalize (mode : ModeDefinition) (contained : Bool)
    (extensions : List (ModeDefinition → ModeDefinition)) :
    (mode.settle >>= fun settled => settled.normalize contained extensions) =
      mode.normalize contained extensions := by
  rw [normalize_eq_settle]
  cases settles : mode.settle with
  | error failure => rfl
  | ok settled =>
      rw [ok_bind, ok_bind, normalize_eq_settle, (settled_of_settle settles).settle, ok_bind]

/-! ### Modes without shorthand -/

/-- A mode in which no shorthand is left; words that begin it may be left where no mode contains it. -/
structure Plain (contained : Bool) (mode : ModeDefinition) : Prop extends mode.Settled where
  beforeMatch : mode.beforeMatch = none
  illegal : ∀ alternatives, mode.illegal ≠ some (.sequence alternatives)
  relevance : mode.relevance.isSome = true
  beginKeywords : contained = true → mode.beginKeywords = none

theorem withBeforeMatch_settled (settled : mode.Settled) (moved : mode.withBeforeMatch = .ok after) :
    after.Settled ∧ after.beforeMatch = none := by
  unfold withBeforeMatch at moved
  split at moved
  · obtain rfl := Except.ok.inj moved
    exact ⟨settled, by assumption⟩
  · split at moved
    · cases moved
    · obtain rfl := Except.ok.inj moved
      exact ⟨⟨rfl, rfl, nofun, nofun, nofun⟩, rfl⟩

theorem withBeginKeywords_settled (settled : mode.Settled) :
    mode.withBeginKeywords.Settled ∧ mode.withBeginKeywords.beginKeywords = none := by
  unfold withBeginKeywords
  split
  · exact ⟨⟨settled.className, settled.matching, settled.scope, nofun, settled.ends⟩, rfl⟩
  · exact ⟨settled, by assumption⟩

theorem illegal_withIllegalChoice (mode : ModeDefinition) (alternatives : List String) :
    mode.withIllegalChoice.illegal ≠ some (.sequence alternatives) := by
  unfold withIllegalChoice
  split
  · nofun
  · rename_i single
    exact single alternatives

theorem plain_withIllegalChoice (settled : mode.Settled) (first : mode.beforeMatch = none)
    (words : contained = true → mode.beginKeywords = none) :
    mode.withIllegalChoice.withDefaultRelevance.Plain contained := by
  have same : mode.withIllegalChoice = { mode with illegal := mode.withIllegalChoice.illegal } := by
    obtain ⟨_⟩ := mode
    unfold withIllegalChoice
    split <;> rfl
  have single := illegal_withIllegalChoice mode
  rw [same] at single ⊢
  exact {
    className := settled.className
    matching := settled.matching
    scope := settled.scope
    begins := settled.begins
    ends := settled.ends
    beforeMatch := first
    illegal := single
    relevance := by
      unfold withDefaultRelevance
      cases mode.relevance <;> rfl
    beginKeywords := words }

theorem plain_complete (settled : mode.Settled) (first : mode.beforeMatch = none) :
    (mode.complete contained []).Plain contained := by
  have cleared : ({ mode with beforeBegin := none } : ModeDefinition).Settled :=
    ⟨settled.className, settled.matching, settled.scope, settled.begins, settled.ends⟩
  cases contained with
  | false => exact plain_withIllegalChoice cleared first nofun
  | true =>
      obtain ⟨worded, words⟩ := withBeginKeywords_settled cleared
      have same := withBeginKeywords_sameWithin { mode with beforeBegin := none }
      exact plain_withIllegalChoice worded (same.beforeMatch.trans first) fun _ => words

theorem plain_of_normalize (normalized : mode.normalize contained [] = .ok after) :
    after.Plain contained := by
  obtain ⟨settled, moved, settles, moves, rfl⟩ := normalize_eq_ok normalized
  obtain ⟨still, first⟩ := withBeforeMatch_settled (settled_of_settle settles) moves
  exact plain_complete still first

/-! ### Modes behind another match -/

/-- The mode as it stands behind another match: it is begun by the match alone, and with it ends the mode
for what stands before. -/
def detached (mode : ModeDefinition) : ModeDefinition :=
  { mode with beforeMatch := none, flags.endsParent := true }

theorem Settled.detached (settled : mode.Settled) : mode.detached.Settled :=
  ⟨settled.className, settled.matching, settled.scope, settled.begins, settled.ends⟩

theorem withClassName_detached (mode : ModeDefinition) :
    mode.detached.withClassName = mode.withClassName.detached := by
  obtain ⟨_, className⟩ := mode
  cases className <;> rfl

theorem withMatching_detached (mode : ModeDefinition) :
    mode.detached.withMatching = mode.withMatching.map detached := by
  unfold withMatching
  have same : mode.detached.matching = mode.matching := rfl
  rw [same]
  cases mode.matching with
  | none => rfl
  | some source =>
      have bounds : (mode.detached.begins.isSome || mode.detached.ends.isSome) =
          (mode.begins.isSome || mode.ends.isSome) := rfl
      dsimp only
      rw [bounds]
      split <;> rfl

theorem withCaptureScope_detached (mode : ModeDefinition) :
    mode.detached.withCaptureScope = mode.withCaptureScope.detached := by
  obtain ⟨scope, _⟩ := mode
  rcases scope with _ | ⟨_ | _⟩ <;> rfl

theorem withBeginParts_detached (mode : ModeDefinition) :
    mode.detached.withBeginParts = mode.withBeginParts.map detached := by
  unfold withBeginParts
  have same : mode.detached.begins = mode.begins := rfl
  rw [same]
  rcases mode.begins with _ | ⟨source | parts⟩
  · rfl
  · rfl
  · have flags : (mode.detached.flags.skip || mode.detached.flags.excludeBegin ||
        mode.detached.flags.returnBegin) =
          (mode.flags.skip || mode.flags.excludeBegin || mode.flags.returnBegin) := rfl
    have scopes : mode.detached.beginScope = mode.beginScope := rfl
    dsimp only
    rw [flags, scopes]
    split
    · rfl
    · split <;> rfl

theorem withEndParts_detached (mode : ModeDefinition) :
    mode.detached.withEndParts = mode.withEndParts.map detached := by
  unfold withEndParts
  have same : mode.detached.ends = mode.ends := rfl
  rw [same]
  rcases mode.ends with _ | ⟨source | parts⟩
  · rfl
  · rfl
  · have flags : (mode.detached.flags.skip || mode.detached.flags.excludeEnd ||
        mode.detached.flags.returnEnd) =
          (mode.flags.skip || mode.flags.excludeEnd || mode.flags.returnEnd) := rfl
    have scopes : mode.detached.endScope = mode.endScope := rfl
    dsimp only
    rw [flags, scopes]
    split
    · rfl
    · split <;> rfl

theorem settle_detached (mode : ModeDefinition) :
    mode.detached.settle = mode.settle.map detached := by
  unfold settle
  rw [withClassName_detached, withMatching_detached]
  cases mode.withClassName.withMatching with
  | error failure => rfl
  | ok matched =>
      rw [Except.map, ok_bind, ok_bind, withCaptureScope_detached, withBeginParts_detached]
      cases matched.withCaptureScope.withBeginParts with
      | error failure => rfl
      | ok begun =>
          rw [Except.map, ok_bind, ok_bind]
          exact withEndParts_detached begun

theorem normalize_of_settled (settled : mode.Settled) (first : mode.beforeMatch = none)
    (contained : Bool) (extensions : List (ModeDefinition → ModeDefinition)) :
    mode.normalize contained extensions = .ok (mode.complete contained extensions) := by
  have stays : mode.withBeforeMatch = .ok mode := by
    unfold withBeforeMatch
    rw [first]
  rw [normalize_eq_settle, settled.settle, ok_bind, stays]
  rfl

/-- A mode that fails to settle does so whether it is moved or not. -/
theorem normalize_of_settle_error {failure : DefinitionError} (failed : mode.settle = .error failure)
    (contained : Bool) :
    mode.normalize contained [] = .error failure ∧
      mode.detached.normalize true [] = .error failure := by
  rw [normalize_eq_settle, normalize_eq_settle, settle_detached, failed]
  exact ⟨rfl, rfl⟩

/-- The mode that is moved has been settled already, and comes out as the original would. -/
theorem normalize_of_settle_ok {settled : ModeDefinition} (settles : mode.settle = .ok settled)
    (before : mode.beforeMatch.isSome = true) (free : mode.starts = none) (contained : Bool) :
    (∃ normal, mode.normalize contained [] = .ok normal ∧
      normal.starts = some { relevance := some 0, contains := [.inline settled.detached] }) ∧
      settled.detached.normalize true [] = .ok (settled.detached.complete true []) ∧
      mode.detached.normalize true [] = .ok (settled.detached.complete true []) := by
  have same := settle_sameWithin settles
  have itself := (settled_of_settle settles).detached
  refine ⟨?_, normalize_of_settled itself rfl true [], ?_⟩
  · obtain ⟨moved, moves, starts⟩ : ∃ moved, settled.withBeforeMatch = .ok moved ∧
        moved.starts = some { relevance := some 0, contains := [.inline settled.detached] } := by
      have worded : settled.beforeMatch.isSome = true := same.beforeMatch ▸ before
      have alone : settled.starts.isSome = false := by rw [same.starts, free]; rfl
      unfold withBeforeMatch
      split
      · rename_i nothing
        rw [nothing] at worded
        cases worded
      · rw [alone]
        exact ⟨_, rfl, rfl⟩
    have normalizes : mode.normalize contained [] = .ok (moved.complete contained []) := by
      rw [normalize_eq_settle, settles, ok_bind, moves]
      rfl
    exact ⟨_, normalizes, (complete_sameWithin moved contained).starts.trans starts⟩
  · have detachedSettles : mode.detached.settle = .ok settled.detached := by
      rw [settle_detached, settles]
      rfl
    rw [← settle_then_normalize, detachedSettles]
    exact normalize_of_settled itself rfl true []

theorem starts_of_normalize (normalized : mode.normalize contained [] = .ok after)
    (before : mode.beforeMatch.isSome = true) : mode.starts = none := by
  obtain ⟨settled, moved, settles, moves, -⟩ := normalize_eq_ok normalized
  have same := settle_sameWithin settles
  unfold withBeforeMatch at moves
  split at moves
  · rename_i nothing
    rw [← same.beforeMatch, nothing] at before
    cases before
  · split at moves
    · cases moves
    · rename_i free
      rw [← same.starts]
      simpa using free

/-- What comes out has no shorthand left, and to settle a mode once more beforehand makes no difference.
So a mode that stands behind another match is what it would be without that match, as a mode that ends
its parent, or fails as that would. -/
theorem normalize_settles (mode : ModeDefinition) (contained : Bool) :
    (∀ normal, mode.normalize contained [] = .ok normal → normal.Plain contained) ∧
    (mode.settle >>= fun settled => settled.normalize contained []) = mode.normalize contained [] ∧
    (mode.beforeMatch.isSome = true → mode.starts = none →
      (∃ normal inner itself, mode.normalize contained [] = .ok normal ∧
        normal.starts = some { relevance := some 0, contains := [.inline inner] } ∧
        inner.normalize true [] = .ok itself ∧ mode.detached.normalize true [] = .ok itself) ∨
      ∃ failure, mode.normalize contained [] = .error failure ∧
        mode.detached.normalize true [] = .error failure) := by
  refine ⟨fun normal => plain_of_normalize, settle_then_normalize mode contained [], ?_⟩
  intro before free
  cases settles : mode.settle with
  | error failure => exact .inr ⟨failure, normalize_of_settle_error settles contained⟩
  | ok settled =>
      obtain ⟨⟨normal, normalizes, starts⟩, inner, original⟩ :=
        normalize_of_settle_ok settles before free contained
      exact .inl ⟨normal, _, _, normalizes, starts, inner, original⟩

def abridged : ModeDefinition where
  scope := some (.captures (Dictionary.ofList [("2", "name")]))
  matching := some (.sequence ["fn", "\\w+"])
  illegal := some (.sequence ["<", ">"])
  beforeMatch := some "@"

/-- The parts of its pattern are joined before it is moved, and not once more when its turn comes. -/
theorem normalize_settles_abridged : ∃ normal inner itself,
    abridged.normalize true [] = .ok normal ∧
      normal.begins = some (.one "@(?=(fn)(\\w+))") ∧ normal.Plain true ∧
      normal.starts = some { relevance := some 0, contains := [.inline inner] } ∧
      inner.normalize true [] = .ok itself ∧ itself.begins = some (.one "(fn)(\\w+)") ∧
      itself.beginGroups = some [1, 2] ∧ abridged.detached.normalize true [] = .ok itself := by
  obtain ⟨plain, _, behind⟩ := normalize_settles abridged true
  have begins : (abridged.normalize true []).toOption.any (fun normal =>
      decide (normal.begins = some (.one "@(?=(fn)(\\w+))"))) = true := by
    decide +kernel
  have inside : (abridged.detached.normalize true []).toOption.any (fun itself =>
      decide (itself.begins = some (.one "(fn)(\\w+)") ∧ itself.beginGroups = some [1, 2])) = true := by
    decide +kernel
  obtain ⟨normal, normalizes, joined⟩ := exists_of_any begins
  obtain ⟨itself, original, parts, groups⟩ := exists_of_any inside
  rcases behind rfl rfl with ⟨_, inner, _, same, starts, innerSame, sameItself⟩ | ⟨_, failed, _⟩
  · obtain rfl := Except.ok.inj (same.symm.trans normalizes)
    obtain rfl := Except.ok.inj (sameItself.symm.trans original)
    exact ⟨_, inner, _, normalizes, joined, plain _ normalizes, starts, innerSame, parts, groups,
      original⟩
  · rw [normalizes] at failed
    cases failed

end ModeDefinition

end Highlight
