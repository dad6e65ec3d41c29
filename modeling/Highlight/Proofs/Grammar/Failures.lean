import Highlight.Grammar.Compilation
import Highlight.Proofs.Outcome

set_option autoImplicit false

/-! What can be wrong with one mode. Whether there is room for all modes, and whether their compilation
ends, is no matter of any single one of them. -/

namespace Highlight

open Outcome

/-- A failure that is not one of the compilation as a whole. -/
def DefinitionError.OfOneMode (failure : DefinitionError) : Prop :=
  failure ≠ .tooManyModes ∧ ∀ name, failure ≠ .endlessShared name

abbrev FailsAlone {α : Type} (outcome : Except DefinitionError α) : Prop :=
  Satisfies DefinitionError.OfOneMode (fun _ => True) outcome

namespace ModeDefinition

variable (mode : ModeDefinition)

theorem withMatching_failsAlone : FailsAlone mode.withMatching := by
  unfold withMatching
  split
  · split
    · exact .error ⟨by simp, by simp⟩
    · exact .ok trivial
  · exact .ok trivial

theorem withBeginParts_failsAlone : FailsAlone mode.withBeginParts := by
  unfold withBeginParts
  split
  · split
    · exact .error ⟨by simp, by simp⟩
    · split
      · exact .error ⟨by simp, by simp⟩
      · exact .ok trivial
  · exact .ok trivial

theorem withEndParts_failsAlone : FailsAlone mode.withEndParts := by
  unfold withEndParts
  split
  · split
    · exact .error ⟨by simp, by simp⟩
    · split
      · exact .error ⟨by simp, by simp⟩
      · exact .ok trivial
  · exact .ok trivial

theorem withBeforeMatch_failsAlone : FailsAlone mode.withBeforeMatch := by
  unfold withBeforeMatch
  split
  · exact .ok trivial
  · split
    · exact .error ⟨by simp, by simp⟩
    · exact .ok trivial

theorem normalize_failsAlone (contained : Bool)
    (extensions : List (ModeDefinition → ModeDefinition)) :
    FailsAlone (mode.normalize contained extensions) :=
  (withMatching_failsAlone _).bind fun _ _ => (withBeginParts_failsAlone _).bind fun _ _ =>
    (withEndParts_failsAlone _).bind fun _ _ => (withBeforeMatch_failsAlone _).bind fun _ _ =>
      .ok trivial

end ModeDefinition

namespace KeywordTable

theorem addWords_failsAlone (ignoreCase : Bool) (className : String) (words : Dictionary Keyword)
    (texts : List String) : FailsAlone (addWords ignoreCase className words texts) := by
  refine Satisfies.foldlM fun words text => ?_
  have entryFails : FailsAlone (entry ignoreCase text) := by
    unfold entry
    dsimp only
    split
    · exact .ok trivial
    · split
      · exact .ok trivial
      · exact .error ⟨by simp, by simp⟩
  exact entryFails.bind fun _ _ => .ok trivial

theorem compile_failsAlone (engine : Pattern.Engine) (flags : Pattern.Flags)
    (keywords : KeywordSource) : FailsAlone (compile engine flags keywords) := by
  have collectFails : FailsAlone (collect flags.ignoreCase keywords) := by
    cases keywords with
    | words text => exact addWords_failsAlone _ _ _ _
    | list items => exact addWords_failsAlone _ _ _ _
    | classes classes =>
        refine Satisfies.foldlM fun words item => ?_
        dsimp only
        split
        · exact .ok trivial
        · exact addWords_failsAlone _ _ _ _
  refine collectFails.bind fun words _ => ?_
  dsimp only
  split
  · exact .ok trivial
  · exact .error ⟨by simp, by simp⟩

end KeywordTable

namespace Compilation

theorem Context.regex_failsAlone (context : Context) (source : String) :
    FailsAlone (context.regex source) := by
  unfold Context.regex
  cases context.engine context.flags source with
  | error failure => exact .error ⟨by simp, by simp⟩
  | ok regex => exact .ok trivial

theorem emission_failsAlone (parts : Option (List Nat)) (source : ScopeSource) :
    FailsAlone (emission parts source) := by
  cases source with
  | name scope => exact .ok trivial
  | captures scopes =>
      have indexed : FailsAlone (indexedScopes scopes) := by
        refine Satisfies.foldlM fun indexed item => ?_
        dsimp only
        split
        · exact .ok trivial
        · exact .error ⟨by simp, by simp⟩
      refine indexed.bind fun indexed _ => ?_
      split
      · exact .ok trivial
      · split
        · exact .error ⟨by simp, by simp⟩
        · exact .ok trivial

theorem ownPart_failsAlone (context : Context) (definition : ModeDefinition) (parent : Option Nat)
    (terminator : String) : FailsAlone (ownPart context definition parent terminator) := by
  have scopes (parts : Option (List Nat)) (source : Option ScopeSource) :
      FailsAlone (source.mapM (emission parts)) :=
    .optionMapM fun _ => emission_failsAlone _ _
  have patterns {α : Type} (sources : Option α) (source : α → String) :
      FailsAlone (sources.mapM fun item => context.regex (source item)) :=
    .optionMapM fun _ => context.regex_failsAlone _
  have keywords : FailsAlone
      (definition.keywords.mapM (KeywordTable.compile context.engine context.flags)) :=
    .optionMapM fun _ => KeywordTable.compile_failsAlone _ _ _
  exact keywords.bind fun _ _ => (patterns parent _).bind fun _ _ =>
    (patterns _ id).bind fun _ _ => (patterns _ id).bind fun _ _ =>
      (scopes _ _).bind fun _ _ => (scopes _ _).bind fun _ _ => .ok trivial

end Compilation

end Highlight
