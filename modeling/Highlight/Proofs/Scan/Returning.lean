import Highlight.Proofs.Scan.Bounds
import Highlight.Proofs.Scan.Conservation
import Highlight.Proofs.Scan.Transitions

set_option autoImplicit false

/-! Matches that are given back. The scan goes on at the start of such a match and comes to its text once
more, so nothing of it should stand in the texts of the scan by then. Whether a match is given back is
asked in one place, behind what else a mode may do with it, and it is not asked again where groups are given
their scopes. -/

namespace Highlight

open Outcome

namespace Ledger

variable {emission : Option Emission} {lexeme : String} (ledger : Ledger)

theorem text_start_groups (grouped : emission.any Emission.isGroups = true) :
    (ledger.start emission lexeme).text = ledger.tree ++ lexeme := by
  rcases emission with _ | _ | _
  · cases grouped
  · cases grouped
  · exact String.append_empty

theorem text_start_of_not_groups (ungrouped : ¬ emission.any Emission.isGroups = true) :
    (ledger.start emission lexeme).text = ledger.text := by
  rcases emission with _ | _ | _
  · rfl
  · exact ledger.text_flush
  · exact absurd rfl ungrouped

/-- Whether nothing of a begin match that is given back stays behind. Where the match was skipped and its
groups are given scopes, it takes the place of what stood in the buffer. -/
def ClearsBegin (flags : ModeFlags) (emission : Option Emission) (lexeme : String) : Prop :=
  if flags.skip = true ∧ emission.any Emission.isGroups = true then lexeme = ledger.buffer
  else lexeme = "" ∨ flags.skip = false ∧ flags.excludeBegin = false ∧
    emission.any Emission.isGroups = false

/-- Whether nothing of an end match that is given back stays behind, when what is given begins in place of
the modes that end. -/
def ClearsEnd (mode : Mode) (emission : Option Emission) (lexeme : String) : Prop :=
  if emission.any Emission.isGroups = true then
    if mode.endScope = none ∧ mode.flags.skip = true then lexeme = ledger.buffer else lexeme = ""
  else lexeme = "" ∨ mode.endScope = none ∧ mode.flags.skip = false ∧ mode.flags.excludeEnd = false

theorem start_placeBegin_returned {flags : ModeFlags} (returns : flags.returnBegin = true) :
    ((ledger.placeBegin flags lexeme).start emission lexeme).text = ledger.text ↔
      ledger.ClearsBegin flags emission lexeme := by
  unfold placeBegin ClearsBegin
  by_cases grouped : emission.any Emission.isGroups = true
  · rw [text_start_groups _ grouped]
    cases skip : flags.skip with
    | true => simp [hold, text, grouped]
    | false =>
        cases exclude : flags.excludeBegin <;> simp [flush, grouped, returns, String.append_assoc]
  · rw [text_start_of_not_groups _ grouped]
    cases skip : flags.skip with
    | true => simp [grouped]
    | false => cases exclude : flags.excludeBegin <;> simp [grouped, returns]

theorem start_placeEnd_returned {mode : Mode} (returns : mode.flags.returnEnd = true) :
    ((ledger.placeEnd mode lexeme).start emission lexeme).text = ledger.text ↔
      ledger.ClearsEnd mode emission lexeme := by
  unfold placeEnd ClearsEnd
  by_cases grouped : emission.any Emission.isGroups = true
  · rw [text_start_groups _ grouped, if_pos grouped]
    cases shape : mode.endScope with
    | some emission =>
        -- the match is put into the tree twice
        change (ledger.flush.hold lexeme).text ++ lexeme = _ ↔ _
        simp [String.append_assoc]
    | none =>
        cases skip : mode.flags.skip with
        | true => simp [hold, text]
        | false => cases exclude : mode.flags.excludeEnd <;> simp [flush, hold, returns]
  · rw [text_start_of_not_groups _ grouped, if_neg grouped]
    cases shape : mode.endScope with
    | some emission => simp
    | none =>
        cases skip : mode.flags.skip with
        | true => simp
        | false => cases exclude : mode.flags.excludeEnd <;> simp [returns]

end Ledger

namespace ScanContext

variable {context : ScanContext} {state after : ScanState} {found : Pattern.RuleMatch}

/-- A match that is given back. The scan goes on where the match starts, and what has been gone through is
then just the text before it, unless the mode does something else with the match, too: skips or excludes
it, or gives its groups scopes, or has a scope for it as an end match, or starts a mode that gives its
groups scopes. -/
theorem step_returned (faithful : context.FaithfulIn state.stack.top)
    (stepped : context.step state = .ok (.advance after)) :
    (∀ place data, context.BeginsMode state found place data →
      (context.grammar.mode place).flags.returnBegin = true →
      after.position = found.start ∧ ∃ skipped lexeme,
        context.text.part state.position found.start = .ok skipped ∧
        context.text.part found.start found.stop = .ok lexeme ∧
        (after.taken = state.taken ++ skipped ↔
          (state.ledger.hold skipped).ClearsBegin (context.grammar.mode place).flags
            (context.grammar.mode place).beginScope lexeme)) ∧
    ∀ count frames, context.EndsModes state found count frames →
      (context.topMode state).flags.returnEnd = true →
      after.position = found.start ∧ ∃ skipped lexeme,
        context.text.part state.position found.start = .ok skipped ∧
        context.text.part found.start found.stop = .ok lexeme ∧
        (after.taken = state.taken ++ skipped ↔
          (state.ledger.hold skipped).ClearsEnd (context.topMode state)
            ((context.outermost count frames).starts.bind fun next =>
              (context.grammar.mode next).beginScope) lexeme) := by
  constructor
  · intro place data begins returns
    obtain ⟨skipped, lexeme, before, matched⟩ := begins.exists_parts stepped
    obtain ⟨_, same, position, ledger⟩ := begins.ledger before matched faithful stepped
    obtain rfl := Progress.advance.inj same
    rw [if_pos returns] at position
    refine ⟨position, skipped, lexeme, before, matched, ?_⟩
    rw [ScanState.taken_eq, ScanState.taken_eq, ledger, ← Ledger.text_hold]
    exact Ledger.start_placeBegin_returned _ returns
  · intro count frames ends returns
    obtain ⟨skipped, lexeme, before, matched⟩ := ends.exists_parts stepped
    obtain ⟨_, same, position, ledger⟩ := ends.ledger before matched faithful stepped
    obtain rfl := Progress.advance.inj same
    rw [if_pos returns] at position
    refine ⟨position, skipped, lexeme, before, matched, ?_⟩
    rw [ScanState.taken_eq, ScanState.taken_eq, ledger, ← Ledger.text_hold]
    exact Ledger.start_placeEnd_returned _ returns

def alone (grammar : Grammar) (text : String) : ScanContext :=
  Catalog.nestedContext {} 0 grammar text {}

def lettered (flags : ModeFlags) : GrammarDefinition where
  root := { contains := [.inline { begins := some (.one "a"), ends := some (.one "b"), flags }] }

/-- The state of a scan that stands in that mode, behind its first letter. -/
def amidst : ScanState :=
  { stack := ⟨[{ mode := 1 }]⟩, position := 1 }

theorem step_returned_lettered : ∃ grammar begun ended,
    Grammar.compile Pattern.engine "a" (lettered { returnBegin := true, returnEnd := true }) =
      .ok grammar ∧
    (alone grammar "cab").step {} = .ok (.advance begun) ∧ begun.position = 1 ∧ begun.taken = "c" ∧
    (alone grammar "acb").step amidst = .ok (.advance ended) ∧ ended.position = 2 ∧
      ended.taken = "c" := by
  have answers : (Grammar.compile Pattern.engine "a"
      (lettered { returnBegin := true, returnEnd := true })).toOption.any (fun grammar => decide (
        (alone grammar "cab").BeginsMode {} ⟨.begins 1, 1, 2, #[some ⟨1, 2⟩]⟩ 1 {} ∧
        (alone grammar "acb").EndsModes amidst ⟨.ends, 2, 3, #[some ⟨2, 3⟩]⟩ 1 [{ mode := 1 }] ∧
        ((alone grammar "cab").advanced? {}).isSome = true ∧
        ((alone grammar "acb").advanced? amidst).isSome = true ∧
        (grammar.mode 0).subLanguage.isNone = true ∧ (grammar.mode 1).subLanguage.isNone = true ∧
        (grammar.mode 1).flags = { returnBegin := true, returnEnd := true } ∧
        (grammar.mode 1).beginScope.isNone = true ∧ (grammar.mode 1).endScope.isNone = true ∧
        (grammar.mode 1).starts = none)) = true := by decide +kernel
  obtain ⟨grammar, compiled, begins, ends, begun, ended, outer, inner, flags, beginScope, endScope,
    starts⟩ := exists_of_any answers
  rw [Option.isNone_iff_eq_none] at outer inner beginScope endScope
  obtain ⟨begun, advanced⟩ := Option.isSome_iff_exists.mp begun
  obtain ⟨ended, left⟩ := Option.isSome_iff_exists.mp ended
  have beginStep := step_of_advanced? advanced
  have endStep := step_of_advanced? left
  obtain ⟨beginPosition, skipped, lexeme, before, _, beginTaken⟩ :=
    (step_returned (faithfulIn_of_subLanguage_none outer) beginStep).1 1 {} begins
      (congrArg ModeFlags.returnBegin flags)
  obtain ⟨endPosition, passed, lexeme', ahead, _, endTaken⟩ :=
    (step_returned (faithfulIn_of_subLanguage_none inner) endStep).2 1 _ ends
      (congrArg ModeFlags.returnEnd flags)
  obtain rfl : "c" = skipped := Except.ok.inj before
  obtain rfl : "c" = passed := Except.ok.inj ahead
  have beginClears : (({} : ScanState).ledger.hold "c").ClearsBegin (grammar.mode 1).flags
      (grammar.mode 1).beginScope lexeme := by
    rw [flags, beginScope]
    exact .inr ⟨rfl, rfl, rfl⟩
  have endClears : (amidst.ledger.hold "c").ClearsEnd (grammar.mode 1)
      ((grammar.mode 1).starts.bind fun next => (grammar.mode next).beginScope) lexeme' := by
    rw [starts]
    exact .inr ⟨endScope, congrArg ModeFlags.skip flags, congrArg ModeFlags.excludeEnd flags⟩
  exact ⟨grammar, begun, ended, compiled, beginStep, beginPosition, beginTaken.mpr beginClears,
    endStep, endPosition, endTaken.mpr endClears⟩

/-- A begin match that is excluded is put into the tree although it is given back. -/
theorem step_returned_excluded : ∃ grammar after,
    Grammar.compile Pattern.engine "a" (lettered { returnBegin := true, excludeBegin := true }) =
      .ok grammar ∧
    (alone grammar "ab").BeginsMode {} ⟨.begins 1, 0, 1, #[some ⟨0, 1⟩]⟩ 1 {} ∧
    (grammar.mode 1).flags.returnBegin = true ∧
    (alone grammar "ab").step {} = .ok (.advance after) ∧ after.position = 0 ∧
    after.taken = "a" ∧ ∃ skipped, (alone grammar "ab").text.part 0 0 = .ok skipped ∧
      after.taken ≠ ({} : ScanState).taken ++ skipped := by
  have answers : (Grammar.compile Pattern.engine "a"
      (lettered { returnBegin := true, excludeBegin := true })).toOption.any (fun grammar => decide (
        (alone grammar "ab").BeginsMode {} ⟨.begins 1, 0, 1, #[some ⟨0, 1⟩]⟩ 1 {} ∧
        (grammar.mode 1).flags.returnBegin = true ∧
        ((alone grammar "ab").advanced? {}).map (fun after => (after.position, after.taken)) =
          some (0, "a"))) = true := by decide +kernel
  obtain ⟨grammar, compiled, begins, returns, advanced⟩ := exists_of_any answers
  obtain ⟨after, advanced, same⟩ := Option.map_eq_some_iff.mp advanced
  obtain ⟨position, taken⟩ := Prod.mk.inj same
  exact ⟨grammar, after, compiled, begins, returns, step_of_advanced? advanced, position, taken, "",
    rfl, taken ▸ by decide⟩

end ScanContext

end Highlight
