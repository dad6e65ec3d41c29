import Highlight.Proofs.Scan.Returning
import Highlight.Proofs.Scan.Stopping

set_option autoImplicit false

/-! Matches whose groups are given scopes where a mode begins. The groups, and what stands between them, are
put into the tree as the text of the match, and the buffer is emptied for it without a look at what it
holds. So the text is kept where the match alone is in the buffer; what else is in there is lost, and a match
that is in the tree by then comes into it once more. -/

namespace Highlight

open Outcome

namespace Ledger

variable {scopes : List (Nat × Option String)} {lexeme : String} (ledger : Ledger)

/-- Whether a begin match whose groups are given scopes is there once, and nothing else is lost for it. -/
def KeepsBegin (flags : ModeFlags) (lexeme : String) : Prop :=
  if flags.skip = true then ledger.buffer = "" else flags.excludeBegin = true → lexeme = ""

/-- Whether an end match is there once, and nothing else is lost for it, where its groups are given scopes
as those of a begin match of the mode that follows. -/
def KeepsEnd (mode : Mode) (lexeme : String) : Prop :=
  if mode.endScope = none ∧ mode.flags.skip = true then ledger.buffer = ""
  else lexeme = "" ∨ mode.endScope = none ∧ mode.flags.excludeEnd = true

/-- What stands in the buffer is lost to a match that is put behind the tree. -/
theorem tree_append_eq_iff : ledger.tree ++ lexeme = ledger.text ++ lexeme ↔ ledger.buffer = "" := by
  rw [String.append_left_inj, eq_comm]
  exact String.append_eq_left_iff

theorem start_placeBegin_groups {flags : ModeFlags} (keeps : flags.returnBegin = false) :
    ((ledger.placeBegin flags lexeme).start (some (.groups scopes)) lexeme).text =
        ledger.text ++ lexeme ↔ ledger.KeepsBegin flags lexeme := by
  unfold placeBegin KeepsBegin
  rw [text_start_groups _ rfl]
  cases skip : flags.skip with
  | true => exact ledger.tree_append_eq_iff
  | false =>
      cases exclude : flags.excludeBegin with
      | true => simp [flush]
      | false => simp [flush, hold, keeps]

theorem start_placeEnd_groups {mode : Mode} (keeps : mode.flags.returnEnd = false) :
    ((ledger.placeEnd mode lexeme).start (some (.groups scopes)) lexeme).text =
        ledger.text ++ lexeme ↔ ledger.KeepsEnd mode lexeme := by
  unfold placeEnd KeepsEnd
  rw [text_start_groups _ rfl]
  cases shape : mode.endScope with
  | some emission =>
      change (ledger.flush.hold lexeme).text ++ lexeme = _ ↔ _
      simp
  | none =>
      cases skip : mode.flags.skip with
      | true => exact ledger.tree_append_eq_iff
      | false =>
          cases exclude : mode.flags.excludeEnd with
          | true => simp [flush, hold]
          | false => simp [flush, keeps]

end Ledger

namespace ScanContext

variable {context : ScanContext} {state : ScanState} {found : Pattern.RuleMatch}

theorem Stays.exists_ok {α : Type} {text : Text} {held : α → Prop} {outcome : Except Halt α}
    (stays : Stays text held outcome) (only : Partial outcome) : ∃ value, outcome = .ok value := by
  cases outcome with
  | error halt =>
      obtain rfl := only.fails halt rfl
      exact absurd (stays.fails _ rfl) id
  | ok value => exact ⟨value, rfl⟩

/-- A mode is turned on whenever the groups that its match is split up by are enclosed in the match. -/
theorem exists_startMode (lawful : context.grammar.Lawful) {place origin : Nat}
    (lies : found.Lies context.text origin)
    (encloses : ∀ scopes, (context.grammar.mode place).beginScope = some (.groups scopes) →
      found.Encloses scopes) (data : HookData) (state : ScanState) :
    ∃ after, context.startMode place found data state = .ok after := by
  unfold startMode
  extract_lets mode opened
  split
  · exact ⟨_, rfl⟩
  · rename_i scopes shape
    have stays : Stays context.text (fun _ => True)
        (context.emitGroups found scopes found.start opened) :=
      emitGroups_inText lawful lies (encloses scopes shape) (Nat.le_refl _) lies.order
    obtain ⟨emitted, emits⟩ := Stays.exists_ok stays (emitGroups_partial context _ _ _ _)
    rw [emits]
    exact ⟨_, rfl⟩
  · exact ⟨_, rfl⟩

theorem Meets.parts (lawful : context.grammar.Lawful) (meets : context.Meets state found) :
    ∃ skipped lexeme, context.text.part state.position found.start = .ok skipped ∧
      context.text.part found.start found.stop = .ok lexeme := by
  have lies := meets.sights.lies lawful
  exact ⟨_, _, Text.part_eq_ok_iff.mpr ⟨⟨lies.start, Nat.le_trans lies.order lies.stop⟩, rfl⟩,
    Text.part_eq_ok_iff.mpr ⟨⟨lies.order, lies.stop⟩, rfl⟩⟩

/-- A round in which a mode begins stops only where the text of the match cannot be placed. -/
theorem BeginsMode.halts (lawful : context.grammar.Lawful) {place : Nat} {data : HookData}
    (begins : context.BeginsMode state found place data)
    (encloses : ∀ scopes, (context.grammar.mode place).beginScope = some (.groups scopes) →
      found.Encloses scopes) {skipped lexeme : String}
    (before : context.text.part state.position found.start = .ok skipped)
    (matched : context.text.part found.start found.stop = .ok lexeme) {halt : Halt}
    (halts : context.step state = .error halt) :
    context.placeBeginLexeme (context.grammar.mode place).flags lexeme (arrive found skipped state) =
      .error halt := by
  rw [begins.step, before, matched, ok_bind, ok_bind] at halts
  rcases bind_eq_error.mp halts with unplaced | ⟨placed, _, halts⟩
  · exact unplaced
  · obtain ⟨started, starts⟩ := exists_startMode lawful (begins.sights.lies lawful) encloses data
      placed
    rw [starts] at halts
    cases halts

theorem EndsModes.halts (lawful : context.grammar.Lawful) {count : Nat} {frames : List Frame}
    (ends : context.EndsModes state found count frames)
    (encloses : ∀ next scopes, (context.outermost count frames).starts = some next →
      (context.grammar.mode next).beginScope = some (.groups scopes) → found.Encloses scopes)
    {skipped lexeme : String}
    (before : context.text.part state.position found.start = .ok skipped)
    (matched : context.text.part found.start found.stop = .ok lexeme) {halt : Halt}
    (halts : context.step state = .error halt) :
    context.placeEndLexeme (context.topMode state) found lexeme
      { arrive found skipped state with stack := ⟨frames⟩ } = .error halt := by
  rw [ends.step, before, matched, ok_bind, ok_bind] at halts
  rcases bind_eq_error.mp halts with unplaced | ⟨placed, _, halts⟩
  · exact unplaced
  · cases follows : (context.outermost count frames).starts with
    | none =>
        rw [follows] at halts
        cases halts
    | some next =>
        obtain ⟨started, starts⟩ := exists_startMode lawful (ends.sights.lies lawful)
          (encloses next · follows) {} (context.leaveModes count placed)
        rw [follows, startNext, starts] at halts
        cases halts

/-- A mode that begins with groups of its match having scopes of their own, by its own match or in place of
modes that end, keeps the text of a match that is not given back just where the buffer holds what it should
at that point: where nothing but the match is in it, or, if the match is in the tree by then, where there is
nothing to come into it once more. If the groups end within the match, nothing stops such a round but that
the text before the match, or the end of a mode, cannot be put into the tree. -/
theorem step_regrouped (lawful : context.grammar.Lawful)
    (faithful : context.FaithfulIn state.stack.top) {scopes : List (Nat × Option String)}
    (encloses : found.Encloses scopes) :
    (∀ place data, context.BeginsMode state found place data →
      (context.grammar.mode place).flags.returnBegin = false →
      (context.grammar.mode place).beginScope = some (.groups scopes) →
      ∃ skipped lexeme, context.text.part state.position found.start = .ok skipped ∧
        context.text.part found.start found.stop = .ok lexeme ∧
        (∀ halt, context.step state = .error halt →
          context.placeBeginLexeme (context.grammar.mode place).flags lexeme
            (arrive found skipped state) = .error halt) ∧
        ∀ progress, context.step state = .ok progress → ∃ after, progress = .advance after ∧
          after.position = found.stop ∧
          (after.taken = state.taken ++ (skipped ++ lexeme) ↔
            (state.ledger.hold skipped).KeepsBegin (context.grammar.mode place).flags lexeme)) ∧
    ∀ count frames next, context.EndsModes state found count frames →
      (context.topMode state).flags.returnEnd = false →
      (context.outermost count frames).starts = some next →
      (context.grammar.mode next).beginScope = some (.groups scopes) →
      ∃ skipped lexeme, context.text.part state.position found.start = .ok skipped ∧
        context.text.part found.start found.stop = .ok lexeme ∧
        (∀ halt, context.step state = .error halt →
          context.placeEndLexeme (context.topMode state) found lexeme
            { arrive found skipped state with stack := ⟨frames⟩ } = .error halt) ∧
        ∀ progress, context.step state = .ok progress → ∃ after, progress = .advance after ∧
          after.position = found.stop ∧
          (after.taken = state.taken ++ (skipped ++ lexeme) ↔
            (state.ledger.hold skipped).KeepsEnd (context.topMode state) lexeme) := by
  constructor
  · intro place data begins keeps shape
    obtain ⟨skipped, lexeme, before, matched⟩ := begins.parts lawful
    refine ⟨skipped, lexeme, before, matched, fun halt => begins.halts lawful ?_ before matched, ?_⟩
    · intro others same
      obtain rfl : scopes = others := Emission.groups.inj (Option.some.inj (shape.symm.trans same))
      exact encloses
    · intro progress stepped
      obtain ⟨after, rfl, position, ledger⟩ := begins.ledger before matched faithful stepped
      rw [if_neg (Bool.eq_false_iff.mp keeps)] at position
      refine ⟨after, rfl, position, ?_⟩
      rw [ScanState.taken_eq, ScanState.taken_eq, ledger, shape, ← String.append_assoc,
        ← Ledger.text_hold]
      exact Ledger.start_placeBegin_groups _ keeps
  · intro count frames next ends keeps follows shape
    obtain ⟨skipped, lexeme, before, matched⟩ := ends.parts lawful
    refine ⟨skipped, lexeme, before, matched, fun halt => ends.halts lawful ?_ before matched, ?_⟩
    · intro other others same grouped
      obtain rfl : next = other := Option.some.inj (follows.symm.trans same)
      obtain rfl : scopes = others := Emission.groups.inj (Option.some.inj (shape.symm.trans grouped))
      exact encloses
    · intro progress stepped
      obtain ⟨after, rfl, position, ledger⟩ := ends.ledger before matched faithful stepped
      rw [if_neg (Bool.eq_false_iff.mp keeps)] at position
      refine ⟨after, rfl, position, ?_⟩
      rw [ScanState.taken_eq, ScanState.taken_eq, ledger, follows, Option.bind_some, shape,
        ← String.append_assoc, ← Ledger.text_hold]
      exact Ledger.start_placeEnd_groups _ keeps

/-- A grammar with one mode, from one letter to another, and a second mode that follows, both with scopes
for the groups of the match they begin with. -/
def grouping (flags : ModeFlags) : GrammarDefinition where
  root := { contains := [.inline {
    begins := some (.one "(a)")
    ends := some (.one "(b)")
    beginScope := some (.captures (Dictionary.ofList [("1", "x")]))
    flags
    starts := some {
      ends := some (.one "c")
      beginScope := some (.captures (Dictionary.ofList [("1", "y")])) } }] }

theorem encloses_whole (rule : Pattern.Rule) (start stop : Nat) (scope : String) :
    (⟨rule, start, stop, #[some ⟨start, stop⟩, some ⟨start, stop⟩]⟩ : Pattern.RuleMatch).Encloses
      [(1, some scope)] := by
  intro entry member span spanned _
  obtain rfl := List.mem_singleton.mp member
  obtain rfl := Option.some.inj spanned
  exact Nat.le_refl stop

theorem step_regrouped_grouping : ∃ grammar begun ended,
    Grammar.compile Pattern.engine.confined "a" (grouping { excludeEnd := true }) = .ok grammar ∧
    (alone grammar "cab").step {} = .ok (.advance begun) ∧ begun.position = 2 ∧ begun.taken = "ca" ∧
    (alone grammar "acb").step amidst = .ok (.advance ended) ∧ ended.position = 3 ∧
      ended.taken = "cb" := by
  have answers : (Grammar.compile Pattern.engine.confined "a"
      (grouping { excludeEnd := true })).toOption.any (fun grammar => decide (
        (alone grammar "cab").BeginsMode {}
          ⟨.begins 1, 1, 2, #[some ⟨1, 2⟩, some ⟨1, 2⟩]⟩ 1 {} ∧
        (alone grammar "acb").EndsModes amidst
          ⟨.ends, 2, 3, #[some ⟨2, 3⟩, some ⟨2, 3⟩]⟩ 1 [{ mode := 1 }] ∧
        ((alone grammar "cab").advanced? {}).isSome = true ∧
        ((alone grammar "acb").advanced? amidst).isSome = true ∧
        (grammar.mode 0).subLanguage.isNone = true ∧ (grammar.mode 1).subLanguage.isNone = true ∧
        (grammar.mode 1).flags = { excludeEnd := true } ∧ (grammar.mode 1).endScope.isNone = true ∧
        (grammar.mode 1).beginScope = some (.groups [(1, some "x")]) ∧
        (grammar.mode 1).starts = some 2 ∧
        (grammar.mode 2).beginScope = some (.groups [(1, some "y")]))) = true := by decide +kernel
  obtain ⟨grammar, compiled, begins, ends, begun, ended, outer, inner, flags, endScope, beginScope,
    starts, nextScope⟩ := exists_of_any answers
  rw [Option.isNone_iff_eq_none] at outer inner endScope
  obtain ⟨begun, advanced⟩ := Option.isSome_iff_exists.mp begun
  obtain ⟨ended, left⟩ := Option.isSome_iff_exists.mp ended
  have lawful := (Grammar.lawful_of_compile Pattern.engine.confined_lawful compiled).1
  have beginStep := step_of_advanced? advanced
  have endStep := step_of_advanced? left
  have outerFaithful : (alone grammar "cab").FaithfulIn ({} : ScanState).stack.top :=
    faithfulIn_of_subLanguage_none outer
  have innerFaithful : (alone grammar "acb").FaithfulIn amidst.stack.top :=
    faithfulIn_of_subLanguage_none inner
  obtain ⟨skipped, lexeme, before, matched, _, gives⟩ :=
    (step_regrouped lawful outerFaithful (encloses_whole (.begins 1) 1 2 "x")).1 1 {} begins
      (congrArg ModeFlags.returnBegin flags) beginScope
  obtain ⟨_, same, beginPosition, beginTaken⟩ := gives _ beginStep
  obtain rfl := Progress.advance.inj same
  obtain ⟨passed, lexeme', ahead, matched', _, gives'⟩ :=
    (step_regrouped lawful innerFaithful (encloses_whole .ends 2 3 "y")).2 1 _ 2 ends
      (congrArg ModeFlags.returnEnd flags) starts nextScope
  obtain ⟨_, same, endPosition, endTaken⟩ := gives' _ endStep
  obtain rfl := Progress.advance.inj same
  obtain rfl : "c" = skipped := Except.ok.inj before
  obtain rfl : "a" = lexeme := Except.ok.inj matched
  obtain rfl : "c" = passed := Except.ok.inj ahead
  obtain rfl : "b" = lexeme' := Except.ok.inj matched'
  have beginKeeps : (({} : ScanState).ledger.hold "c").KeepsBegin (grammar.mode 1).flags "a" := by
    rw [flags]
    exact fun excluded => nomatch excluded
  have endKeeps : (amidst.ledger.hold "c").KeepsEnd (grammar.mode 1) "b" := by
    unfold Ledger.KeepsEnd
    rw [flags, if_neg (by simp)]
    exact .inr ⟨endScope, rfl⟩
  exact ⟨grammar, begun, ended, compiled, beginStep, beginPosition, beginTaken.mpr beginKeeps,
    endStep, endPosition, endTaken.mpr endKeeps⟩

/-- What stands before a begin match is lost if the match is skipped. -/
theorem step_regrouped_skipped : ∃ grammar after,
    Grammar.compile Pattern.engine "a" (grouping { skip := true }) = .ok grammar ∧
    (alone grammar "cab").BeginsMode {} ⟨.begins 1, 1, 2, #[some ⟨1, 2⟩, some ⟨1, 2⟩]⟩ 1 {} ∧
    (grammar.mode 1).flags.returnBegin = false ∧
    (grammar.mode 1).beginScope = some (.groups [(1, some "x")]) ∧
    (alone grammar "cab").step {} = .ok (.advance after) ∧ after.position = 2 ∧
    after.taken = "a" ∧ ∃ between, (alone grammar "cab").text.part 0 2 = .ok between ∧
      after.taken ≠ ({} : ScanState).taken ++ between := by
  have answers : (Grammar.compile Pattern.engine "a" (grouping { skip := true })).toOption.any
      (fun grammar => decide (
        (alone grammar "cab").BeginsMode {} ⟨.begins 1, 1, 2, #[some ⟨1, 2⟩, some ⟨1, 2⟩]⟩ 1 {} ∧
        (grammar.mode 1).flags.returnBegin = false ∧
        (grammar.mode 1).beginScope = some (.groups [(1, some "x")]) ∧
        ((alone grammar "cab").advanced? {}).map (fun after => (after.position, after.taken)) =
          some (2, "a"))) = true := by decide +kernel
  obtain ⟨grammar, compiled, begins, keeps, shape, advanced⟩ := exists_of_any answers
  obtain ⟨after, advanced, same⟩ := Option.map_eq_some_iff.mp advanced
  obtain ⟨position, taken⟩ := Prod.mk.inj same
  exact ⟨grammar, after, compiled, begins, keeps, shape, step_of_advanced? advanced, position, taken,
    "ca", rfl, taken ▸ by decide⟩

end ScanContext

end Highlight
