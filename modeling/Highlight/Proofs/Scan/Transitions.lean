import Highlight.Proofs.Scan.Ledger

set_option autoImplicit false

/-! Accepted transitions. What a round finds and what the hooks say about it decide whether a mode begins or
modes end; from there on the round is a fixed sequence of moves, so that its two texts are those that come
of the moves of the ledger. -/

namespace Highlight

open Outcome

namespace ScanContext

def arrive (found : Pattern.RuleMatch) (skipped : String) (state : ScanState) : ScanState :=
  { state with
    rounds := state.rounds + 1
    buffer := state.buffer ++ skipped
    lastMatch := some (found.rule, found.start) }

variable (context : ScanContext)

/-- A round comes to a match and does something about it. -/
structure Meets (state : ScanState) (found : Pattern.RuleMatch) : Prop where
  sights : context.Sights state found
  inTime : context.tooManyRounds (state.rounds + 1) found.start = false
  fresh : repeatsLast found state = false

/-- A begin match is accepted, and the hooks leave some data for the mode. -/
structure BeginsMode (state : ScanState) (found : Pattern.RuleMatch) (place : Nat) (data : HookData) :
    Prop extends Meets context state found where
  rule : found.rule = .begins place
  accepted : runBeginHooks (context.hookMatch found)
    ((context.grammar.mode place).beforeBegin.toList ++ (context.grammar.mode place).onBegin.toList) {} =
      some data

/-- An end match is accepted, and so many modes end with it. -/
structure EndsModes (state : ScanState) (found : Pattern.RuleMatch) (count : Nat)
    (frames : List Frame) : Prop extends Meets context state found where
  rule : found.rule = .ends
  accepted : endingModes context.grammar (context.hookMatch found) state.stack.nested =
    (some count, frames)

def outermost (count : Nat) (frames : List Frame) : Mode :=
  context.grammar.mode (((frames[count - 1]?).map Frame.mode).getD Mode.root)

def startNext (next : Option Nat) (found : Pattern.RuleMatch) (state : ScanState) :
    Except Halt ScanState :=
  match next with
  | some next => context.startMode next found {} state
  | none => .ok state

/-- The state with which the scan goes on behind a round. -/
def advanced? (state : ScanState) : Option ScanState :=
  match context.step state with
  | .ok (.advance after) => some after
  | _ => none

variable {context} {state : ScanState} {found : Pattern.RuleMatch}

theorem step_of_advanced? {after : ScanState} (advanced : context.advanced? state = some after) :
    context.step state = .ok (.advance after) := by
  unfold advanced? at advanced
  split at advanced
  · rename_i stepped
    rw [stepped, Option.some.inj advanced]
  · cases advanced

instance : Decidable (context.Sights state found) :=
  decidable_of_iff ((context.grammar.matcher state.stack.top).toOption.bind (fun matcher =>
    matcher.find? context.text state.position) = some found) <| by
      constructor
      · intro sighted
        obtain ⟨matcher, compiled, sighted⟩ := Option.bind_eq_some_iff.mp sighted
        exact ⟨matcher, eq_ok_of_toOption compiled, sighted⟩
      · rintro ⟨matcher, compiled, sighted⟩
        rw [compiled]
        exact sighted

instance : Decidable (context.Meets state found) :=
  decidable_of_iff (context.Sights state found ∧
      context.tooManyRounds (state.rounds + 1) found.start = false ∧ repeatsLast found state = false)
    ⟨fun ⟨sights, inTime, fresh⟩ => ⟨sights, inTime, fresh⟩,
      fun meets => ⟨meets.sights, meets.inTime, meets.fresh⟩⟩

instance {place : Nat} {data : HookData} : Decidable (context.BeginsMode state found place data) :=
  decidable_of_iff (context.Meets state found ∧ found.rule = .begins place ∧
      runBeginHooks (context.hookMatch found) ((context.grammar.mode place).beforeBegin.toList ++
        (context.grammar.mode place).onBegin.toList) {} = some data)
    ⟨fun ⟨meets, rule, accepted⟩ => { meets with rule, accepted },
      fun begins => ⟨begins.toMeets, begins.rule, begins.accepted⟩⟩

instance {count : Nat} {frames : List Frame} :
    Decidable (context.EndsModes state found count frames) :=
  decidable_of_iff (context.Meets state found ∧ found.rule = .ends ∧
      endingModes context.grammar (context.hookMatch found) state.stack.nested = (some count, frames))
    ⟨fun ⟨meets, rule, accepted⟩ => { meets with rule, accepted },
      fun ends => ⟨ends.toMeets, ends.rule, ends.accepted⟩⟩

theorem Meets.step (meets : context.Meets state found) :
    context.step state = (do
      let skipped ← context.text.part state.position found.start
      let lexeme ← context.text.part found.start found.stop
      match found.rule with
      | .begins place => context.beginMode place found lexeme (arrive found skipped state)
      | .ends => context.endModes found lexeme (arrive found skipped state)
      | .illegal => context.meetIllegal found lexeme (arrive found skipped state)) := by
  obtain ⟨matcher, compiled, sighted⟩ := meets.sights
  have inTime : ¬ context.tooManyRounds (state.rounds + 1) found.start = true :=
    Bool.eq_false_iff.mp meets.inTime
  simp only [ScanContext.step, compiled, sighted]
  rw [if_neg inTime]
  have fresh : ∀ skipped, ¬ repeatsLast found
      { state with rounds := state.rounds + 1, buffer := state.buffer ++ skipped } = true :=
    fun _ => Bool.eq_false_iff.mp meets.fresh
  simp only [process, if_neg (fresh _)]
  rfl

theorem BeginsMode.step {place : Nat} {data : HookData}
    (begins : context.BeginsMode state found place data) :
    context.step state = (do
      let skipped ← context.text.part state.position found.start
      let lexeme ← context.text.part found.start found.stop
      let placed ← context.placeBeginLexeme (context.grammar.mode place).flags lexeme
        (arrive found skipped state)
      let started ← context.startMode place found data placed
      return .advance { started with
        position := if (context.grammar.mode place).flags.returnBegin then found.start
          else found.stop }) := by
  rw [begins.toMeets.step, begins.rule]
  simp only [beginMode, begins.accepted]

/-- The hooks that were asked leave the modes as they were. -/
theorem EndsModes.top {count : Nat} {frames : List Frame}
    (ends : context.EndsModes state found count frames) :
    (⟨frames⟩ : ModeStack).top = state.stack.top := by
  have modes := endingModes_modes context.grammar (context.hookMatch found) state.stack.nested
  rw [ends.accepted] at modes
  exact top_of_modes modes

theorem EndsModes.step {count : Nat} {frames : List Frame}
    (ends : context.EndsModes state found count frames) :
    context.step state = (do
      let skipped ← context.text.part state.position found.start
      let lexeme ← context.text.part found.start found.stop
      let placed ← context.placeEndLexeme (context.topMode state) found lexeme
        { arrive found skipped state with stack := ⟨frames⟩ }
      let started ← context.startNext (context.outermost count frames).starts found
        (context.leaveModes count placed)
      return .advance { started with
        position := if (context.topMode state).flags.returnEnd then found.start
          else found.stop }) := by
  have top : ∀ skipped, context.topMode { arrive found skipped state with stack := ⟨frames⟩ } =
      context.topMode state :=
    fun _ => congrArg context.grammar.mode ends.top
  rw [ends.toMeets.step, ends.rule]
  simp only [arrive] at top
  -- only when it is known whether a mode follows are both sides the same step by step
  cases follows : (context.outermost count frames).starts
  all_goals
    unfold outermost at follows
    simp only [endModes, arrive, ends.accepted, top, follows]
    rfl

theorem startNext_ledger {next : Option Nat} {lexeme : String} {after : ScanState}
    (matched : context.text.part found.start found.stop = .ok lexeme)
    (started : context.startNext next found state = .ok after) :
    after.ledger = state.ledger.start
      (next.bind fun next => (context.grammar.mode next).beginScope) lexeme := by
  cases next with
  | none =>
      obtain rfl := Except.ok.inj started
      rfl
  | some next => exact startMode_ledger matched started

theorem Meets.exists_parts (meets : context.Meets state found) {progress : Progress}
    (stepped : context.step state = .ok progress) :
    ∃ skipped lexeme, context.text.part state.position found.start = .ok skipped ∧
      context.text.part found.start found.stop = .ok lexeme := by
  rw [meets.step] at stepped
  obtain ⟨skipped, before, stepped⟩ := bind_eq_ok.mp stepped
  obtain ⟨lexeme, matched, _⟩ := bind_eq_ok.mp stepped
  exact ⟨skipped, lexeme, before, matched⟩

section

variable {skipped lexeme : String} {progress : Progress}
  (before : context.text.part state.position found.start = .ok skipped)
  (matched : context.text.part found.start found.stop = .ok lexeme)
  (faithful : context.FaithfulIn state.stack.top) (stepped : context.step state = .ok progress)

include before matched faithful stepped

theorem BeginsMode.ledger {place : Nat} {data : HookData}
    (begins : context.BeginsMode state found place data) :
    ∃ after, progress = .advance after ∧
      after.position = (if (context.grammar.mode place).flags.returnBegin then found.start
        else found.stop) ∧
      after.ledger = ((state.ledger.hold skipped).placeBegin (context.grammar.mode place).flags
        lexeme).start (context.grammar.mode place).beginScope lexeme := by
  rw [begins.step, before, matched, ok_bind, ok_bind] at stepped
  obtain ⟨placed, places, stepped⟩ := bind_eq_ok.mp stepped
  obtain ⟨started, starts, stepped⟩ := bind_eq_ok.mp stepped
  obtain rfl := pure_eq_ok.mp stepped
  have arrivedFaithful : context.FaithfulIn (arrive found skipped state).stack.top := faithful
  have placedLedger := placeBeginLexeme_ledger arrivedFaithful places
  have startedLedger := startMode_ledger matched starts
  rw [placedLedger] at startedLedger
  exact ⟨_, rfl, rfl, startedLedger⟩

theorem EndsModes.ledger {count : Nat} {frames : List Frame}
    (ends : context.EndsModes state found count frames) :
    ∃ after, progress = .advance after ∧
      after.position = (if (context.topMode state).flags.returnEnd then found.start
        else found.stop) ∧
      after.ledger = ((state.ledger.hold skipped).placeEnd (context.topMode state) lexeme).start
        ((context.outermost count frames).starts.bind fun next =>
          (context.grammar.mode next).beginScope) lexeme := by
  rw [ends.step, before, matched, ok_bind, ok_bind] at stepped
  obtain ⟨placed, places, stepped⟩ := bind_eq_ok.mp stepped
  obtain ⟨started, starts, stepped⟩ := bind_eq_ok.mp stepped
  obtain rfl := pure_eq_ok.mp stepped
  have faithfulPlaced : context.FaithfulIn
      ({ arrive found skipped state with stack := ⟨frames⟩ } : ScanState).stack.top :=
    ends.top ▸ faithful
  have placedLedger := placeEndLexeme_ledger faithfulPlaced matched places
  have startedLedger := startNext_ledger matched starts
  rw [leaveModes_ledger, placedLedger] at startedLedger
  exact ⟨_, rfl, rfl, startedLedger⟩

end

end ScanContext

end Highlight
