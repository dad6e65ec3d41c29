import Highlight.Proofs.Scan.Emission
import Highlight.Scan.Step

set_option autoImplicit false

/-! What can come of one round of a scan. `Round` lists the outcomes of a round that succeeds, each
with all that has happened on the way, and `round_of_step` says that there are no others. What a round
keeps is then shown outcome by outcome, without going through the code of the round again. -/

namespace Highlight

open Outcome

namespace ScanContext

/-! ### The modes that end with a match -/

theorem endingRun_bounds (grammar : Grammar) (frame : Frame) (outer : List Frame) :
    0 < endingRun grammar (frame :: outer) ∧
      endingRun grammar (frame :: outer) ≤ outer.length + 1 := by
  induction outer generalizing frame with
  | nil => simp [endingRun]
  | cons next rest ih =>
      have inner := ih next
      unfold endingRun
      simp only [List.length_cons]
      split
      · omega
      · omega

/-- What the hooks keep may change as they are asked, but not which modes are on. -/
theorem endingModes_modes (grammar : Grammar) (found : HookMatch) (frames : List Frame) :
    (endingModes grammar found frames).2.map Frame.mode = frames.map Frame.mode := by
  induction frames with
  | nil => rfl
  | cons frame outer ih =>
      unfold endingModes
      extract_lets mode asked frame'
      split
      · rfl
      · split
        · simp [ih, frame']
        · rfl

theorem endingModes_count {grammar : Grammar} {found : HookMatch} {frames : List Frame}
    {count : Nat} (ends : (endingModes grammar found frames).1 = some count) :
    0 < count ∧ count ≤ frames.length := by
  induction frames generalizing count with
  | nil => simp [endingModes] at ends
  | cons frame outer ih =>
      unfold endingModes at ends
      extract_lets mode asked frame' at ends
      split at ends
      · obtain rfl := Option.some.inj ends
        exact endingRun_bounds grammar _ outer
      · split at ends
        · obtain ⟨inner, innerEnds, rfl⟩ := Option.map_eq_some_iff.mp ends
          have bounds := ih innerEnds
          simp only [List.length_cons]
          omega
        · simp at ends

theorem top_of_modes {first second : List Frame}
    (same : first.map Frame.mode = second.map Frame.mode) :
    (⟨first⟩ : ModeStack).top = (⟨second⟩ : ModeStack).top := by
  cases first <;> cases second <;> simp_all [ModeStack.top]

/-! ### The outcomes of a round -/

def Sights (context : ScanContext) (state : ScanState) (found : Pattern.RuleMatch) : Prop :=
  ∃ matcher, context.grammar.matcher state.stack.top = .ok matcher ∧
    matcher.find? context.text state.position = some found

/-- The state in which a round comes to what is to be done about its match: the text before the match
stands in the buffer, and nothing else has changed but the round and the last match. -/
structure Arrival (context : ScanContext) (state : ScanState) (found : Pattern.RuleMatch)
    (lexeme : String) (arrived : ScanState) : Prop where
  sights : context.Sights state found
  reaches : ∃ skipped lastMatch, context.text.part state.position found.start = .ok skipped ∧
    arrived = { state with
      rounds := state.rounds + 1, buffer := state.buffer ++ skipped, lastMatch }
  lexeme : context.text.part found.start found.stop = .ok lexeme

/-- What a round that succeeds has done. -/
inductive Round (context : ScanContext) (state : ScanState) : Progress → Prop
  /-- There is no match any more. -/
  | exhausted : Round context state (.finish { state with rounds := state.rounds + 1 })
  /-- The match brings no progress, and one character is taken instead. -/
  | char {found : Pattern.RuleMatch} {lexeme : String} {arrived : ScanState}
      (arrival : context.Arrival state found lexeme arrived) :
      Round context state (context.takeChar found.start arrived)
  /-- The match is ignored, and its text taken as that of the mode that is on. -/
  | ignored {found : Pattern.RuleMatch} {lexeme : String} {arrived : ScanState}
      (arrival : context.Arrival state found lexeme arrived) :
      Round context state (takeLexeme found lexeme arrived)
  /-- A mode begins. -/
  | begins {found : Pattern.RuleMatch} {lexeme : String} {arrived placed started : ScanState}
      {place : Nat} {data : HookData} (arrival : context.Arrival state found lexeme arrived)
      (rule : found.rule = .begins place)
      (places : context.placeBeginLexeme (context.grammar.mode place).flags lexeme arrived =
        .ok placed)
      (starts : context.startMode place found data placed = .ok started) :
      Round context state (.advance { started with
        position := if (context.grammar.mode place).flags.returnBegin then found.start
          else found.stop })
  /-- An end match is ignored by the hooks that were asked, which may have changed what they keep. -/
  | refused {found : Pattern.RuleMatch} {lexeme : String} {arrived : ScanState}
      {frames : List Frame} (arrival : context.Arrival state found lexeme arrived)
      (asks : endingModes context.grammar (context.hookMatch found) arrived.stack.nested =
        (none, frames)) :
      Round context state (takeLexeme found lexeme { arrived with stack := ⟨frames⟩ })
  /-- Modes end, and none begins in their place. -/
  | ends {found : Pattern.RuleMatch} {lexeme : String} {arrived placed : ScanState} {count : Nat}
      {frames : List Frame} (arrival : context.Arrival state found lexeme arrived)
      (asks : endingModes context.grammar (context.hookMatch found) arrived.stack.nested =
        (some count, frames))
      (places : context.placeEndLexeme (context.grammar.mode arrived.stack.top) found lexeme
        { arrived with stack := ⟨frames⟩ } = .ok placed) :
      Round context state (.advance { context.leaveModes count placed with
        position := if (context.grammar.mode arrived.stack.top).flags.returnEnd then found.start
          else found.stop })
  /-- Modes end, and the mode that the outermost of them starts begins. -/
  | continues {found : Pattern.RuleMatch} {lexeme : String}
      {arrived placed started : ScanState} {count next : Nat} {frames : List Frame} {outer : Frame}
      (arrival : context.Arrival state found lexeme arrived)
      (asks : endingModes context.grammar (context.hookMatch found) arrived.stack.nested =
        (some count, frames))
      (places : context.placeEndLexeme (context.grammar.mode arrived.stack.top) found lexeme
        { arrived with stack := ⟨frames⟩ } = .ok placed)
      (outermost : frames[count - 1]? = some outer)
      (follows : (context.grammar.mode outer.mode).starts = some next)
      (starts : context.startMode next found {} (context.leaveModes count placed) = .ok started) :
      Round context state (.advance { started with
        position := if (context.grammar.mode arrived.stack.top).flags.returnEnd then found.start
          else found.stop })

variable (context : ScanContext)

private theorem round_of_beginMode {state arrived : ScanState} {found : Pattern.RuleMatch}
    {lexeme : String} {place : Nat} {progress : Progress}
    (arrival : context.Arrival state found lexeme arrived) (rule : found.rule = .begins place)
    (began : context.beginMode place found lexeme arrived = .ok progress) :
    Round context state progress := by
  unfold beginMode at began
  dsimp only at began
  split at began
  · split at began
    · obtain rfl := pure_eq_ok.mp began
      exact Round.char arrival
    · obtain rfl := pure_eq_ok.mp began
      exact Round.ignored arrival
  · obtain ⟨placed, places, began⟩ := bind_eq_ok.mp began
    obtain ⟨started, starts, began⟩ := bind_eq_ok.mp began
    obtain rfl := pure_eq_ok.mp began
    exact Round.begins arrival rule places starts

private theorem round_of_endModes {state arrived : ScanState} {found : Pattern.RuleMatch}
    {lexeme : String} {progress : Progress}
    (arrival : context.Arrival state found lexeme arrived)
    (ended : context.endModes found lexeme arrived = .ok progress) :
    Round context state progress := by
  unfold endModes at ended
  have modes := endingModes_modes context.grammar (context.hookMatch found) arrived.stack.nested
  generalize asks : endingModes context.grammar (context.hookMatch found) arrived.stack.nested =
    answer at ended modes
  obtain ⟨count, frames⟩ := answer
  dsimp only at ended modes
  cases count with
  | none =>
      obtain rfl := pure_eq_ok.mp ended
      exact Round.refused arrival asks
  | some count =>
      have bounds := endingModes_count (congrArg Prod.fst asks)
      have sameLength : frames.length = arrived.stack.nested.length := by
        simpa using congrArg List.length modes
      have outermost : frames[count - 1]? = some frames[count - 1] :=
        List.getElem?_eq_getElem (by omega)
      have top : context.topMode { arrived with stack := ⟨frames⟩ } =
          context.grammar.mode arrived.stack.top :=
        congrArg context.grammar.mode (top_of_modes modes)
      dsimp only at ended
      rw [top, outermost, Option.map_some, Option.getD_some] at ended
      obtain ⟨placed, places, ended⟩ := bind_eq_ok.mp ended
      cases follows : (context.grammar.mode frames[count - 1].mode).starts with
      | none =>
          rw [follows] at ended
          obtain rfl := pure_eq_ok.mp ended
          exact Round.ends arrival asks places
      | some next =>
          rw [follows] at ended
          obtain ⟨started, starts, ended⟩ := bind_eq_ok.mp ended
          obtain rfl := pure_eq_ok.mp ended
          exact Round.continues arrival asks places outermost follows starts

private theorem round_of_meetIllegal {state arrived : ScanState} {found : Pattern.RuleMatch}
    {lexeme : String} {progress : Progress}
    (arrival : context.Arrival state found lexeme arrived)
    (met : context.meetIllegal found lexeme arrived = .ok progress) :
    Round context state progress := by
  unfold meetIllegal at met
  split at met
  · obtain rfl := Except.ok.inj met
    split
    · exact Round.char arrival
    · exact Round.ignored arrival
  · cases met

theorem round_of_step {state : ScanState} {progress : Progress}
    (stepped : context.step state = .ok progress) : Round context state progress := by
  unfold step at stepped
  dsimp only at stepped
  split at stepped
  · cases stepped
  · rename_i matcher compiled
    split at stepped
    · obtain rfl := pure_eq_ok.mp stepped
      exact Round.exhausted
    · rename_i found sighted
      split at stepped
      · cases stepped
      · unfold process at stepped
        dsimp only at stepped
        obtain ⟨skipped, skippedTaken, stepped⟩ := bind_eq_ok.mp stepped
        obtain ⟨lexeme, lexemeTaken, stepped⟩ := bind_eq_ok.mp stepped
        have arrives : ∀ lastMatch, context.Arrival state found lexeme { state with
            rounds := state.rounds + 1, buffer := state.buffer ++ skipped, lastMatch } :=
          fun lastMatch =>
            { sights := ⟨matcher, compiled, sighted⟩
              reaches := ⟨skipped, lastMatch, skippedTaken, rfl⟩
              lexeme := lexemeTaken }
        split at stepped
        · split at stepped
          · obtain rfl := pure_eq_ok.mp stepped
            exact Round.char (arrives _)
          · cases stepped
        · split at stepped
          · rename_i place rule
            exact round_of_beginMode context (arrives _) rule stepped
          · exact round_of_endModes context (arrives _) stepped
          · exact round_of_meetIllegal context (arrives _) stepped

end ScanContext

end Highlight
