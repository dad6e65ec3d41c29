import Highlight.Proofs.Scan.Standing
import Highlight.Proofs.Scan.Transitions

set_option autoImplicit false

/-! What a round comes to, told by the state in which it begins alone: a mode begins, modes end, or neither.
That a round begins or ends modes is the same as that it meets the conditions for it; and a round that does
neither leaves alone the modes that are on, but for what the hooks of the modes keep that it has asked. -/

namespace Highlight

open Outcome

inductive Turn where
  | rests
  | begins (place : Nat) (found : Pattern.RuleMatch) (data : HookData)
  /-- So many modes end, and the hooks leave the frames as they are given here. -/
  | ends (found : Pattern.RuleMatch) (count : Nat) (frames : List Frame)

namespace ScanContext

def sighted? (context : ScanContext) (state : ScanState) : Option Pattern.RuleMatch :=
  (context.grammar.matcher state.stack.top).toOption.bind fun matcher =>
    matcher.find? context.text state.position

def turnOf (context : ScanContext) (found : Pattern.RuleMatch) (state : ScanState) : Turn :=
  match found.rule with
  | .begins place =>
    let mode := context.grammar.mode place
    match runBeginHooks (context.hookMatch found) (mode.beforeBegin.toList ++ mode.onBegin.toList) {} with
    | some data => .begins place found data
    | none => .rests
  | .ends =>
    match endingModes context.grammar (context.hookMatch found) state.stack.nested with
    | (some count, frames) => .ends found count frames
    | (none, _) => .rests
  | .illegal => .rests

def turn (context : ScanContext) (state : ScanState) : Turn :=
  match context.sighted? state with
  | none => .rests
  | some found => if context.Meets state found then context.turnOf found state else .rests

variable {context : ScanContext} {state : ScanState} {found : Pattern.RuleMatch}

theorem sighted?_eq_some : context.sighted? state = some found ↔ context.Sights state found := by
  unfold sighted?
  constructor
  · intro sighted
    obtain ⟨matcher, compiled, sighted⟩ := Option.bind_eq_some_iff.mp sighted
    exact ⟨matcher, eq_ok_of_toOption compiled, sighted⟩
  · rintro ⟨matcher, compiled, sighted⟩
    rw [compiled]
    exact sighted

theorem Meets.turn (meets : context.Meets state found) :
    context.turn state = context.turnOf found state := by
  unfold ScanContext.turn
  rw [sighted?_eq_some.mpr meets.sights]
  exact if_pos meets

/-- A round that does not rest has met its match. -/
theorem meets_of_turn (moves : context.turn state ≠ .rests) :
    ∃ found, context.Meets state found ∧ context.turn state = context.turnOf found state := by
  unfold ScanContext.turn at moves ⊢
  split at moves
  · exact absurd rfl moves
  · split at moves
    · rename_i found sighted meets
      exact ⟨found, meets, by simp [meets]⟩
    · exact absurd rfl moves

theorem turn_eq_begins {place : Nat} {data : HookData} :
    context.turn state = .begins place found data ↔ context.BeginsMode state found place data := by
  constructor
  · intro turns
    obtain ⟨other, meets, same⟩ := meets_of_turn (turns ▸ by simp : context.turn state ≠ .rests)
    rw [turns] at same
    unfold turnOf at same
    split at same
    · rename_i began rule
      dsimp only at same
      split at same
      · rename_i kept accepted
        obtain ⟨rfl, rfl, rfl⟩ := Turn.begins.inj same
        exact { meets with rule, accepted }
      · cases same
    · split at same
      · cases same
      · cases same
    · cases same
  · intro begins
    rw [begins.toMeets.turn]
    unfold turnOf
    rw [begins.rule]
    dsimp only
    rw [begins.accepted]

theorem turn_eq_ends {count : Nat} {frames : List Frame} :
    context.turn state = .ends found count frames ↔ context.EndsModes state found count frames := by
  constructor
  · intro turns
    obtain ⟨other, meets, same⟩ := meets_of_turn (turns ▸ by simp : context.turn state ≠ .rests)
    rw [turns] at same
    unfold turnOf at same
    split at same
    · dsimp only at same
      split at same
      · cases same
      · cases same
    · rename_i rule
      split at same
      · rename_i accepted
        obtain ⟨rfl, rfl, rfl⟩ := Turn.ends.inj same
        exact { meets with rule, accepted }
      · cases same
    · cases same
  · intro ends
    rw [ends.toMeets.turn]
    unfold turnOf
    rw [ends.rule]
    dsimp only
    rw [ends.accepted]

/-- A state that differs from one only by a round that has neither begun a mode nor ended any. -/
structure Rested (context : ScanContext) (before after : ScanState) : Prop where
  relevance : after.relevance = before.relevance
  hits : after.hits = before.hits
  tree : after.tree = before.tree
  continuations : after.continuations = before.continuations
  stack : after.stack = before.stack ∨ ∃ found frames,
    endingModes context.grammar found before.stack.nested = (none, frames) ∧ after.stack = ⟨frames⟩

namespace Rested

theorem refl (state : ScanState) : context.Rested state state :=
  ⟨rfl, rfl, rfl, rfl, .inl rfl⟩

variable {after : ScanState} (rested : context.Rested state after)

include rested

theorem takeChar (position : Nat) : context.Rested state (context.takeChar position after).state := by
  unfold ScanContext.takeChar
  cases context.text.charAt? position with
  | none => exact ⟨rested.relevance, rested.hits, rested.tree, rested.continuations, rested.stack⟩
  | some c => exact ⟨rested.relevance, rested.hits, rested.tree, rested.continuations, rested.stack⟩

theorem takeLexeme (lexeme : String) :
    context.Rested state (ScanContext.takeLexeme found lexeme after).state :=
  ⟨rested.relevance, rested.hits, rested.tree, rested.continuations, rested.stack⟩

theorem ignores (lexeme : String) :
    context.Rested state (if lexeme.isEmpty then context.takeChar found.start after
      else ScanContext.takeLexeme found lexeme after).state := by
  split
  · exact rested.takeChar found.start
  · exact rested.takeLexeme lexeme

end Rested

theorem Meets.rested (meets : context.Meets state found) (rests : context.turnOf found state = .rests)
    {progress : Progress} (stepped : context.step state = .ok progress) :
    context.Rested state progress.state := by
  rw [meets.step] at stepped
  obtain ⟨skipped, _, stepped⟩ := bind_eq_ok.mp stepped
  obtain ⟨lexeme, _, stepped⟩ := bind_eq_ok.mp stepped
  have arrived : context.Rested state (arrive found skipped state) := ⟨rfl, rfl, rfl, rfl, .inl rfl⟩
  unfold turnOf at rests
  cases rule : found.rule with
  | begins place =>
      simp only [rule] at rests stepped
      unfold beginMode at stepped
      dsimp only at stepped
      split at stepped
      · rw [← apply_ite pure] at stepped
        obtain rfl := pure_eq_ok.mp stepped
        exact arrived.ignores lexeme
      · rename_i data accepted
        rw [accepted] at rests
        cases rests
  | ends =>
      simp only [rule] at rests stepped
      unfold endModes at stepped
      cases asks : endingModes context.grammar (context.hookMatch found) state.stack.nested with
      | mk count frames =>
          have arrivedAsks : endingModes context.grammar (context.hookMatch found)
              (arrive found skipped state).stack.nested = (count, frames) := asks
          rw [asks] at rests
          rw [arrivedAsks] at stepped
          cases count with
          | some count => cases rests
          | none =>
              obtain rfl := pure_eq_ok.mp stepped
              have asked : context.Rested state { arrive found skipped state with stack := ⟨frames⟩ } :=
                ⟨rfl, rfl, rfl, rfl, .inr ⟨_, frames, asks, rfl⟩⟩
              exact asked.takeLexeme lexeme
  | illegal =>
      simp only [rule] at stepped
      unfold meetIllegal at stepped
      split at stepped
      · obtain rfl := Except.ok.inj stepped
        exact arrived.ignores lexeme
      · cases stepped

/-- A round in which no mode begins or ends adds nothing to the tree, and counts nothing. -/
theorem rested_of_turn (rests : context.turn state = .rests) {progress : Progress}
    (stepped : context.step state = .ok progress) : context.Rested state progress.state := by
  by_cases meeting : ∃ found, context.Meets state found
  · obtain ⟨found, meets⟩ := meeting
    exact meets.rested (meets.turn.symm.trans rests) stepped
  · unfold step at stepped
    dsimp only at stepped
    split at stepped
    · cases stepped
    · rename_i matcher compiled
      split at stepped
      · obtain rfl := pure_eq_ok.mp stepped
        exact ⟨rfl, rfl, rfl, rfl, .inl rfl⟩
      · rename_i found sighted
        split at stepped
        · cases stepped
        · rename_i inTime
          unfold process at stepped
          dsimp only at stepped
          obtain ⟨skipped, _, stepped⟩ := bind_eq_ok.mp stepped
          obtain ⟨lexeme, _, stepped⟩ := bind_eq_ok.mp stepped
          split at stepped
          · split at stepped
            · obtain rfl := pure_eq_ok.mp stepped
              apply Rested.takeChar
              exact ⟨rfl, rfl, rfl, rfl, .inl rfl⟩
            · cases stepped
          · rename_i fresh
            exact absurd ⟨found, ⟨matcher, compiled, sighted⟩, Bool.eq_false_iff.mpr inTime,
              Bool.eq_false_iff.mpr fresh⟩ meeting

/-! ### The modes that are on behind a round -/

theorem BeginsMode.stack {place : Nat} {data : HookData}
    (begins : context.BeginsMode state found place data) {progress : Progress}
    (stepped : context.step state = .ok progress) :
    progress.state.stack = state.stack.push place data := by
  rw [begins.step] at stepped
  obtain ⟨skipped, _, stepped⟩ := bind_eq_ok.mp stepped
  obtain ⟨lexeme, _, stepped⟩ := bind_eq_ok.mp stepped
  obtain ⟨placed, places, stepped⟩ := bind_eq_ok.mp stepped
  obtain ⟨started, starts, stepped⟩ := bind_eq_ok.mp stepped
  obtain rfl := pure_eq_ok.mp stepped
  change started.stack = state.stack.push place data
  rw [(startMode_course starts).1, (placeBeginLexeme_course places).1]
  rfl

theorem EndsModes.stack {count : Nat} {frames : List Frame}
    (ends : context.EndsModes state found count frames) {progress : Progress}
    (stepped : context.step state = .ok progress) :
    progress.state.stack.nested = (context.outermost count frames).starts.toList.map (fun next =>
      { mode := next }) ++ frames.drop count := by
  rw [ends.step] at stepped
  obtain ⟨skipped, _, stepped⟩ := bind_eq_ok.mp stepped
  obtain ⟨lexeme, _, stepped⟩ := bind_eq_ok.mp stepped
  obtain ⟨placed, places, stepped⟩ := bind_eq_ok.mp stepped
  obtain ⟨started, starts, stepped⟩ := bind_eq_ok.mp stepped
  obtain rfl := pure_eq_ok.mp stepped
  have left : (context.leaveModes count placed).stack = ⟨frames.drop count⟩ := by
    rw [leaveModes_stack, (placeEndLexeme_course places).1]
  change started.stack.nested = _
  cases follows : (context.outermost count frames).starts with
  | none =>
      rw [follows] at starts
      obtain rfl := Except.ok.inj starts
      rw [left]
      rfl
  | some next =>
      rw [follows] at starts
      rw [(startMode_course starts).1, left]
      rfl

end ScanContext

end Highlight
