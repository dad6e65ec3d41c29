import Highlight.Proofs.Scan.Round

set_option autoImplicit false

/-! The parts of a round: how a mode is turned on and off, and where its begin and end matches go. For each
part there is one lemma on the course of the scan, that is on the modes that are on and the scopes that are
open. The text gone through stands in the tree and, behind that, in the buffer; `ScanState.taken` is both
together. -/

namespace Highlight

open Outcome

/-- The text gone through: that in the tree, and that still in the buffer. -/
def ScanState.taken (state : ScanState) : String :=
  state.tree.text ++ state.buffer

namespace ScanContext

def scopeNames (context : ScanContext) (frames : List Frame) : List String :=
  frames.filterMap fun frame =>
    (context.grammar.mode frame.mode).scope.map context.grammar.resolveScope

/-- Whether emptying the buffer puts all of it into the tree. -/
def Faithful (context : ScanContext) : Prop :=
  ∀ state after, context.flush state = .ok after → after.tree.text = state.taken

variable {context : ScanContext}

/-! ### Turning a mode on -/

structure Opened (context : ScanContext) (place : Nat) (state opened : ScanState) : Prop where
  others : opened = { state with tree := opened.tree }
  text : opened.tree.text = state.tree.text
  openNames : opened.tree.openNames =
    ((context.grammar.mode place).scope.map context.grammar.resolveScope).toList ++
      state.tree.openNames

/-- What turning a mode on has come to: its scope is open, and the buffer is left alone, given one
scope, or replaced by the groups of the match. -/
theorem startMode_cases {place : Nat} {found : Pattern.RuleMatch} {data : HookData}
    {state after : ScanState} (started : context.startMode place found data state = .ok after) :
    ∃ opened, context.Opened place state opened ∧
      ((context.grammar.mode place).beginScope = none ∧
          after = { opened with stack := opened.stack.push place data } ∨
        (∃ whole scope, (context.grammar.mode place).beginScope = some (.whole whole) ∧
          after = { { opened with buffer := "" }.addScoped opened.buffer scope with
            stack := opened.stack.push place data }) ∨
        ∃ scopes inner, (context.grammar.mode place).beginScope = some (.groups scopes) ∧
          context.emitGroups found scopes found.start opened = .ok inner ∧
          after = { inner with buffer := "", stack := inner.stack.push place data }) := by
  unfold startMode at started
  extract_lets mode opened at started
  have opens : context.Opened place state opened := by
    dsimp only [opened, mode]
    cases named : (context.grammar.mode place).scope with
    | none => exact ⟨rfl, rfl, by simp [named]⟩
    | some scope => exact ⟨rfl, TreeBuilder.text_openScope _ _, by simp [named]⟩
  refine ⟨opened, opens, ?_⟩
  split at started
  · rename_i scope shape
    obtain rfl := pure_eq_ok.mp started
    exact Or.inr (Or.inl ⟨scope, _, shape, rfl⟩)
  · rename_i scopes shape
    obtain ⟨inner, emitted, started⟩ := bind_eq_ok.mp started
    obtain rfl := pure_eq_ok.mp started
    exact Or.inr (Or.inr ⟨scopes, inner, shape, emitted, rfl⟩)
  · rename_i shape
    obtain rfl := pure_eq_ok.mp started
    exact Or.inl ⟨shape, rfl⟩

theorem startMode_course {place : Nat} {found : Pattern.RuleMatch} {data : HookData}
    {state after : ScanState} (started : context.startMode place found data state = .ok after) :
    after.stack = state.stack.push place data ∧
      after.tree.openNames = ((context.grammar.mode place).scope.map
        context.grammar.resolveScope).toList ++ state.tree.openNames := by
  obtain ⟨opened, opens, outcome⟩ := startMode_cases started
  have stack : opened.stack = state.stack := by rw [opens.others]
  rcases outcome with ⟨_, rfl⟩ | ⟨_, scope, _, rfl⟩ | ⟨scopes, inner, _, emitted, rfl⟩
  · exact ⟨by rw [stack], opens.openNames⟩
  · exact ⟨by rw [stack], (TreeBuilder.openNames_addScoped _ _ _).trans opens.openNames⟩
  · obtain ⟨_, _, emits⟩ := emitGroups_emits context emitted
    exact ⟨by rw [emits.stack, stack], emits.openNames.trans opens.openNames⟩

/-! ### Turning modes off -/

theorem leaveModes_stack (context : ScanContext) (count : Nat) (state : ScanState) :
    (context.leaveModes count state).stack = ⟨state.stack.nested.drop count⟩ := by
  induction count generalizing state with
  | zero => rfl
  | succ count ih =>
      rw [leaveModes, ih]
      simp [leaveMode, ModeStack.pop, List.drop_tail]

theorem leaveModes_openNames {count : Nat} {state : ScanState}
    (open_ : state.tree.openNames = context.scopeNames state.stack.nested)
    (within : count ≤ state.stack.nested.length) :
    (context.leaveModes count state).tree.openNames =
      context.scopeNames (state.stack.nested.drop count) := by
  induction count generalizing state with
  | zero => exact open_
  | succ count ih =>
      cases nested : state.stack.nested with
      | nil => simp [nested] at within
      | cons frame outer =>
          have popped : (context.leaveMode state).stack.nested = outer := by
            simp [leaveMode, ModeStack.pop, nested]
          have top : context.topMode state = context.grammar.mode frame.mode := by
            simp [topMode, ModeStack.top, nested]
          have closed : (context.leaveMode state).tree.openNames = context.scopeNames outer := by
            rw [nested] at open_
            cases named : (context.grammar.mode frame.mode).scope with
            | none => simpa [leaveMode, top, scopeNames, named] using open_
            | some scope => simp [leaveMode, top, scopeNames, named, open_]
          rw [leaveModes, ih (by rw [closed, popped]) (by simpa [popped, nested] using within),
            popped]
          rfl

/-! ### Placing begin and end matches -/

theorem flush_buffer {state after : ScanState} (flushed : context.flush state = .ok after) :
    after.buffer = "" :=
  (flush_sameCourse context flushed).buffer

/-- Where the text of a begin match has gone. -/
inductive PlacedBegin (context : ScanContext) (flags : ModeFlags) (lexeme : String)
    (state : ScanState) : ScanState → Prop
  /-- It is text of the mode around it. -/
  | skipped (skip : flags.skip = true) :
      PlacedBegin context flags lexeme state { state with buffer := state.buffer ++ lexeme }
  /-- It is put into the tree with what stands before it. -/
  | excluded {flushed : ScanState} (skip : flags.skip = false) (exclude : flags.excludeBegin = true)
      (flushes : context.flush { state with buffer := state.buffer ++ lexeme } = .ok flushed) :
      PlacedBegin context flags lexeme state flushed
  /-- It is given back. -/
  | returned {flushed : ScanState} (skip : flags.skip = false)
      (exclude : flags.excludeBegin = false) (returns : flags.returnBegin = true)
      (flushes : context.flush state = .ok flushed) :
      PlacedBegin context flags lexeme state flushed
  /-- It is the first text of the mode. -/
  | kept {flushed : ScanState} (skip : flags.skip = false) (exclude : flags.excludeBegin = false)
      (returns : flags.returnBegin = false) (flushes : context.flush state = .ok flushed) :
      PlacedBegin context flags lexeme state { flushed with buffer := lexeme }

theorem placeBeginLexeme_cases {flags : ModeFlags} {lexeme : String} {state after : ScanState}
    (placed : context.placeBeginLexeme flags lexeme state = .ok after) :
    PlacedBegin context flags lexeme state after := by
  unfold placeBeginLexeme at placed
  cases skip : flags.skip with
  | true =>
      rw [if_pos skip] at placed
      obtain rfl := pure_eq_ok.mp placed
      exact .skipped skip
  | false =>
      rw [if_neg (by simp [skip])] at placed
      obtain ⟨flushed, flushes, placed⟩ := bind_eq_ok.mp placed
      cases exclude : flags.excludeBegin with
      | true =>
          rw [if_pos exclude] at flushes
          rw [if_pos (by simp [exclude])] at placed
          obtain rfl := pure_eq_ok.mp placed
          exact .excluded skip exclude flushes
      | false =>
          rw [if_neg (by simp [exclude])] at flushes
          cases returns : flags.returnBegin with
          | true =>
              rw [if_pos (by simp [returns])] at placed
              obtain rfl := pure_eq_ok.mp placed
              exact .returned skip exclude returns flushes
          | false =>
              rw [if_neg (by simp [returns, exclude])] at placed
              obtain rfl := pure_eq_ok.mp placed
              exact .kept skip exclude returns flushes

inductive PlacedEnd (context : ScanContext) (mode : Mode) (found : Pattern.RuleMatch)
    (lexeme : String) (state : ScanState) : ScanState → Prop
  /-- It is given a scope. -/
  | whole {scope : String} {flushed : ScanState} (shape : mode.endScope = some (.whole scope))
      (flushes : context.flush state = .ok flushed) :
      PlacedEnd context mode found lexeme state
        (flushed.addScoped lexeme (context.grammar.resolveScope scope))
  /-- Its groups are given scopes. -/
  | groups {scopes : List (Nat × Option String)} {flushed after : ScanState}
      (shape : mode.endScope = some (.groups scopes)) (flushes : context.flush state = .ok flushed)
      (emitted : context.emitGroups found scopes found.start flushed = .ok after) :
      PlacedEnd context mode found lexeme state after
  /-- It is text of the mode around it. -/
  | skipped (shape : mode.endScope = none) (skip : mode.flags.skip = true) :
      PlacedEnd context mode found lexeme state { state with buffer := state.buffer ++ lexeme }
  /-- It is the first text behind the mode. -/
  | excluded {flushed : ScanState} (shape : mode.endScope = none) (skip : mode.flags.skip = false)
      (exclude : mode.flags.excludeEnd = true) (flushes : context.flush state = .ok flushed) :
      PlacedEnd context mode found lexeme state { flushed with buffer := lexeme }
  /-- It is given back. -/
  | returned {flushed : ScanState} (shape : mode.endScope = none) (skip : mode.flags.skip = false)
      (exclude : mode.flags.excludeEnd = false) (returns : mode.flags.returnEnd = true)
      (flushes : context.flush state = .ok flushed) :
      PlacedEnd context mode found lexeme state flushed
  /-- It is the last text of the mode. -/
  | kept {flushed : ScanState} (shape : mode.endScope = none) (skip : mode.flags.skip = false)
      (exclude : mode.flags.excludeEnd = false) (returns : mode.flags.returnEnd = false)
      (flushes : context.flush { state with buffer := state.buffer ++ lexeme } = .ok flushed) :
      PlacedEnd context mode found lexeme state flushed

theorem placeEndLexeme_cases {mode : Mode} {found : Pattern.RuleMatch} {lexeme : String}
    {state after : ScanState}
    (placed : context.placeEndLexeme mode found lexeme state = .ok after) :
    PlacedEnd context mode found lexeme state after := by
  unfold placeEndLexeme at placed
  cases shape : mode.endScope with
  | some emission =>
      rw [shape] at placed
      cases emission with
      | whole scope =>
          obtain ⟨flushed, flushes, placed⟩ := bind_eq_ok.mp placed
          obtain rfl := pure_eq_ok.mp placed
          exact .whole shape flushes
      | groups scopes =>
          obtain ⟨flushed, flushes, placed⟩ := bind_eq_ok.mp placed
          exact .groups shape flushes placed
  | none =>
      rw [shape] at placed
      dsimp only at placed
      cases skip : mode.flags.skip with
      | true =>
          rw [if_pos skip] at placed
          obtain rfl := pure_eq_ok.mp placed
          exact .skipped shape skip
      | false =>
          rw [if_neg (by simp [skip])] at placed
          obtain ⟨flushed, flushes, placed⟩ := bind_eq_ok.mp placed
          cases exclude : mode.flags.excludeEnd with
          | true =>
              rw [if_pos (by simp [exclude])] at flushes
              rw [if_pos exclude] at placed
              obtain rfl := pure_eq_ok.mp placed
              exact .excluded shape skip exclude flushes
          | false =>
              rw [if_neg (by simp [exclude])] at placed
              obtain rfl := pure_eq_ok.mp placed
              cases returns : mode.flags.returnEnd with
              | true =>
                  rw [if_pos (by simp [returns])] at flushes
                  exact .returned shape skip exclude returns flushes
              | false =>
                  rw [if_neg (by simp [returns, exclude])] at flushes
                  exact .kept shape skip exclude returns flushes

theorem placeBeginLexeme_course {flags : ModeFlags} {lexeme : String} {state after : ScanState}
    (placed : context.placeBeginLexeme flags lexeme state = .ok after) :
    after.stack = state.stack ∧ after.tree.openNames = state.tree.openNames := by
  cases placeBeginLexeme_cases placed with
  | skipped => exact ⟨rfl, rfl⟩
  | excluded _ _ flushes | returned _ _ _ flushes | kept _ _ _ flushes =>
      have course := flush_sameCourse context flushes
      exact ⟨course.stack, course.openNames⟩

theorem placeEndLexeme_course {mode : Mode} {found : Pattern.RuleMatch} {lexeme : String}
    {state after : ScanState}
    (placed : context.placeEndLexeme mode found lexeme state = .ok after) :
    after.stack = state.stack ∧ after.tree.openNames = state.tree.openNames := by
  cases placeEndLexeme_cases placed with
  | skipped => exact ⟨rfl, rfl⟩
  | whole _ flushes =>
      have course := flush_sameCourse context flushes
      exact ⟨course.stack, (TreeBuilder.openNames_addScoped _ _ _).trans course.openNames⟩
  | groups _ flushes emitted =>
      have course := flush_sameCourse context flushes
      obtain ⟨_, _, emits⟩ := emitGroups_emits context emitted
      exact ⟨emits.stack.trans course.stack, emits.openNames.trans course.openNames⟩
  | excluded _ _ _ flushes | returned _ _ _ _ flushes | kept _ _ _ _ flushes =>
      have course := flush_sameCourse context flushes
      exact ⟨course.stack, course.openNames⟩

end ScanContext

end Highlight
