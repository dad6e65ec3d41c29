import Highlight.Proofs.Scan.Moves

set_option autoImplicit false

/-! The two texts of a scan. All that matters for the text gone through is what stands in the tree and what
in the buffer, so the moves of a scan are told here as operations on these two texts, with no tree and no
stack. Each move of the scan carries out the operation of its name. -/

namespace Highlight

open Outcome

/-- The text of the tree and that of the buffer. -/
structure Ledger where
  tree : String
  buffer : String
deriving DecidableEq

def ScanState.ledger (state : ScanState) : Ledger :=
  ⟨state.tree.text, state.buffer⟩

namespace Ledger

def text (ledger : Ledger) : String :=
  ledger.tree ++ ledger.buffer

def hold (ledger : Ledger) (more : String) : Ledger :=
  { ledger with buffer := ledger.buffer ++ more }

def flush (ledger : Ledger) : Ledger :=
  ⟨ledger.text, ""⟩

def placeBegin (flags : ModeFlags) (lexeme : String) (ledger : Ledger) : Ledger :=
  if flags.skip then ledger.hold lexeme
  else if flags.excludeBegin then (ledger.hold lexeme).flush
  else if flags.returnBegin then ledger.flush
  else ledger.flush.hold lexeme

def placeEnd (mode : Mode) (lexeme : String) (ledger : Ledger) : Ledger :=
  if mode.endScope.isSome then (ledger.flush.hold lexeme).flush
  else if mode.flags.skip then ledger.hold lexeme
  else if mode.flags.excludeEnd then ledger.flush.hold lexeme
  else if mode.flags.returnEnd then ledger.flush
  else (ledger.hold lexeme).flush

/-- What becomes of the texts when a mode is turned on. Where the groups of the match are given scopes, the
match goes into the tree, and what is in the buffer is dropped. -/
def start (emission : Option Emission) (lexeme : String) (ledger : Ledger) : Ledger :=
  match emission with
  | none => ledger
  | some (.whole _) => ledger.flush
  | some (.groups _) => ⟨ledger.tree ++ lexeme, ""⟩

variable (ledger : Ledger)

@[simp] theorem text_hold (more : String) : (ledger.hold more).text = ledger.text ++ more :=
  String.append_assoc.symm

@[simp] theorem text_flush : ledger.flush.text = ledger.text :=
  String.append_empty

end Ledger

theorem ScanState.taken_eq (state : ScanState) : state.taken = state.ledger.text := rfl

namespace ScanContext

/-- Whether emptying the buffer while a mode is the innermost one puts all of it into the tree. -/
def FaithfulIn (context : ScanContext) (place : Nat) : Prop :=
  ∀ state after, state.stack.top = place → context.flush state = .ok after →
    after.tree.text = state.taken

variable {context : ScanContext}

theorem Faithful.faithfulIn (faithful : context.Faithful) (place : Nat) : context.FaithfulIn place :=
  fun state after _ flushed => faithful state after flushed

theorem faithfulIn_of_subLanguage_none {place : Nat}
    (own : (context.grammar.mode place).subLanguage = none) : context.FaithfulIn place := by
  intro state after top flushed
  have plain : (context.topMode { state with buffer := "" }).subLanguage = none := by
    rw [topMode, top, own]
  unfold flush at flushed
  simp only [plain] at flushed
  exact (emitKeywords_emits context flushed).text

theorem flush_ledger {state after : ScanState} (faithful : context.FaithfulIn state.stack.top)
    (flushed : context.flush state = .ok after) : after.ledger = state.ledger.flush := by
  have text := faithful state after rfl flushed
  have buffer := flush_buffer flushed
  simp only [ScanState.ledger, Ledger.flush, text, buffer]
  rfl

theorem placeBeginLexeme_ledger {flags : ModeFlags} {lexeme : String} {state after : ScanState}
    (faithful : context.FaithfulIn state.stack.top)
    (placed : context.placeBeginLexeme flags lexeme state = .ok after) :
    after.ledger = state.ledger.placeBegin flags lexeme := by
  unfold Ledger.placeBegin
  cases placeBeginLexeme_cases placed with
  | skipped skip =>
      rw [if_pos skip]
      rfl
  | excluded skip exclude flushes =>
      rw [if_neg (by simp [skip]), if_pos exclude]
      exact flush_ledger (by exact faithful) flushes
  | returned skip exclude returns flushes =>
      rw [if_neg (by simp [skip]), if_neg (by simp [exclude]), if_pos returns]
      exact flush_ledger faithful flushes
  | kept skip exclude returns flushes =>
      rw [if_neg (by simp [skip]), if_neg (by simp [exclude]), if_neg (by simp [returns]),
        ← flush_ledger faithful flushes]
      simp [ScanState.ledger, Ledger.hold, flush_buffer flushes]

theorem placeEndLexeme_ledger {mode : Mode} {found : Pattern.RuleMatch} {lexeme : String}
    {state after : ScanState} (faithful : context.FaithfulIn state.stack.top)
    (matched : context.text.part found.start found.stop = .ok lexeme)
    (placed : context.placeEndLexeme mode found lexeme state = .ok after) :
    after.ledger = state.ledger.placeEnd mode lexeme := by
  -- whatever the scopes, the buffer is emptied and the match put behind it
  have behind : ∀ {flushed}, context.flush state = .ok flushed → after.buffer = flushed.buffer →
      after.tree.text = flushed.tree.text ++ lexeme →
        after.ledger = (state.ledger.flush.hold lexeme).flush := by
    intro flushed flushes buffer text
    rw [← flush_ledger faithful flushes]
    simp [ScanState.ledger, Ledger.flush, Ledger.text, Ledger.hold, buffer, text,
      flush_buffer flushes]
  unfold Ledger.placeEnd
  cases placeEndLexeme_cases placed with
  | whole shape flushes =>
      rw [shape, if_pos (Option.isSome_some)]
      exact behind flushes rfl (TreeBuilder.text_addScoped _ _ _)
  | groups shape flushes emitted =>
      rw [shape, if_pos (Option.isSome_some)]
      obtain ⟨part, taken, emits⟩ := emitGroups_emits context emitted
      obtain rfl := Text.part_unique taken matched
      exact behind flushes emits.buffer emits.text
  | skipped shape skip =>
      rw [if_neg (by simp [shape]), if_pos skip]
      rfl
  | excluded shape skip exclude flushes =>
      rw [if_neg (by simp [shape]), if_neg (by simp [skip]), if_pos exclude,
        ← flush_ledger faithful flushes]
      simp [ScanState.ledger, Ledger.hold, flush_buffer flushes]
  | returned shape skip exclude returns flushes =>
      rw [if_neg (by simp [shape]), if_neg (by simp [skip]), if_neg (by simp [exclude]),
        if_pos returns]
      exact flush_ledger faithful flushes
  | kept shape skip exclude returns flushes =>
      rw [if_neg (by simp [shape]), if_neg (by simp [skip]), if_neg (by simp [exclude]),
        if_neg (by simp [returns])]
      exact flush_ledger (by exact faithful) flushes

theorem leaveModes_ledger (count : Nat) (state : ScanState) :
    (context.leaveModes count state).ledger = state.ledger := by
  induction count generalizing state with
  | zero => rfl
  | succ count ih =>
      rw [leaveModes, ih]
      simp only [leaveMode, ScanState.ledger]
      split <;> simp

theorem startMode_ledger {place : Nat} {found : Pattern.RuleMatch} {data : HookData} {lexeme : String}
    {state after : ScanState} (matched : context.text.part found.start found.stop = .ok lexeme)
    (started : context.startMode place found data state = .ok after) :
    after.ledger = state.ledger.start (context.grammar.mode place).beginScope lexeme := by
  obtain ⟨opened, opens, outcome⟩ := startMode_cases started
  have buffer : opened.buffer = state.buffer := by rw [opens.others]
  rcases outcome with ⟨shape, rfl⟩ | ⟨_, scope, shape, rfl⟩ | ⟨scopes, inner, shape, emitted, rfl⟩
  · simp only [ScanState.ledger, opens.text, buffer, shape]
    rfl
  · simp [ScanState.ledger, ScanState.addScoped, opens.text, buffer, shape, Ledger.start,
      Ledger.flush, Ledger.text]
  · obtain ⟨part, taken, emits⟩ := emitGroups_emits context emitted
    obtain rfl := Text.part_unique taken matched
    simp [ScanState.ledger, emits.text, opens.text, shape, Ledger.start]

/-! ### The text gone through -/

/-- A begin match that is not given back is text gone through, whichever mode it is counted to. If it
is neither skipped nor excluded, it alone is in the buffer. -/
theorem placeBeginLexeme_taken (faithful : context.Faithful) {flags : ModeFlags}
    {lexeme : String} {state after : ScanState}
    (placed : context.placeBeginLexeme flags lexeme state = .ok after)
    (single : flags.returnBegin = true → flags.skip = false ∧ flags.excludeBegin = false) :
    after.taken = state.taken ++ (if flags.returnBegin then "" else lexeme) ∧
      (flags.skip = false → flags.excludeBegin = false → flags.returnBegin = false →
        after.buffer = lexeme) := by
  have same := placeBeginLexeme_ledger (faithful.faithfulIn _) placed
  have buffer : after.buffer = (state.ledger.placeBegin flags lexeme).buffer :=
    congrArg Ledger.buffer same
  rw [ScanState.taken_eq, ScanState.taken_eq, same, buffer]
  cases returns : flags.returnBegin with
  | true => simp [Ledger.placeBegin, Ledger.text, Ledger.flush, single returns, returns]
  | false =>
      cases skip : flags.skip <;> cases exclude : flags.excludeBegin <;>
        simp [Ledger.placeBegin, Ledger.text, Ledger.flush, Ledger.hold, skip, exclude, returns,
          String.append_assoc]

theorem placeEndLexeme_taken (faithful : context.Faithful) {mode : Mode}
    {found : Pattern.RuleMatch} {lexeme : String} {state after : ScanState}
    (placed : context.placeEndLexeme mode found lexeme state = .ok after)
    (matched : context.text.part found.start found.stop = .ok lexeme)
    (single : mode.flags.returnEnd = true →
      mode.flags.skip = false ∧ mode.flags.excludeEnd = false ∧ mode.endScope = none) :
    after.taken = state.taken ++ (if mode.flags.returnEnd then "" else lexeme) := by
  have same := placeEndLexeme_ledger (faithful.faithfulIn _) matched placed
  rw [ScanState.taken_eq, ScanState.taken_eq, same]
  cases returns : mode.flags.returnEnd with
  | true => simp [Ledger.placeEnd, Ledger.text, Ledger.flush, single returns, returns]
  | false =>
      cases shape : mode.endScope <;> cases skip : mode.flags.skip <;>
        cases exclude : mode.flags.excludeEnd <;>
          simp [Ledger.placeEnd, Ledger.text, Ledger.flush, Ledger.hold, shape, skip, exclude, returns,
            String.append_assoc]

theorem leaveModes_taken (context : ScanContext) (count : Nat) (state : ScanState) :
    (context.leaveModes count state).taken = state.taken :=
  congrArg Ledger.text (leaveModes_ledger count state)

/-- Turning a mode on keeps the text gone through, provided that the groups of a match are given their
scopes only where the buffer holds just the text of the match. -/
theorem startMode_taken {place : Nat} {found : Pattern.RuleMatch} {data : HookData}
    {state after : ScanState} {lexeme : String}
    (matched : context.text.part found.start found.stop = .ok lexeme)
    (started : context.startMode place found data state = .ok after)
    (held : ∀ scopes, (context.grammar.mode place).beginScope = some (.groups scopes) →
      state.buffer = lexeme) :
    after.taken = state.taken := by
  have same := startMode_ledger matched started
  rw [ScanState.taken_eq, ScanState.taken_eq, same]
  unfold Ledger.start
  split
  · rfl
  · simp [Ledger.flush, Ledger.text]
  · rename_i scopes shape
    simp [Ledger.text, ← held scopes shape, ScanState.ledger]

end ScanContext

end Highlight
