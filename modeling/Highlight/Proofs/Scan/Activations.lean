import Highlight.Proofs.Scan.Bounds
import Highlight.Proofs.Scan.Turning
import Mathlib.Data.List.Forall2

set_option autoImplicit false

/-! Which match has begun a mode. A mode can be on several times at once, and a stack goes from one scan to
another, so what the hooks keep is told apart by the frames only. `Activated` carries along, for each frame,
the match that has put it on the stack; that is nothing a scan looks at. The hooks that compare an end match
with the begin match do compare it with that one, because frames are pushed with what the begin hook keeps,
and the end hook of a mode that compares changes nothing of it. -/

namespace Highlight

open Outcome

/-- The match that has begun a mode which is on, if it has not just followed another one. -/
abbrev Origin := Option HookMatch

namespace ScanContext

/-- The origins of the modes that are on behind a round, from those before it. -/
def originsBehind (context : ScanContext) (turn : Turn) (origins : List Origin) : List Origin :=
  match turn with
  | .rests => origins
  | .begins _ found _ => some (context.hookMatch found) :: origins
  | .ends _ count frames =>
    (context.outermost count frames).starts.toList.map (fun _ => none) ++ origins.drop count

/-- The states in which the rounds of a scan begin, with the origins of the modes that are on, if those of
the stack that it goes on with are given. -/
inductive Activated (context : ScanContext) (stack : ModeStack) (before : List Origin) :
    ScanState → List Origin → Prop
  | first : Activated context stack before (context.start (some stack)) before
  | next {state after : ScanState} {origins : List Origin}
      (earlier : Activated context stack before state origins)
      (stepped : context.step state = .ok (.advance after)) :
      Activated context stack before after (context.originsBehind (context.turn state) origins)

end ScanContext

/-- The stacks that scans with a grammar come to, one going on with the stack of another, and the origins of
the modes that are on. -/
inductive Grammar.Activates (grammar : Grammar) : ModeStack → List Origin → Prop
  | none : Activates grammar {} []
  | scan {context : ScanContext} {stack : ModeStack} {before : List Origin} {state : ScanState}
      {origins : List Origin} (same : context.grammar = grammar)
      (earlier : grammar.Activates stack before)
      (reached : context.Activated stack before state origins) :
      grammar.Activates state.stack origins

/-- What is kept for a mode whose hooks compare its end with its begin: the first group of the match that has
begun it. -/
def Grammar.Remembers (grammar : Grammar) (frame : Frame) (origin : Origin) : Prop :=
  ∀ began, origin = some began →
    (grammar.mode frame.mode).onBegin = some (.builtin .captureBeginMatch) →
    (grammar.mode frame.mode).onEnd = some (.builtin .endSameAsBegin) →
    frame.data.get? HookData.beginMatchKey = some began.firstGroup

/-! ### What the hooks do -/

/-- A hook that keeps the first group has the last word about it. -/
theorem ScanContext.runBeginHooks_captures {found : HookMatch} {hooks : List Hook} {data kept : HookData}
    (accepted : runBeginHooks found (hooks ++ [.builtin .captureBeginMatch]) data = some kept) :
    kept.get? HookData.beginMatchKey = some found.firstGroup := by
  induction hooks generalizing data with
  | nil =>
      obtain rfl := Option.some.inj accepted
      exact HookData.get?_insert_self _ _ _
  | cons hook rest ih =>
      simp only [List.cons_append, runBeginHooks] at accepted
      split at accepted
      · exact ih accepted
      · cases accepted

namespace Grammar

/-- Whether a mode that is on ends by its own end pattern where a match starts, and what is kept for it
then. -/
def asks (grammar : Grammar) (found : HookMatch) (frame : Frame) : Bool × HookData :=
  let mode := grammar.mode frame.mode
  if (mode.ends.bind fun regex => regex.matchAt found.text found.index).isSome then
    match mode.onEnd with
    | none => (true, frame.data)
    | some hook => ((hook.run found frame.data).1 == .accept, (hook.run found frame.data).2)
  else (false, frame.data)

end Grammar

namespace ScanContext

theorem endingModes_cons (grammar : Grammar) (found : HookMatch) (frame : Frame) (outer : List Frame) :
    endingModes grammar found (frame :: outer) =
      let asked := { frame with data := (grammar.asks found frame).2 }
      if (grammar.asks found frame).1 then
        (some (endingRun grammar (asked :: outer)), asked :: outer)
      else if (grammar.mode frame.mode).flags.endsWithParent then
        ((endingModes grammar found outer).1.map (· + 1), asked :: (endingModes grammar found outer).2)
      else (none, asked :: outer) := rfl

end ScanContext

namespace Grammar

variable {grammar : Grammar} {found : HookMatch}

theorem asks_iff (found : HookMatch) {frame : Frame}
    (compares : (grammar.mode frame.mode).onEnd = some (.builtin .endSameAsBegin)) :
    (grammar.asks found frame).1 = true ↔
      ((grammar.mode frame.mode).ends.bind fun regex =>
          regex.matchAt found.text found.index).isSome = true ∧
        frame.data.get? HookData.beginMatchKey = some found.firstGroup := by
  unfold asks
  dsimp only
  rw [compares]
  by_cases here : ((grammar.mode frame.mode).ends.bind fun regex =>
      regex.matchAt found.text found.index).isSome = true
  · rw [if_pos here]
    by_cases same : frame.data.get? HookData.beginMatchKey = some found.firstGroup
    · simp [Hook.run, BuiltinHook.run, BuiltinHook.acceptIf, here, same]
    · simp [Hook.run, BuiltinHook.run, BuiltinHook.acceptIf, same]
  · rw [if_neg here]
    simp [here]

theorem Remembers.asked {frame : Frame} {origin : Origin} (remembers : grammar.Remembers frame origin) :
    grammar.Remembers { frame with data := (grammar.asks found frame).2 } origin := by
  intro began same captures compares
  have kept := remembers began same captures compares
  have unchanged : (grammar.asks found frame).2 = frame.data := by
    unfold asks
    dsimp only at compares ⊢
    rw [compares]
    split
    · rfl
    · rfl
  dsimp only
  rw [unchanged]
  exact kept

theorem endingModes_remembers (found : HookMatch) {frames : List Frame} {origins : List Origin}
    (remembers : List.Forall₂ grammar.Remembers frames origins) :
    List.Forall₂ grammar.Remembers (ScanContext.endingModes grammar found frames).2 origins := by
  induction remembers with
  | nil => exact .nil
  | cons here others ih =>
      rw [ScanContext.endingModes_cons]
      dsimp only
      split
      · exact .cons here.asked others
      · split
        · exact .cons here.asked ih
        · exact .cons here.asked others

end Grammar

namespace ScanContext

variable {context : ScanContext} {state : ScanState} {stack : ModeStack} {before origins : List Origin}

/-! ### What is kept for the modes that are on -/

theorem BeginsMode.remembers {found : Pattern.RuleMatch} {place : Nat} {data : HookData}
    (begins : context.BeginsMode state found place data) :
    context.grammar.Remembers { mode := place, data } (some (context.hookMatch found)) := by
  intro began same captures _
  obtain rfl := Option.some.inj same
  dsimp only at captures ⊢
  have accepted := begins.accepted
  rw [captures] at accepted
  exact runBeginHooks_captures accepted

theorem step_remembers (remembers : List.Forall₂ context.grammar.Remembers state.stack.nested origins)
    {after : ScanState} (stepped : context.step state = .ok (.advance after)) :
    List.Forall₂ context.grammar.Remembers after.stack.nested
      (context.originsBehind (context.turn state) origins) := by
  cases turns : context.turn state with
  | rests =>
      rcases (rested_of_turn turns stepped).stack with same | ⟨found, frames, asks, same⟩
      · change after.stack = _ at same
        rw [same]
        exact remembers
      · change after.stack = _ at same
        have asked := Grammar.endingModes_remembers found remembers
        rw [asks] at asked
        rw [same]
        exact asked
  | begins place found data =>
      have begins := turn_eq_begins.mp turns
      have pushed : after.stack = state.stack.push place data := begins.stack stepped
      rw [pushed]
      exact .cons begins.remembers remembers
  | ends found count frames =>
      have ends := turn_eq_ends.mp turns
      have left : after.stack.nested = _ := ends.stack stepped
      have asked := Grammar.endingModes_remembers (context.hookMatch found) remembers
      rw [ends.accepted] at asked
      rw [left]
      unfold originsBehind
      dsimp only
      -- what follows the modes that have ended was begun by no match
      apply List.rel_append _ (List.forall₂_drop count asked)
      cases (context.outermost count frames).starts with
      | none => exact .nil
      | some next => exact .cons (fun _ impossible => by cases impossible) .nil

theorem Activated.remembers (reached : context.Activated stack before state origins)
    (kept : List.Forall₂ context.grammar.Remembers stack.nested before) :
    List.Forall₂ context.grammar.Remembers state.stack.nested origins := by
  induction reached with
  | first => exact kept
  | next _ stepped ih => exact step_remembers ih stepped

end ScanContext

theorem Grammar.Activates.remembers {grammar : Grammar} {stack : ModeStack} {origins : List Origin}
    (activates : grammar.Activates stack origins) :
    List.Forall₂ grammar.Remembers stack.nested origins := by
  induction activates with
  | none => exact .nil
  | scan same _ reached ih =>
      subst same
      exact reached.remembers ih

/-! ### Every stack has a history -/

namespace ScanContext

variable {context : ScanContext} {state : ScanState} {stack : ModeStack} {before origins : List Origin}

theorem RoundStart.exists_activated {stack : Option ModeStack}
    (reached : context.RoundStart stack state) (before : List Origin) :
    ∃ origins, context.Activated (stack.getD {}) before state origins := by
  induction reached with
  | first =>
      cases stack with
      | none => exact ⟨before, .first⟩
      | some stack => exact ⟨before, .first⟩
  | next _ stepped ih =>
      obtain ⟨origins, earlier⟩ := ih
      exact ⟨_, .next earlier stepped⟩

theorem stack_of_finish {last : ScanState} (stepped : context.step state = .ok (.finish last)) :
    last.stack = state.stack := by
  have round := round_of_step context stepped
  generalize shape : Progress.finish last = progress at round
  cases round with
  | exhausted =>
      obtain rfl := Progress.finish.inj shape
      rfl
  | @char found lexeme arrived arrival =>
      have state : last = (context.takeChar found.start arrived).state := congrArg Progress.state shape
      obtain ⟨_, _, _, rfl⟩ := arrival.reaches
      rw [state]
      unfold takeChar
      split
      · rfl
      · rfl
  | ignored => cases shape
  | begins => cases shape
  | refused => cases shape
  | ends => cases shape
  | continues => cases shape

theorem runRounds_activated (rounds : Nat) (reached : context.Activated stack before state origins) :
    ∃ last origins, context.Activated stack before last origins ∧
      (context.runRounds rounds state).state.stack = last.stack := by
  induction rounds generalizing state origins with
  | zero => exact ⟨state, origins, reached, rfl⟩
  | succ rounds ih =>
      unfold runRounds
      cases stepped : context.step state with
      | error halt => exact ⟨state, origins, reached, rfl⟩
      | ok progress =>
          cases progress with
          | finish last => exact ⟨state, origins, reached, stack_of_finish stepped⟩
          | advance after => exact ih (.next reached stepped)

theorem run_activated (context : ScanContext) (stack : Option ModeStack) (before : List Origin) :
    ∃ last origins, context.Activated (stack.getD {}) before last origins ∧
      (context.run stack).state.stack = last.stack := by
  have starts : context.RoundStart stack (context.start stack) := .first
  obtain ⟨origins, begun⟩ := starts.exists_activated before
  obtain ⟨last, origins, reached, same⟩ := runRounds_activated
    (context.settings.limits.mostRounds context.text.byteSize) begun
  refine ⟨last, origins, reached, ?_⟩
  unfold run
  dsimp only
  generalize context.runRounds _ _ = rounded at same ⊢
  split
  · exact same
  · split
    · rename_i state taken
      obtain ⟨rest, _, flushed⟩ := bind_eq_ok.mp taken
      exact (flush_sameCourse context flushed).stack.trans same
    · exact same

end ScanContext

theorem Grammar.Saved.exists_activates {grammar : Grammar} {stack : ModeStack}
    (saved : grammar.Saved stack) : ∃ origins, grammar.Activates stack origins := by
  induction saved with
  | @of_scan context stack scanned last same earlier scan left ih =>
      have begun : ∃ before, grammar.Activates (stack.getD {}) before := by
        cases stack with
        | none => exact ⟨[], .none⟩
        | some stack => exact ih stack rfl
      obtain ⟨before, activates⟩ := begun
      obtain ⟨state, origins, reached, stopped⟩ := ScanContext.run_activated context stack before
      rw [ScanContext.stack_of_scan scan left] at stopped
      rw [stopped]
      exact ⟨origins, .scan same activates reached⟩

/-! ### Ends that are compared with begins -/

namespace ScanContext

variable {context : ScanContext} {state : ScanState} {found : Pattern.RuleMatch} {frame : Frame}
  {outer : List Frame}

/-- The innermost mode ends with a match by its own end pattern, and not because one around it does. -/
structure EndsItself (context : ScanContext) (state : ScanState) (found : Pattern.RuleMatch)
    (frame : Frame) (outer : List Frame) : Prop extends Meets context state found where
  rule : found.rule = .ends
  nested : state.stack.nested = frame :: outer
  accepted : (context.grammar.asks (context.hookMatch found) frame).1 = true

theorem EndsItself.exists_endsModes (ends : context.EndsItself state found frame outer) :
    ∃ count frames, context.EndsModes state found (count + 1) frames := by
  have asks := endingModes_cons context.grammar (context.hookMatch found) frame outer
  rw [if_pos ends.accepted] at asks
  have bounds := endingModes_count (congrArg Prod.fst asks)
  obtain ⟨count, counted⟩ := Nat.exists_eq_add_of_le' bounds.1
  rw [counted, ← ends.nested] at asks
  exact ⟨count, _, { ends.toMeets with rule := ends.rule, accepted := asks }⟩

theorem EndsModes.endsItself {count : Nat} {frames : List Frame}
    (ends : context.EndsModes state found count frames) (nested : state.stack.nested = frame :: outer)
    (alone : (context.grammar.mode frame.mode).flags.endsWithParent = false) :
    context.EndsItself state found frame outer := by
  refine { ends.toMeets with rule := ends.rule, nested, accepted := ?_ }
  have accepted := ends.accepted
  rw [nested, endingModes_cons, alone] at accepted
  split at accepted
  · assumption
  · cases congrArg Prod.fst accepted

/-- Every stack that a scan leaves has a history. Whatever the history, a mode whose hooks compare its end
with its begin ends by its own end pattern exactly if the first group of the end match is that of the match
which has begun this very activation of the mode, in whichever scan that was and whatever other activations
of it there have been since. Modes end in that round then; and none do otherwise, unless the mode ends with
the one around it. -/
theorem endsItself_iff (nested : state.stack.nested = frame :: outer)
    (captures : (context.grammar.mode frame.mode).onBegin = some (.builtin .captureBeginMatch))
    (compares : (context.grammar.mode frame.mode).onEnd = some (.builtin .endSameAsBegin))
    (meets : context.Meets state found) (rule : found.rule = .ends) :
    (∀ saved, context.grammar.Saved saved → ∃ before, context.grammar.Activates saved before) ∧
    (∀ stack before began older, context.grammar.Activates stack before →
      context.Activated stack before state (some began :: older) →
      (context.EndsItself state found frame outer ↔
        ((context.grammar.mode frame.mode).ends.bind fun regex =>
            regex.matchAt context.text found.start).isSome = true ∧
          (context.hookMatch found).firstGroup = began.firstGroup)) ∧
    (context.EndsItself state found frame outer →
      ∃ count frames, context.EndsModes state found (count + 1) frames) ∧
    ((context.grammar.mode frame.mode).flags.endsWithParent = false →
      ∀ count frames, context.EndsModes state found count frames →
        context.EndsItself state found frame outer) := by
  refine ⟨fun saved left => left.exists_activates, fun stack before began older activates reached => ?_,
    fun ends => ends.exists_endsModes, fun alone count frames ends => ends.endsItself nested alone⟩
  have remembers := reached.remembers activates.remembers
  rw [nested] at remembers
  obtain ⟨here, _⟩ := List.forall₂_cons.mp remembers
  have kept := here began rfl captures compares
  have answer := Grammar.asks_iff (context.hookMatch found) compares
  rw [kept, Option.some.injEq] at answer
  constructor
  · intro ends
    obtain ⟨matches_, same⟩ := answer.mp ends.accepted
    exact ⟨matches_, same.symm⟩
  · rintro ⟨matches_, same⟩
    exact { meets with rule, nested, accepted := answer.mpr ⟨matches_, same.symm⟩ }

/-- A grammar of one mode, which can begin in itself and ends with the letter that it has begun with. -/
def lettering : GrammarDefinition where
  root := {
    contains := [.inline {
      begins := some (.one "<(\\w)")
      ends := some (.one "(\\w)>")
      contains := [.itself]
      onBegin := some (.builtin .captureBeginMatch)
      onEnd := some (.builtin .endSameAsBegin) }] }

def activations? (context : ScanContext) :
    Nat → ScanState → List Origin → Option (ScanState × List Origin)
  | 0, state, origins => some (state, origins)
  | rounds + 1, state, origins =>
    (context.advanced? state).bind fun after =>
      activations? context rounds after (context.originsBehind (context.turn state) origins)

theorem activated_of_activations? {stack : ModeStack} {before origins : List Origin} {rounds : Nat}
    (reached : context.Activated stack before state origins) {last : ScanState × List Origin}
    (found : context.activations? rounds state origins = some last) :
    context.Activated stack before last.1 last.2 := by
  induction rounds generalizing state origins with
  | zero =>
      obtain rfl := Option.some.inj found
      exact reached
  | succ rounds ih =>
      obtain ⟨after, advanced, found⟩ := Option.bind_eq_some_iff.mp found
      exact ih (reached.next (step_of_advanced? advanced)) found

def hookOf? : Option Hook → Option BuiltinHook
  | some (.builtin hook) => some hook
  | _ => none

theorem eq_of_hookOf? {given : Option Hook} {hook : BuiltinHook} (known : hookOf? given = some hook) :
    given = some (.builtin hook) := by
  unfold hookOf? at known
  split at known
  · rw [Option.some.inj known]
  · cases known

/-- The begin match of the first of two activations, the second of which begins in it. -/
def opening : HookMatch :=
  { text := Text.ofString "<a<b", index := 0, captures := #[some ⟨0, 2⟩, some ⟨1, 2⟩] }

def closing : Pattern.RuleMatch :=
  { rule := .ends, start := 4, stop := 6, captures := #[some ⟨4, 6⟩, some ⟨4, 5⟩] }

/-- A scan that goes on with both passes over an end that is not that of the second one. -/
theorem endsItself_iff_lettering : ∃ grammar stack before state older frame outer,
    Grammar.compile Pattern.engine "a" lettering = .ok grammar ∧ grammar.Activates stack before ∧
      (Catalog.nestedContext {} 0 grammar "a>b>a>" {}).Activated stack before state
        (some opening :: older) ∧
      (Catalog.nestedContext {} 0 grammar "a>b>a>" {}).EndsItself state closing frame outer := by
  have answers : (Grammar.compile Pattern.engine "a" lettering).toOption.any (fun grammar =>
      let first := Catalog.nestedContext {} 0 grammar "<a<b" {}
      let second := Catalog.nestedContext {} 0 grammar "a>b>a>" {}
      decide (hookOf? (grammar.mode 1).onBegin = some .captureBeginMatch ∧
        hookOf? (grammar.mode 1).onEnd = some .endSameAsBegin ∧
        ((grammar.mode 1).ends.bind fun regex =>
          regex.matchAt (Text.ofString "a>b>a>") 4).isSome = true ∧
        ∃ begun ∈ first.activations? 2 (first.start (some {})) [],
          ∃ last ∈ second.activations? 2 (second.start (some begun.1.stack)) begun.2,
            second.Meets last.1 closing ∧ last.2 = [some opening] ∧
            last.1.stack.nested.map Frame.mode = [1])) = true := by
    decide +kernel
  obtain ⟨grammar, compiled, captures, compares, ends, begun, starts, last, stops, meets, origin,
    modes⟩ := exists_of_any answers
  obtain ⟨frame, nested, placed⟩ := List.map_eq_singleton_iff.mp modes
  have begins : (Catalog.nestedContext {} 0 grammar "<a<b" {}).Activated {} [] begun.1 begun.2 :=
    activated_of_activations? .first starts
  have activates : grammar.Activates begun.1.stack begun.2 := .scan rfl .none begins
  have reached := activated_of_activations? .first stops
  refine ⟨grammar, begun.1.stack, begun.2, last.1, [], frame, [], compiled, activates,
    origin ▸ reached, ?_⟩
  rw [← placed] at captures compares ends
  exact ((endsItself_iff nested (eq_of_hookOf? captures) (eq_of_hookOf? compares) meets rfl).2.1 _ _ opening []
    activates (origin ▸ reached)).mpr ⟨ends, rfl⟩

end ScanContext

end Highlight
