import Highlight.Proofs.Grammar.Places
import Highlight.Proofs.Scan.Conservation
import Mathlib.Data.List.Chain

set_option autoImplicit false

/-! Which modes can be on, and which scopes are open with them. A mode stands on another one if that
contains it or contains a mode which it continues. The invariant of the rounds is that each mode stands
on the one below it and that the open scopes are those of the modes that are on; it holds at the start
of a scan that goes on with the stack of an earlier one, because it holds at the end of each scan. That
the root is below all others and nowhere else follows from it. -/

namespace Highlight

open Outcome

namespace ModeStack

variable {grammar : Grammar}

theorem modes_push (stack : ModeStack) (mode : Nat) (data : HookData) :
    (stack.push mode data).modes = stack.modes ++ [mode] := by
  simp [modes, push]

theorem modes_of_frames {first second : List Frame}
    (same : first.map Frame.mode = second.map Frame.mode) :
    (⟨first⟩ : ModeStack).modes = (⟨second⟩ : ModeStack).modes := by
  simp [modes, List.map_reverse, same]

theorem getLast?_modes (stack : ModeStack) : stack.modes.getLast? = some stack.top := by
  obtain ⟨nested⟩ := stack
  cases nested with
  | nil => rfl
  | cons frame outer => simp [modes, top, List.getLast?_cons]

def Stands (grammar : Grammar) (stack : ModeStack) : Prop :=
  stack.modes.IsChain grammar.StandsOn

theorem stands_push_iff {stack : ModeStack} {mode : Nat} {data : HookData} :
    (stack.push mode data).Stands grammar ↔
      stack.Stands grammar ∧ grammar.StandsOn stack.top mode := by
  unfold Stands
  rw [modes_push, List.isChain_append, getLast?_modes]
  simp

theorem Stands.drop {frames : List Frame} (stands : (⟨frames⟩ : ModeStack).Stands grammar)
    (count : Nat) : (⟨frames.drop count⟩ : ModeStack).Stands grammar := by
  induction count generalizing frames with
  | zero => exact stands
  | succ count ih =>
      cases frames with
      | nil => exact stands
      | cons frame outer =>
          have below : (⟨outer⟩ : ModeStack).Stands grammar := (stands_push_iff.mp stands).1
          exact ih below

theorem Stands.holds {stack : ModeStack} (stands : stack.Stands grammar) {first : Nat}
    (closed : grammar.Closed first) : ∀ place ∈ stack.modes.tail, grammar.Holds first place := by
  have above : ∀ (places : List Nat) (below : Nat), (below :: places).IsChain grammar.StandsOn →
      ∀ place ∈ places, grammar.Holds first place := by
    intro places
    induction places with
    | nil => simp
    | cons next rest ih =>
        intro below chain place member
        obtain ⟨stands, others⟩ := List.isChain_cons_cons.mp chain
        rcases List.mem_cons.mp member with rfl | later
        · exact stands.holds closed
        · exact ih next others place later
  exact above _ _ stands

theorem Stands.below {frames : List Frame} (stands : (⟨frames⟩ : ModeStack).Stands grammar)
    {count : Nat} {frame : Frame} (found : frames[count]? = some frame) :
    grammar.StandsOn (⟨frames.drop (count + 1)⟩ : ModeStack).top frame.mode := by
  obtain ⟨within, rfl⟩ := List.getElem?_eq_some_iff.mp found
  have upper := stands.drop count
  rw [List.drop_eq_getElem_cons within] at upper
  exact (stands_push_iff.mp upper).2

end ModeStack

namespace ScanContext

variable {context : ScanContext} {first : Nat}

theorem scopeNames_of_frames {first second : List Frame}
    (same : first.map Frame.mode = second.map Frame.mode) :
    context.scopeNames first = context.scopeNames second := by
  have byModes : ∀ frames : List Frame, context.scopeNames frames =
      (frames.map Frame.mode).filterMap fun place =>
        (context.grammar.mode place).scope.map context.grammar.resolveScope := by
    intro frames
    rw [List.filterMap_map]
    rfl
  rw [byModes, byModes, same]

/-- The modes that are on stand on each other, and the scopes that are open are theirs. -/
structure Nests (context : ScanContext) (state : ScanState) : Prop where
  stands : state.stack.Stands context.grammar
  openNames : state.tree.openNames = context.scopeNames state.stack.nested

/-! ### One round -/

theorem Nests.of_same {before after : ScanState} (nests : context.Nests before)
    (stack : after.stack = before.stack)
    (openNames : after.tree.openNames = before.tree.openNames) : context.Nests after :=
  ⟨by rw [stack]; exact nests.stands, by rw [openNames, stack]; exact nests.openNames⟩

theorem Arrival.nests {state arrived : ScanState} {found : Pattern.RuleMatch} {lexeme : String}
    (arrival : context.Arrival state found lexeme arrived) (nests : context.Nests state) :
    context.Nests arrived := by
  obtain ⟨_, _, _, rfl⟩ := arrival.reaches
  exact nests.of_same rfl rfl

/-- What the hooks keep does not matter for which modes are on. -/
theorem Nests.with_frames {state : ScanState} (nests : context.Nests state) {frames : List Frame}
    (same : frames.map Frame.mode = state.stack.nested.map Frame.mode) :
    context.Nests { state with stack := ⟨frames⟩ } where
  stands := by
    unfold ModeStack.Stands
    rw [ModeStack.modes_of_frames same]
    exact nests.stands
  openNames := nests.openNames.trans (scopeNames_of_frames same).symm

theorem takeChar_nests {state : ScanState} (nests : context.Nests state) (position : Nat) :
    context.Nests (context.takeChar position state).state := by
  unfold takeChar
  split
  · exact nests.of_same rfl rfl
  · exact nests.of_same rfl rfl

theorem Nests.start {place : Nat} {found : Pattern.RuleMatch} {data : HookData}
    {state after : ScanState} (nests : context.Nests state)
    (stands : context.grammar.StandsOn state.stack.top place)
    (started : context.startMode place found data state = .ok after) : context.Nests after := by
  obtain ⟨stack, openNames⟩ := startMode_course started
  refine ⟨?_, ?_⟩
  · rw [stack]
    exact ModeStack.stands_push_iff.mpr ⟨nests.stands, stands⟩
  · rw [openNames, stack, nests.openNames]
    cases named : (context.grammar.mode place).scope <;> simp [scopeNames, ModeStack.push, named]

theorem Nests.leave {count : Nat} {state : ScanState} (nests : context.Nests state)
    (within : count ≤ state.stack.nested.length) :
    context.Nests (context.leaveModes count state) := by
  have stack := leaveModes_stack context count state
  refine ⟨?_, ?_⟩
  · rw [stack]
    exact nests.stands.drop count
  · rw [leaveModes_openNames nests.openNames within, stack]

theorem rule_mem_of_find? {set : Pattern.RuleSet} {text : Text} {position : Nat}
    {found : Pattern.RuleMatch} (sighted : set.find? text position = some found) :
    found.rule ∈ set.rules := by
  obtain ⟨regex, _, sighted⟩ := Option.bind_eq_some_iff.mp sighted
  obtain ⟨captures, _, sighted⟩ := Option.bind_eq_some_iff.mp sighted
  obtain ⟨whole, _, sighted⟩ := Option.bind_eq_some_iff.mp sighted
  obtain ⟨⟨rule, wrapper, groups⟩, first, sighted⟩ := Option.bind_eq_some_iff.mp sighted
  obtain rfl := Option.some.inj sighted
  exact (List.of_mem_zip (List.mem_of_find?_eq_some first)).1

theorem modes_of_endingModes {grammar : Grammar} {found : HookMatch} {before frames : List Frame}
    {count : Option Nat} (asks : endingModes grammar found before = (count, frames)) :
    frames.map Frame.mode = before.map Frame.mode := by
  have same := endingModes_modes grammar found before
  rwa [asks] at same

/-- The modes that end with a match are on while its text is put where it belongs. -/
theorem Nests.ending {arrived placed : ScanState} {found : Pattern.RuleMatch} {lexeme : String}
    {mode : Mode} {count : Nat} {frames : List Frame} (nests : context.Nests arrived)
    (asks : endingModes context.grammar (context.hookMatch found) arrived.stack.nested =
      (some count, frames))
    (places : context.placeEndLexeme mode found lexeme { arrived with stack := ⟨frames⟩ } =
      .ok placed) :
    context.Nests placed ∧ placed.stack = ⟨frames⟩ ∧ 0 < count ∧ count ≤ frames.length := by
  have modes := modes_of_endingModes asks
  have bounds := endingModes_count (congrArg Prod.fst asks)
  have sameLength : frames.length = arrived.stack.nested.length := by
    simpa using congrArg List.length modes
  obtain ⟨stack, openNames⟩ := placeEndLexeme_course places
  exact ⟨(nests.with_frames modes).of_same stack openNames, stack, bounds.1, by omega⟩

/-- A round keeps the modes that are on standing on each other and their scopes open. -/
theorem Round.nests {state : ScanState} {progress : Progress} (closed : context.grammar.Closed first)
    (nests : context.Nests state) (round : context.Round state progress) :
    context.Nests progress.state := by
  cases round with
  | exhausted => exact nests.of_same rfl rfl
  | char arrival => exact takeChar_nests (arrival.nests nests) _
  | ignored arrival => exact (arrival.nests nests).of_same rfl rfl
  | refused arrival asks =>
      exact ((arrival.nests nests).with_frames (modes_of_endingModes asks)).of_same rfl rfl
  | @begins found lexeme arrived placed started place data arrival rule places starts =>
      obtain ⟨stack, openNames⟩ := placeBeginLexeme_course places
      obtain ⟨matcher, compiled, sighted⟩ := arrival.sights
      obtain ⟨_, _, _, rfl⟩ := arrival.reaches
      have member := rule_mem_of_find? sighted
      rw [rule] at member
      have stands : context.grammar.StandsOn placed.stack.top place := by
        rw [stack]
        exact ⟨place, closed.begins _ matcher place compiled member, Relation.ReflTransGen.refl⟩
      have placedNests : context.Nests placed := (arrival.nests nests).of_same stack openNames
      exact (placedNests.start stands starts).of_same rfl rfl
  | @ends found lexeme arrived placed count frames arrival asks places =>
      obtain ⟨placedNests, stack, _, within⟩ := (arrival.nests nests).ending asks places
      have leftNests : context.Nests (context.leaveModes count placed) :=
        placedNests.leave (by rw [stack]; exact within)
      exact leftNests.of_same rfl rfl
  | @continues found lexeme arrived placed started count next frames outer arrival asks places
      outermost follows starts =>
      obtain ⟨placedNests, stack, positive, within⟩ := (arrival.nests nests).ending asks places
      have leftNests : context.Nests (context.leaveModes count placed) :=
        placedNests.leave (by rw [stack]; exact within)
      -- the mode that starts comes to stand where the outermost one that ends has stood
      have outerStands : context.grammar.StandsOn (⟨frames.drop count⟩ : ModeStack).top outer.mode := by
        have frameStands : (⟨frames⟩ : ModeStack).Stands context.grammar :=
          stack ▸ placedNests.stands
        have below := frameStands.below outermost
        rwa [Nat.sub_add_cancel positive] at below
      have stands : context.grammar.StandsOn (context.leaveModes count placed).stack.top next := by
        rw [leaveModes_stack, stack]
        exact outerStands.starts follows
      exact (leftNests.start stands starts).of_same rfl rfl

/-! ### A whole scan -/

theorem start_openNames (context : ScanContext) (stack : ModeStack) :
    (context.start (some stack)).tree.openNames = context.scopeNames stack.nested := by
  have opened : ∀ (frames : List Frame) (tree : TreeBuilder),
      (frames.foldl context.openFrame tree).openNames =
        context.scopeNames frames.reverse ++ tree.openNames := by
    intro frames
    induction frames with
    | nil => exact fun tree => rfl
    | cons frame rest ih =>
        intro tree
        rw [List.foldl_cons, ih]
        cases named : (context.grammar.mode frame.mode).scope <;> simp [openFrame, scopeNames, named]
  have same := opened stack.nested.reverse {}
  rw [List.reverse_reverse, TreeBuilder.openNames_empty, List.append_nil] at same
  exact same

theorem start_nests {stack : Option ModeStack}
    (stands : ∀ saved, stack = some saved → saved.Stands context.grammar) :
    context.Nests (context.start stack) := by
  cases stack with
  | none => exact ⟨List.isChain_singleton _, rfl⟩
  | some saved => exact ⟨stands saved rfl, start_openNames context saved⟩

theorem runRounds_nests (closed : context.grammar.Closed first) (rounds : Nat) {state : ScanState}
    (nests : context.Nests state) : context.Nests (context.runRounds rounds state).state := by
  induction rounds generalizing state with
  | zero => exact nests
  | succ rounds ih =>
      unfold runRounds
      cases stepped : context.step state with
      | error halt => exact nests
      | ok progress =>
          have kept := (round_of_step context stepped).nests closed nests
          cases progress with
          | advance next => exact ih kept
          | finish last => exact kept

theorem run_nests (closed : context.grammar.Closed first) {stack : Option ModeStack}
    (stands : ∀ saved, stack = some saved → saved.Stands context.grammar) :
    context.Nests (context.run stack).state := by
  unfold run
  dsimp only
  have nests := runRounds_nests closed
    (context.settings.limits.mostRounds context.text.byteSize) (start_nests stands)
  generalize context.runRounds _ _ = rounded at nests ⊢
  split
  · exact nests
  · split
    · rename_i state taken
      obtain ⟨rest, _, flushed⟩ := bind_eq_ok.mp taken
      have course := flush_sameCourse context flushed
      exact nests.of_same course.stack course.openNames
    · exact nests

/-- A scan leaves behind the stack with which it has stopped, or none. -/
theorem stack_of_scan {stack : Option ModeStack} {scanned : Scanned} {last : ModeStack}
    (scan : context.scan stack = .ok scanned) (left : scanned.stack = some last) :
    (context.run stack).state.stack = last := by
  unfold ScanContext.scan result at scan
  split at scan
  · obtain rfl := Except.ok.inj scan
    exact Option.some.inj left
  · split at scan
    · obtain rfl := Except.ok.inj scan
      dsimp only at left
      split at left
      · cases left
      · exact Option.some.inj left
    · cases scan
  · cases scan

/-- The states in which the rounds of a scan begin. -/
inductive RoundStart (context : ScanContext) (stack : Option ModeStack) : ScanState → Prop
  | first : RoundStart context stack (context.start stack)
  | next {state after : ScanState} (earlier : RoundStart context stack state)
      (stepped : context.step state = .ok (.advance after)) : RoundStart context stack after

theorem RoundStart.nests {stack : Option ModeStack} {state : ScanState}
    (closed : context.grammar.Closed first)
    (stands : ∀ saved, stack = some saved → saved.Stands context.grammar)
    (reached : context.RoundStart stack state) : context.Nests state := by
  induction reached with
  | first => exact start_nests stands
  | next _ stepped ih => exact (round_of_step context stepped).nests closed ih

end ScanContext

/-- The stacks that scans with a grammar leave behind, whatever their texts and settings and whatever
scan left the stack behind with which they have gone on. -/
inductive Grammar.Saved (grammar : Grammar) : ModeStack → Prop
  | of_scan {context : ScanContext} {stack : Option ModeStack} {scanned : Scanned}
      {last : ModeStack} (same : context.grammar = grammar)
      (earlier : ∀ saved, stack = some saved → grammar.Saved saved)
      (scan : context.scan stack = .ok scanned) (left : scanned.stack = some last) :
      grammar.Saved last

theorem Grammar.Saved.stands {grammar : Grammar} {first : Nat} (closed : grammar.Closed first)
    {stack : ModeStack} (saved : grammar.Saved stack) : stack.Stands grammar := by
  induction saved with
  | of_scan same _ scan left ih =>
      subst same
      rw [← ScanContext.stack_of_scan scan left]
      exact (ScanContext.run_nests closed ih).stands

namespace ScanContext

/-- The state of a scan is in order: the root mode is on below all others and nowhere else, all modes
that are on are there, each stands on the one below it, and the open scopes are exactly theirs, from
the outermost one on. -/
structure Standing (context : ScanContext) (state : ScanState) : Prop where
  bottom : state.stack.modes.head? = some Mode.root
  once : Mode.root ∉ state.stack.modes.tail
  within : ∀ place ∈ state.stack.modes, place < context.grammar.modes.size
  stands : state.stack.modes.IsChain context.grammar.StandsOn
  scopes : state.tree.openNames.reverse = state.stack.modes.tail.filterMap fun place =>
    (context.grammar.mode place).scope.map context.grammar.resolveScope

theorem standing_of_nests {context : ScanContext} {state : ScanState}
    (closed : context.grammar.Closed 1) (nests : context.Nests state) : context.Standing state where
  bottom := rfl
  once := fun member => Nat.lt_irrefl 0 (nests.stands.holds closed Mode.root member).1
  within := by
    intro place member
    rcases List.mem_cons.mp member with rfl | above
    · exact closed.root
    · exact (nests.stands.holds closed place above).2
  stands := nests.stands
  scopes := by
    rw [nests.openNames]
    simp only [scopeNames, ModeStack.modes, List.tail_cons, List.filterMap_map,
      List.filterMap_reverse]
    rfl

/-- Each round of a scan begins in order, if the grammar was compiled without extensions and the scan
is a fresh one or goes on with a stack that an earlier scan with the grammar has left behind. -/
theorem RoundStart.standing {engine : Pattern.Engine} {name : String}
    {definition : GrammarDefinition} {context : ScanContext}
    (compiled : Grammar.compile engine name definition = .ok context.grammar)
    (plain : definition.extensions = []) {stack : Option ModeStack}
    (saved : ∀ earlier, stack = some earlier → context.grammar.Saved earlier) {state : ScanState}
    (reached : context.RoundStart stack state) : context.Standing state := by
  have closed := Grammar.closed_of_compile compiled plain
  exact standing_of_nests closed (reached.nests closed fun earlier same => (saved earlier same).stands closed)

/-- A grammar in which what stands between bars is a string. -/
def piped : GrammarDefinition where
  root := {
    contains := [.inline {
      scope := some (.name "string")
      begins := some (.one "\\|")
      ends := some (.one "\\|") }] }

def pipedScan (grammar : Grammar) (text : String) : ScanContext where
  catalog := {}
  grammar := grammar
  text := Text.ofString text
  settings := {}
  embedded := fun _ _ _ _ => .error .tooDeep

def onward? : Progress → Option Nat
  | .advance after => some after.position
  | .finish _ => none

theorem RoundStart.standing_piped :
    ∃ grammar state, Grammar.compile Pattern.engine "piped" piped = .ok grammar ∧
      grammar.Saved ⟨[{ mode := 1 }]⟩ ∧
      (pipedScan grammar "c|d").RoundStart (some ⟨[{ mode := 1 }]⟩) state ∧ state.position = 2 ∧
      (pipedScan grammar "c|d").Standing state := by
  have succeeds : (Grammar.compile Pattern.engine "piped" piped).isOk = true := by decide +kernel
  obtain ⟨grammar, compiled⟩ := exists_of_isOk succeeds
  have left : ((Grammar.compile Pattern.engine "piped" piped).toOption.bind fun grammar =>
      ((pipedScan grammar "a|b").scan none).toOption.bind Scanned.stack) =
        some ⟨[{ mode := 1 }]⟩ := by decide +kernel
  have goesOn : ((Grammar.compile Pattern.engine "piped" piped).toOption.bind fun grammar =>
      ((pipedScan grammar "c|d").step ((pipedScan grammar "c|d").start
        (some ⟨[{ mode := 1 }]⟩))).toOption.bind onward?) = some 2 := by decide +kernel
  rw [compiled] at left goesOn
  change ((pipedScan grammar "a|b").scan none).toOption.bind Scanned.stack = _ at left
  obtain ⟨progress, stepped, onward⟩ := Option.bind_eq_some_iff.mp
    ((Option.bind_some _ _).symm.trans goesOn)
  cases progress with
  | finish => cases onward
  | advance after =>
      obtain ⟨scanned, scan, stack⟩ := Option.bind_eq_some_iff.mp left
      have saved : grammar.Saved ⟨[{ mode := 1 }]⟩ :=
        Grammar.Saved.of_scan rfl (by simp) (eq_ok_of_toOption scan) stack
      have reached := RoundStart.next RoundStart.first (eq_ok_of_toOption stepped)
      exact ⟨grammar, after, compiled, saved, reached, Option.some.inj onward,
        RoundStart.standing compiled rfl (fun earlier same => Option.some.inj same ▸ saved) reached⟩

end ScanContext

end Highlight
