import Highlight.Proofs.Scan.Parts
import Highlight.Proofs.Scan.Spans
import Highlight.Proofs.Scan.Standing
import Highlight.Registry

set_option autoImplicit false

/-! A scan stays in its text. Each part of the text that is asked for lies between two positions that
are in order and in the text: a match starts behind the position of the scan, and each round goes on
from the start or the end of its match. Only the groups of a match are not bound to that, so the parts
between them are there as long as none that is given a scope ends behind the match. `Stays` is carried
through the steps of a round, then through all rounds, and through nested scans by induction on their
depth. -/

namespace Highlight

open Outcome

/-- Whether a scan of a text can stop for a reason: it has not left the text, and text that does not
belong is reported at a position of it. -/
def Halt.Within (text : Text) : Halt → Prop
  | .outOfText => False
  | .failed (.illegalLexeme _ _ _ offset) => ∃ position ≤ text.size, text.byteOffset position = offset
  | _ => True

/-- A computation that stays within a text, and gives something with a property if it succeeds. -/
abbrev Stays {α : Type} (text : Text) (held : α → Prop) (outcome : Except Halt α) : Prop :=
  Satisfies (Halt.Within text) held outcome

theorem Text.part_stays {text other : Text} {start stop : Nat} (order : start ≤ stop)
    (within : stop ≤ text.size) : Stays other (fun _ => True) (text.part start stop) := by
  have there : text.part start stop = .ok (String.ofList (text.between start stop)) :=
    part_eq_ok_iff.mpr ⟨⟨order, within⟩, rfl⟩
  rw [there]
  exact Satisfies.ok trivial

theorem Text.byteOffset_mono (text : Text) {start stop : Nat} (order : start ≤ stop) :
    text.byteOffset start ≤ text.byteOffset stop := by
  obtain ⟨more, rfl⟩ := Nat.exists_eq_add_of_le order
  unfold Text.byteOffset
  rw [List.take_add, bytesOf_append]
  exact Nat.le_add_right _ _

namespace ScanContext

def Continued (context : ScanContext) (state : ScanState) : Prop :=
  ∀ entry ∈ state.continuations.entries, ∀ grammar, context.catalog.find? entry.1 = some grammar →
    grammar.Saved entry.2

theorem Continued.of_same {context : ScanContext} {before after : ScanState}
    (continued : context.Continued before) (same : after.continuations = before.continuations) :
    context.Continued after := by
  unfold Continued
  rw [same]
  exact continued

/-- Embedded scans that go on with the stack of an earlier scan stay in their texts, do not fail if they
are lenient, and leave behind a stack for a later scan. -/
structure EmbedsInText (context : ScanContext) : Prop where
  halts : ∀ entry ∈ context.catalog.grammars.entries, ∀ text settings stack halt,
    (∀ earlier, stack = some earlier → entry.2.Saved earlier) → settings.lenient = true →
    context.embedded entry.2 text settings stack = .error halt → halt = .tooDeep
  leaves : ∀ entry ∈ context.catalog.grammars.entries, ∀ text settings stack scanned last,
    (∀ earlier, stack = some earlier → entry.2.Saved earlier) →
    context.embedded entry.2 text settings stack = .ok scanned → scanned.stack = some last →
    entry.2.Saved last

section

variable {context : ScanContext} {text : Text}

/-! ### Text on its way into the tree -/

theorem emitWords_stays {table : KeywordTable} (lawful : table.pattern.Lawful) {words : Text}
    {rounds position last : Nat} {plain : String} {state : ScanState} (behind : last ≤ position)
    (within : last ≤ words.size) :
    Stays text (fun _ => True) (context.emitWords table words rounds position last plain state) := by
  have rest : ∀ {last : Nat} {plain : String} {state : ScanState}, last ≤ words.size →
      Stays text (fun _ => True) (do
        let rest ← words.part last words.size
        return state.addText (plain ++ rest) : Except Halt ScanState) :=
    fun within => (Text.part_stays within (Nat.le_refl _)).bind fun _ _ => Satisfies.ok trivial
  induction rounds generalizing position last plain state with
  | zero => exact rest within
  | succ rounds ih =>
      unfold emitWords
      split
      · exact rest within
      · rename_i span found
        obtain ⟨starts, order, stops⟩ := lawful.find?_within found
        refine (Text.part_stays order stops).bind fun word _ => ?_
        refine (Text.part_stays (Nat.le_trans behind starts) (Nat.le_trans order stops)).bind
          fun skipped _ => ?_
        generalize context.emitWord table word (plain ++ skipped) state = emission
        obtain ⟨left, between⟩ := emission
        have onward : span.stop ≤ if span.start < span.stop then span.stop else span.stop + 1 := by
          split <;> omega
        dsimp only
        generalize (if span.start < span.stop then span.stop else span.stop + 1) = next at onward ⊢
        by_cases more : next ≤ words.size
        · rw [if_pos more]
          exact ih onward stops
        · rw [if_neg more]
          exact rest stops

variable (lawful : context.grammar.Lawful)

include lawful in
theorem emitKeywords_stays (words : String) (state : ScanState) :
    Stays text (fun after => after.continuations = state.continuations)
      (context.emitKeywords words state) := by
  refine ⟨?_, fun after emitted => (emitKeywords_emits context emitted).continuations⟩
  unfold emitKeywords
  split
  · simp
  · rename_i table found
    exact (emitWords_stays (lawful.keywords _ _ found) (Nat.le_refl _) (Nat.zero_le _)).fails

include lawful in
/-- The groups of a match are added within the text, from a position within the match on, if they are
enclosed in it. -/
theorem emitGroups_inText {found : Pattern.RuleMatch} {position origin : Nat}
    (lies : found.Lies context.text origin) {groups : List (Nat × Option String)}
    (encloses : found.Encloses groups) {state : ScanState} (starts : found.start ≤ position)
    (stops : position ≤ found.stop) :
    Stays text (fun _ => True) (context.emitGroups found groups position state) := by
  have added : ∀ words state, Stays text (fun _ => True) (context.emitKeywords words state) :=
    fun words state => (emitKeywords_stays lawful words state).mono fun _ _ => trivial
  induction groups generalizing position state with
  | nil => exact (Text.part_stays stops lies.stop).bind fun _ _ => added _ _
  | cons entry rest ih =>
      have others : found.Encloses rest :=
        fun entry member => encloses entry (List.mem_cons_of_mem _ member)
      obtain ⟨group, scope⟩ := entry
      unfold emitGroups
      split
      · exact ih others starts stops
      · rename_i span spanned
        split
        · exact ih others starts stops
        · rename_i ahead
          have later : position ≤ span.start := Nat.le_of_not_lt ahead
          have order := (lies.spans group span spanned).1
          have enclosed : span.stop ≤ found.stop :=
            encloses _ List.mem_cons_self span spanned (Nat.le_trans starts later)
          have within := Nat.le_trans enclosed lies.stop
          refine (Text.part_stays later (Nat.le_trans order within)).bind fun between _ => ?_
          refine (added between state).bind fun middle _ => ?_
          refine (Text.part_stays order within).bind fun lexeme _ => ?_
          have onward : ∀ behind, Stays text (fun _ => True)
              (context.emitGroups found rest span.stop behind) :=
            fun behind => ih others (by omega) enclosed
          cases scope with
          | none => exact (added lexeme middle).bind fun behind _ => onward behind
          | some scope => exact onward _

include lawful in
theorem emitGroups_stays {found : Pattern.RuleMatch} {origin : Nat}
    (lies : found.Lies context.text origin) {groups : List (Nat × Option String)}
    (encloses : found.Encloses groups) (state : ScanState) :
    Stays text (fun after => after.continuations = state.continuations)
      (context.emitGroups found groups found.start state) := by
  refine ⟨(emitGroups_inText lawful lies encloses (Nat.le_refl _) lies.order).fails, ?_⟩
  intro after emitted
  obtain ⟨_, _, emits⟩ := emitGroups_emits context emitted
  exact emits.continuations

theorem resultOf_stays {scan : ScanWith} {limits : ScanLimits} {words : String} {grammar : Grammar}
    (halts : ∀ halt, scan grammar words (Detection.settings limits) none = .error halt →
      halt = .tooDeep) :
    Stays text (fun _ => True) (Detection.resultOf scan limits words grammar) := by
  unfold Detection.resultOf
  split
  · exact Satisfies.ok trivial
  · exact Satisfies.ok trivial
  · rename_i halt _ failed
    rw [halts halt failed]
    exact Satisfies.error trivial

theorem detect_stays {catalog : Catalog} {scan : ScanWith} {limits : ScanLimits} {words : String}
    (halts : ∀ entry ∈ catalog.grammars.entries, ∀ halt,
      scan entry.2 words (Detection.settings limits) none = .error halt → halt = .tooDeep)
    (candidates : Option (List String)) :
    Stays text (fun _ => True) (Detection.detect catalog scan words candidates limits) := by
  have all : Stays text (fun _ => True) ((Detection.participants catalog candidates).mapM
      (Detection.resultOf scan limits words)) := by
    refine Satisfies.mapM fun grammar member => ?_
    obtain ⟨entry, registered, rfl⟩ := Detection.mem_participants member
    exact resultOf_stays (halts entry registered)
  have results : Stays text (fun _ => True)
      (Detection.results catalog scan words candidates limits) :=
    all.bind fun _ _ => Satisfies.ok trivial
  exact results.bind fun _ _ => Satisfies.ok trivial

variable (embeds : context.EmbedsInText)

include embeds in
theorem emitEmbedded_stays (subLanguage : SubLanguage) (words : String) {state : ScanState}
    (continued : context.Continued state) :
    Stays text context.Continued (context.emitEmbedded subLanguage words state) := by
  unfold emitEmbedded
  split
  · exact Satisfies.ok continued
  · split
    · rename_i name
      split
      · exact Satisfies.ok continued
      · rename_i grammar found
        obtain ⟨entry, registered, rfl⟩ := Catalog.mem_of_find? found
        have saved : ∀ earlier, state.continuations.find? name = some earlier →
            entry.2.Saved earlier :=
          fun earlier stored => continued _ (Dictionary.mem_of_find? stored) _ found
        have scans : Stays text (fun scanned => ∀ last, scanned.stack = some last →
            entry.2.Saved last) (context.embedded entry.2 words
              { lenient := true, ignoreIllegal := true, limits := context.settings.limits }
              (state.continuations.find? name)) := by
          refine ⟨fun halt failed => ?_, fun scanned scan last left => ?_⟩
          · rw [embeds.halts entry registered _ _ _ halt saved rfl failed]
            trivial
          · exact embeds.leaves entry registered _ _ _ scanned last saved scan left
        refine scans.bind fun scanned leaves => Satisfies.ok fun stored member => ?_
        intro grammar registeredAs
        dsimp only [addEmbedded] at member
        cases left : scanned.stack with
        | none =>
            rw [left] at member
            exact continued stored (List.mem_filter.mp member).1 grammar registeredAs
        | some last =>
            rw [left] at member
            rcases Dictionary.mem_insertEntry member with rfl | earlier
            · obtain rfl := Option.some.inj (found.symm.trans registeredAs)
              exact leaves last left
            · exact continued stored earlier grammar registeredAs
    · rename_i candidates
      refine (detect_stays (fun entry registered halt failed => ?_) candidates).bind
        (fun result _ => Satisfies.ok continued)
      exact embeds.halts entry registered _ _ none halt (by simp) rfl failed

include lawful embeds in
theorem flush_stays {state : ScanState} (continued : context.Continued state) :
    Stays text context.Continued (context.flush state) := by
  unfold flush
  dsimp only
  split
  · exact emitEmbedded_stays embeds _ _ continued
  · exact (emitKeywords_stays lawful _ _).mono fun after same => continued.of_same same

/-! ### The parts of a round -/

include lawful in
theorem startMode_stays {place origin : Nat} {found : Pattern.RuleMatch} {data : HookData}
    {state : ScanState} (lies : found.Lies context.text origin)
    (encloses : ∀ scopes, (context.grammar.mode place).beginScope = some (.groups scopes) →
      found.Encloses scopes)
    (continued : context.Continued state) :
    Stays text context.Continued (context.startMode place found data state) := by
  unfold startMode
  extract_lets mode opened
  have openedContinued : context.Continued opened := by
    dsimp only [opened]
    split
    · exact continued
    · exact continued
  split
  · exact Satisfies.ok openedContinued
  · rename_i scopes shape
    exact (emitGroups_stays lawful lies (encloses scopes shape) opened).bind fun after same =>
      Satisfies.ok (openedContinued.of_same same)
  · exact Satisfies.ok openedContinued

include lawful embeds in
theorem placeBeginLexeme_stays (flags : ModeFlags) (lexeme : String) {state : ScanState}
    (continued : context.Continued state) :
    Stays text context.Continued (context.placeBeginLexeme flags lexeme state) := by
  unfold placeBeginLexeme
  split
  · exact Satisfies.ok continued
  · refine (flush_stays lawful embeds ?_).bind fun after kept => ?_
    · split
      · exact continued
      · exact continued
    · split
      · exact Satisfies.ok kept
      · exact Satisfies.ok kept

include lawful embeds in
theorem placeEndLexeme_stays {mode : Mode} {origin : Nat} {found : Pattern.RuleMatch}
    (lexeme : String) {state : ScanState} (lies : found.Lies context.text origin)
    (encloses : ∀ scopes, mode.endScope = some (.groups scopes) → found.Encloses scopes)
    (continued : context.Continued state) :
    Stays text context.Continued (context.placeEndLexeme mode found lexeme state) := by
  unfold placeEndLexeme
  split
  · exact (flush_stays lawful embeds continued).bind fun after kept => Satisfies.ok kept
  · rename_i scopes shape
    refine (flush_stays lawful embeds continued).bind fun after kept => ?_
    exact (emitGroups_stays lawful lies (encloses scopes shape) after).mono fun last same =>
      kept.of_same same
  · split
    · exact Satisfies.ok continued
    · refine (flush_stays lawful embeds ?_).bind fun after kept => ?_
      · split
        · exact continued
        · exact continued
      · split
        · exact Satisfies.ok kept
        · exact Satisfies.ok kept

/-! ### One round -/

/-- A state that a scan can go on from, in the text and with stacks to go on with. -/
structure Ready (context : ScanContext) (state : ScanState) : Prop where
  position : state.position ≤ context.text.size
  continued : context.Continued state

theorem takeChar_ready {position : Nat} {state : ScanState} (continued : context.Continued state) :
    context.Ready (context.takeChar position state).state := by
  unfold takeChar
  cases found : context.text.charAt? position with
  | none => exact ⟨Nat.le_refl _, continued⟩
  | some c =>
      obtain ⟨within, _⟩ := Array.getElem?_eq_some_iff.mp found
      exact ⟨within, continued⟩

theorem takeLexeme_ready {found : Pattern.RuleMatch} {origin : Nat} {state : ScanState}
    (lies : found.Lies context.text origin) (lexeme : String) (continued : context.Continued state) :
    context.Ready (takeLexeme found lexeme state).state :=
  ⟨lies.stop, continued⟩

private theorem ready_behind {found : Pattern.RuleMatch} {origin : Nat} {state : ScanState}
    (lies : found.Lies context.text origin) (returned : Bool) (continued : context.Continued state) :
    context.Ready { state with position := if returned then found.start else found.stop } := by
  refine ⟨?_, continued⟩
  cases returned with
  | false => exact lies.stop
  | true => exact Nat.le_trans lies.order lies.stop

include lawful embeds in
theorem beginMode_stays {place origin : Nat} {found : Pattern.RuleMatch} (lexeme : String)
    {state : ScanState} (lies : found.Lies context.text origin)
    (encloses : ∀ scopes, (context.grammar.mode place).beginScope = some (.groups scopes) →
      found.Encloses scopes)
    (continued : context.Continued state) :
    Stays text (fun progress => context.Ready progress.state)
      (context.beginMode place found lexeme state) := by
  unfold beginMode
  dsimp only
  split
  · split
    · exact Satisfies.ok (takeChar_ready continued)
    · exact Satisfies.ok (takeLexeme_ready lies lexeme continued)
  · refine (placeBeginLexeme_stays lawful embeds _ lexeme continued).bind fun placed kept => ?_
    exact (startMode_stays lawful lies encloses kept).bind fun started startedKept =>
      Satisfies.ok (ready_behind lies _ startedKept)

theorem leaveModes_continued {state : ScanState} (count : Nat) (continued : context.Continued state) :
    context.Continued (context.leaveModes count state) := by
  induction count generalizing state with
  | zero => exact continued
  | succ count ih => exact ih continued

include lawful embeds in
theorem endModes_stays {origin : Nat} {found : Pattern.RuleMatch} (lexeme : String)
    {state : ScanState} (lies : found.Lies context.text origin) (rule : found.rule = .ends)
    (encloses : context.grammar.Encloses state.stack.top found)
    (continued : context.Continued state) :
    Stays text (fun progress => context.Ready progress.state)
      (context.endModes found lexeme state) := by
  unfold endModes
  generalize asks : endingModes context.grammar (context.hookMatch found) state.stack.nested = answer
  obtain ⟨count, frames⟩ := answer
  dsimp only
  cases count with
  | none => exact Satisfies.ok (takeLexeme_ready lies lexeme continued)
  | some count =>
      have top : context.topMode { state with stack := ⟨frames⟩ } =
          context.grammar.mode state.stack.top :=
        congrArg context.grammar.mode (top_of_modes (modes_of_endingModes asks))
      have framed : context.Continued { state with stack := ⟨frames⟩ } := continued
      dsimp only
      rw [top]
      refine (placeEndLexeme_stays lawful embeds lexeme lies (fun scopes => encloses.ends scopes rule)
        framed).bind fun placed kept => ?_
      have left := leaveModes_continued count kept
      cases follows :
          (context.grammar.mode (((frames[count - 1]?).map Frame.mode).getD Mode.root)).starts with
      | none => exact Satisfies.ok (ready_behind lies _ left)
      | some next =>
          have startEncloses := fun scopes => encloses.starts _ next scopes rule follows
          exact (startMode_stays lawful lies startEncloses left).bind fun started startedKept =>
            Satisfies.ok (ready_behind lies _ startedKept)

theorem meetIllegal_stays {origin : Nat} {found : Pattern.RuleMatch} (lexeme : String)
    {state : ScanState} (lies : found.Lies context.text origin)
    (continued : context.Continued state) :
    Stays context.text (fun progress => context.Ready progress.state)
      (context.meetIllegal found lexeme state) := by
  unfold meetIllegal
  split
  · refine Satisfies.ok ?_
    split
    · exact takeChar_ready continued
    · exact takeLexeme_ready lies lexeme continued
  · exact Satisfies.error ⟨found.start, Nat.le_trans lies.order lies.stop, rfl⟩

include lawful embeds in
theorem process_stays {found : Pattern.RuleMatch} {state : ScanState}
    (lies : found.Lies context.text state.position)
    (encloses : context.grammar.Encloses state.stack.top found)
    (continued : context.Continued state) :
    Stays context.text (fun progress => context.Ready progress.state)
      (context.process found state) := by
  unfold process
  refine (Text.part_stays lies.start (Nat.le_trans lies.order lies.stop)).bind fun skipped _ => ?_
  refine (Text.part_stays lies.order lies.stop).bind fun lexeme _ => ?_
  dsimp only
  split
  · split
    · exact Satisfies.ok (takeChar_ready continued)
    · exact Satisfies.error trivial
  · split
    · rename_i place rule
      exact beginMode_stays lawful embeds lexeme lies (fun scopes => encloses.begins place scopes rule)
        continued
    · rename_i rule
      exact endModes_stays lawful embeds lexeme lies rule encloses continued
    · exact meetIllegal_stays lexeme lies continued

include lawful in
theorem Sights.lies {state : ScanState} {found : Pattern.RuleMatch}
    (sights : context.Sights state found) : found.Lies context.text state.position := by
  obtain ⟨matcher, compiled, sighted⟩ := sights
  exact Pattern.RuleSet.find?_lies (fun regex => lawful.matcher _ _ regex compiled) sighted

include lawful embeds in
theorem step_stays (enclosed : context.grammar.GroupsEnclosed) {state : ScanState}
    (ready : context.Ready state) :
    Stays context.text (fun progress => context.Ready progress.state) (context.step state) := by
  unfold step
  dsimp only
  split
  · exact Satisfies.error trivial
  · rename_i matcher compiled
    split
    · exact Satisfies.ok ⟨ready.position, ready.continued⟩
    · rename_i found sighted
      split
      · exact Satisfies.error trivial
      · have lies : found.Lies context.text state.position :=
          Sights.lies lawful ⟨matcher, compiled, sighted⟩
        exact process_stays lawful embeds lies (enclosed _ _ _ _ _ compiled sighted) ready.continued

/-! ### A whole scan -/

theorem start_ready (context : ScanContext) (stack : Option ModeStack) :
    context.Ready (context.start stack) :=
  ⟨Nat.zero_le _, by simp [Continued, start, Dictionary.empty, EmptyCollection.emptyCollection]⟩

include lawful embeds in
theorem runRounds_stays (enclosed : context.grammar.GroupsEnclosed) (rounds : Nat)
    {state : ScanState} (ready : context.Ready state) :
    context.Ready (context.runRounds rounds state).state ∧
      ∀ halt, (context.runRounds rounds state).halt = some halt → halt.Within context.text := by
  induction rounds generalizing state with
  | zero =>
      refine ⟨ready, fun halt halted => ?_⟩
      obtain rfl := Option.some.inj halted
      trivial
  | succ rounds ih =>
      have stays := step_stays lawful embeds enclosed ready
      unfold runRounds
      cases stepped : context.step state with
      | error halt =>
          refine ⟨ready, fun other halted => ?_⟩
          obtain rfl := Option.some.inj halted
          exact stays.fails halt stepped
      | ok progress =>
          have kept := stays.gives progress stepped
          cases progress with
          | advance next => exact ih kept
          | finish last => exact ⟨kept, by simp⟩

include lawful embeds in
theorem takeRest_stays {state : ScanState} (ready : context.Ready state) :
    Stays context.text (fun _ => True) (context.takeRest state) := by
  unfold takeRest
  refine (Text.part_stays ready.position (Nat.le_refl _)).bind fun rest _ => ?_
  have moved : context.Continued
      { state with buffer := state.buffer ++ rest, position := context.text.size } := ready.continued
  exact (flush_stays lawful embeds moved).mono fun _ _ => trivial

include lawful embeds in
theorem run_stays (enclosed : context.grammar.GroupsEnclosed) (stack : Option ModeStack) :
    ∀ halt, (context.run stack).halt = some halt → halt.Within context.text := by
  have rounded := runRounds_stays lawful embeds enclosed
    (context.settings.limits.mostRounds context.text.byteSize) (start_ready context stack)
  unfold run
  dsimp only
  generalize context.runRounds _ _ = run at rounded ⊢
  split
  · exact rounded.2
  · split
    · simp
    · rename_i halt taken
      intro other halted
      obtain rfl := Option.some.inj halted
      exact (takeRest_stays lawful embeds rounded.1).fails halt taken

/-- A scan stops for a reason for which its run has stopped, and a lenient one does not fail. -/
theorem halt_of_scan {stack : Option ModeStack} {halt : Halt}
    (scan : context.scan stack = .error halt) :
    (context.run stack).halt = some halt ∧
      (context.settings.lenient = true → halt = .tooDeep ∨ halt = .outOfText) := by
  unfold ScanContext.scan result at scan
  cases halted : (context.run stack).halt with
  | none =>
      rw [halted] at scan
      cases scan
  | some cause =>
      rw [halted] at scan
      cases cause with
      | failed error =>
          dsimp only at scan
          split at scan
          · cases scan
          · rename_i strict
            exact ⟨congrArg some (Except.error.inj scan), fun lenient => absurd lenient strict⟩
      | outOfText =>
          obtain rfl := Except.error.inj scan
          exact ⟨rfl, fun _ => .inr rfl⟩
      | tooDeep =>
          obtain rfl := Except.error.inj scan
          exact ⟨rfl, fun _ => .inl rfl⟩

end

/-- All that the next round of a scan reads is there: the position and the next match lie in the text,
the modes that are on and the one that begins are modes of the grammar, no more modes end than are on,
and embedded scans go on with stacks that earlier ones have left behind. -/
structure InRange (context : ScanContext) (state : ScanState) : Prop where
  position : state.position ≤ context.text.size
  modes : ∀ place ∈ state.stack.modes, place < context.grammar.modes.size
  continued : context.Continued state
  lies : ∀ found, context.Sights state found → found.Lies context.text state.position
  begins : ∀ found place, context.Sights state found → found.rule = .begins place →
    place < context.grammar.modes.size
  ends : ∀ found count, (endingModes context.grammar (context.hookMatch found)
    state.stack.nested).1 = some count → 0 < count ∧ count < state.stack.size
  rounds : ∀ found, context.Sights state found →
    context.settings.limits.roundsPerByte * context.text.byteOffset found.start ≤
      context.settings.limits.roundsPerByte * context.text.byteSize

section

variable {context : ScanContext} {stack : Option ModeStack} (lawful : context.grammar.Lawful)
  (closed : context.grammar.Closed 0) (embeds : context.EmbedsInText)
  (enclosed : context.grammar.GroupsEnclosed)

include lawful embeds enclosed in
theorem RoundStart.ready {state : ScanState} (reached : context.RoundStart stack state) :
    context.Ready state := by
  induction reached with
  | first => exact start_ready context stack
  | next _ stepped ih => exact (step_stays lawful embeds enclosed ih).gives _ stepped

include lawful closed embeds enclosed in
theorem RoundStart.inRange (saved : ∀ earlier, stack = some earlier → context.grammar.Saved earlier)
    {state : ScanState} (reached : context.RoundStart stack state) : context.InRange state := by
  have ready := reached.ready lawful embeds enclosed
  have nests := reached.nests closed fun earlier same => (saved earlier same).stands closed
  refine ⟨ready.position, ?_, ready.continued, fun found sights => sights.lies lawful, ?_, ?_, ?_⟩
  · intro place member
    rcases List.mem_cons.mp member with rfl | above
    · exact closed.root
    · exact (nests.stands.holds closed place above).2
  · intro found place sights rule
    obtain ⟨matcher, compiled, sighted⟩ := sights
    have member := rule_mem_of_find? sighted
    rw [rule] at member
    exact (closed.contains _ _ (closed.begins _ matcher place compiled member)).2
  · intro found count asks
    have bounds := endingModes_count asks
    exact ⟨bounds.1, Nat.lt_succ_of_le bounds.2⟩
  · intro found sights
    have lies := sights.lies lawful
    exact Nat.mul_le_mul_left _ (Text.byteOffset_mono _ (Nat.le_trans lies.order lies.stop))

end

end ScanContext

namespace Catalog

variable {catalog : Catalog}

theorem embedsInText_of_scanNested {depth : Nat} {context : ScanContext}
    (same : context.catalog = catalog) (nested : context.embedded = catalog.scanNested depth)
    (halts : ∀ entry ∈ catalog.grammars.entries, ∀ text settings stack halt,
      catalog.scanNested depth entry.2 text settings stack = .error halt →
      halt.Within (Text.ofString text) ∧ (settings.lenient = true → halt = .tooDeep)) :
    context.EmbedsInText where
  halts := by
    intro entry registered text settings stack halt _ lenient failed
    rw [nested] at failed
    exact (halts entry (same ▸ registered) text settings stack halt failed).2 lenient
  leaves := by
    intro entry registered text settings stack scanned last saved scan left
    rw [nested] at scan
    cases depth with
    | zero => cases scan
    | succ depth => exact Grammar.Saved.of_scan rfl saved scan left

/-- No scan with a grammar of the catalog leaves its text, and no lenient one fails. -/
theorem scanNested_halts (lawful : ∀ entry ∈ catalog.grammars.entries, entry.2.Lawful)
    (enclosed : ∀ entry ∈ catalog.grammars.entries, entry.2.GroupsEnclosed) (depth : Nat) :
    ∀ entry ∈ catalog.grammars.entries, ∀ text settings stack halt,
      catalog.scanNested depth entry.2 text settings stack = .error halt →
      halt.Within (Text.ofString text) ∧ (settings.lenient = true → halt = .tooDeep) := by
  induction depth with
  | zero =>
      intro entry _ text settings stack halt failed
      obtain rfl := Except.error.inj failed
      exact ⟨trivial, fun _ => rfl⟩
  | succ depth ih =>
      intro entry registered text settings stack halt failed
      obtain ⟨halted, lenient⟩ := ScanContext.halt_of_scan failed
      have within := ScanContext.run_stays (lawful entry registered)
        (embedsInText_of_scanNested rfl rfl ih) (enclosed entry registered) stack halt halted
      refine ⟨within, fun set => (lenient set).resolve_right ?_⟩
      rintro rfl
      exact within

def nestedContext (catalog : Catalog) (depth : Nat) (grammar : Grammar) (text : String)
    (settings : ScanSettings) : ScanContext where
  catalog := catalog
  grammar := grammar
  text := Text.ofString text
  settings := settings
  embedded := catalog.scanNested depth

/-- A scan with a grammar of the catalog never leaves its text, if the grammars were compiled by a
lawful engine and no match is split up by groups that end behind it: it does not stop for that, each of
its rounds finds in range what it reads, and text that does not belong is reported at a position of the
text. -/
theorem scanNested_inText {engine : Pattern.Engine} (lawful : engine.Lawful)
    (compiled : ∀ entry ∈ catalog.grammars.entries, ∃ name definition,
      Grammar.compile engine name definition = .ok entry.2)
    (enclosed : ∀ entry ∈ catalog.grammars.entries, entry.2.GroupsEnclosed) (depth : Nat)
    {name : String} {grammar : Grammar} (registered : (name, grammar) ∈ catalog.grammars.entries)
    (text : String) (settings : ScanSettings) {stack : Option ModeStack}
    (saved : ∀ earlier, stack = some earlier → grammar.Saved earlier) :
    catalog.scanNested (depth + 1) grammar text settings stack ≠ .error .outOfText ∧
      (∀ place next, (grammar.mode place).starts = some next → next < grammar.modes.size) ∧
      (∀ state, (catalog.nestedContext depth grammar text settings).RoundStart stack state →
        (catalog.nestedContext depth grammar text settings).InRange state) ∧
      ∀ other lexeme mode offset,
        ((catalog.nestedContext depth grammar text settings).run stack).halt =
          some (.failed (.illegalLexeme other lexeme mode offset)) →
        ∃ position ≤ (Text.ofString text).size,
          (Text.ofString text).position? offset = some position := by
  have lawfulAll : ∀ entry ∈ catalog.grammars.entries, entry.2.Lawful := by
    intro entry member
    obtain ⟨_, _, made⟩ := compiled entry member
    exact (Grammar.lawful_of_compile lawful made).1
  have halts := scanNested_halts lawfulAll enclosed
  obtain ⟨_, _, made⟩ := compiled _ registered
  have closed := (Grammar.lawful_of_compile lawful made).2
  have embeds : (catalog.nestedContext depth grammar text settings).EmbedsInText :=
    embedsInText_of_scanNested rfl rfl (halts depth)
  refine ⟨fun left => ?_, fun place next follows => (closed.starts place next follows).2, ?_, ?_⟩
  · exact (halts (depth + 1) _ registered text settings stack _ left).1
  · intro state reached
    exact reached.inRange (lawfulAll _ registered) closed embeds (enclosed _ registered) saved
  · intro other lexeme mode offset halted
    obtain ⟨position, within, rfl⟩ := ScanContext.run_stays (lawfulAll _ registered) embeds
      (enclosed _ registered) stack _ halted
    exact ⟨position, within, Text.position?_byteOffset _ _ within⟩

/-- A grammar with a mode whose begin match as a whole has a scope of its own. -/
def bracketed : GrammarDefinition where
  root := {
    contains := [.inline {
      begins := some (.one "a(?=(b))")
      ends := some (.one "c")
      beginScope := some (.captures (Dictionary.ofList [("0", "x")])) }] }

/-- The same grammar, but that the scope is that of the group, which stands behind the match. -/
def peeking : GrammarDefinition where
  root := {
    contains := [.inline {
      begins := some (.one "a(?=(b))")
      ends := some (.one "c")
      beginScope := some (.captures (Dictionary.ofList [("1", "x")])) }] }

theorem scanNested_inText_bracketed : ∃ grammar scanned,
    Grammar.compile Pattern.engine.confined "a" bracketed = .ok grammar ∧
      (Catalog.put {} grammar).scanNested 1 grammar "ab" {} none = .ok scanned ∧
      ((Catalog.put {} grammar).nestedContext 0 grammar "ab" {}).InRange
        (((Catalog.put {} grammar).nestedContext 0 grammar "ab" {}).start none) := by
  have succeeds : (Grammar.compile Pattern.engine.confined "a" bracketed).isOk = true := by
    decide +kernel
  obtain ⟨grammar, compiled⟩ := exists_of_isOk succeeds
  have answers : ((Grammar.compile Pattern.engine.confined "a" bracketed).toOption.map fun grammar =>
      (grammar.modes.all fun mode =>
        mode.beginScope.all Emission.isWhole && mode.endScope.all Emission.isWhole) &&
      ((Catalog.put {} grammar).scanNested 1 grammar "ab" {} none).isOk) = some true := by
    decide +kernel
  rw [compiled] at answers
  obtain ⟨whole, scans⟩ := (Bool.and_eq_true _ _).mp (Option.some.inj answers)
  obtain ⟨scanned, scan⟩ := exists_of_isOk scans
  have lawful := Pattern.engine.confined_lawful
  have enclosed : grammar.GroupsEnclosed := by
    refine .of_whole (Grammar.lawful_of_compile lawful compiled).1 fun mode member emission shape => ?_
    obtain ⟨begins, ends⟩ := (Bool.and_eq_true _ _).mp
      (Array.all_eq_true_iff_forall_mem.mp whole mode member)
    rcases shape with shape | shape
    · simpa [shape] using begins
    · simpa [shape] using ends
  have alone : ∀ entry ∈ (Catalog.put {} grammar).grammars.entries, entry = (grammar.name, grammar) :=
    fun entry member => List.mem_singleton.mp member
  refine ⟨grammar, scanned, compiled, scan, (scanNested_inText lawful (fun entry member => ?_)
    (fun entry member => ?_) 0 (List.mem_singleton_self _) "ab" {} (by simp)).2.2.1 _ .first⟩
  · exact ⟨"a", bracketed, by rw [alone entry member]; exact compiled⟩
  · rw [alone entry member]
    exact enclosed

/-- An engine that keeps to the text is not enough. -/
theorem scan_outOfText_peeking : Pattern.engine.confined.Lawful ∧
    ∃ catalog, Catalog.register {} Pattern.engine.confined "a" peeking = .ok catalog ∧
      catalog.scan "ab" { language := "a" } = .error (.halted .outOfText) := by
  have answers :
      ((Catalog.register {} Pattern.engine.confined "a" peeking).toOption.map fun catalog =>
      match catalog.scan "ab" { language := "a" } with
      | .error error => some error
      | .ok _ => none) = some (some (.halted .outOfText)) := by decide +kernel
  obtain ⟨catalog, registered, answer⟩ := Option.map_eq_some_iff.mp answers
  refine ⟨Pattern.engine.confined_lawful, catalog, eq_ok_of_toOption registered, ?_⟩
  split at answer
  · rename_i error failed
    rw [failed, Option.some.inj answer]
  · cases answer

end Catalog

end Highlight
