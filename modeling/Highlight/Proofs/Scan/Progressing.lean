import Highlight.Proofs.Grammar.Arrangement
import Highlight.Proofs.Scan.Looping
import Highlight.Proofs.Scan.Transitions

set_option autoImplicit false

/-! Scans that the guard never stops. Where no mode begins without text and none gives text back, the
text that a scan has gone through pays for its rounds: each position pays for two of them, of which one is
kept until the mode that has begun there ends, since that round may bring the scan no further. The guard
asks for less as long as it allows three rounds a byte, and one round before the first byte. -/

namespace Highlight

open Outcome

/-- Whether a scan has stopped because it seemed to go round and round. -/
def Halt.Stuck : Halt → Prop
  | .failed (.endless _ _) => True
  | .failed (.zeroWidthMatch _ _) => True
  | _ => False

/-- A mode that gives no text back, ends by its own end pattern only, and leaves nothing on behind it. -/
structure Mode.Direct (mode : Mode) : Prop where
  endsWithParent : mode.flags.endsWithParent = false
  starts : mode.starts = none
  returnBegin : mode.flags.returnBegin = false
  returnEnd : mode.flags.returnEnd = false
  onEnd : mode.onEnd = none

instance {mode : Mode} : Decidable mode.Direct :=
  decidable_of_iff (mode.flags.endsWithParent = false ∧ mode.starts = none ∧
      mode.flags.returnBegin = false ∧ mode.flags.returnEnd = false ∧ mode.onEnd.isNone)
    ⟨fun ⟨parent, starts, begins, ends, hook⟩ =>
        ⟨parent, starts, begins, ends, Option.isNone_iff_eq_none.mp hook⟩,
      fun direct => ⟨direct.endsWithParent, direct.starts, direct.returnBegin, direct.returnEnd,
        Option.isNone_iff_eq_none.mpr direct.onEnd⟩⟩

namespace Grammar

/-- No begin pattern of the grammar matches in a text without taking up some of it, and all modes are
direct. -/
structure ProgressesIn (grammar : Grammar) (text : Text) : Prop where
  begins : ∀ mode ∈ grammar.modes, ∀ regex ∈ mode.begins, ∀ position ≤ text.size,
    ∀ span ∈ regex.find? text position, span.start < span.stop
  direct : ∀ mode ∈ grammar.modes, mode.Direct

/-- What is found while a mode is on agrees with what the patterns find alone: a begin match is empty only
if the begin pattern has empty matches, and where an end match starts, the end pattern of the mode itself
matches. -/
def AgreesOn (grammar : Grammar) (text : Text) (place : Nat) (found : Pattern.RuleMatch) : Prop :=
  match found.rule with
  | .begins child => found.stop ≤ found.start → ∃ regex ∈ (grammar.mode child).begins,
      ∃ position ≤ text.size, ∃ span ∈ regex.find? text position, span.stop ≤ span.start
  | .ends => ∃ regex ∈ (grammar.mode place).ends, (regex.matchAt text found.start).isSome
  | .illegal => True

def AgreesIn (grammar : Grammar) (text : Text) : Prop :=
  ∀ place set, grammar.matcher place = .ok set → ∀ position ≤ text.size,
    ∀ found ∈ set.find? text position, grammar.AgreesOn text place found

instance {grammar : Grammar} {text : Text} : Decidable (grammar.ProgressesIn text) :=
  decidable_of_iff ((∀ mode ∈ grammar.modes, ∀ regex ∈ mode.begins, ∀ position ≤ text.size,
      ∀ span ∈ regex.find? text position, span.start < span.stop) ∧
      ∀ mode ∈ grammar.modes, mode.Direct)
    ⟨fun ⟨begins, direct⟩ => ⟨begins, direct⟩,
      fun progresses => ⟨progresses.begins, progresses.direct⟩⟩

instance {grammar : Grammar} {text : Text} {place : Nat} {found : Pattern.RuleMatch} :
    Decidable (grammar.AgreesOn text place found) := by
  unfold AgreesOn
  split
  · infer_instance
  · infer_instance
  · infer_instance

instance {grammar : Grammar} {text : Text} : Decidable (grammar.AgreesIn text) :=
  decidable_of_iff (∀ place < grammar.matchers.size, ∀ set ∈ (grammar.matcher place).toOption,
      ∀ position ≤ text.size, ∀ found ∈ set.find? text position, grammar.AgreesOn text place found) <| by
    constructor
    · intro agrees place set looks position within found sighted
      by_cases there : place < grammar.matchers.size
      · exact agrees place there set (by simp [looks, Except.toOption]) position within found sighted
      · -- nothing is found where there is no mode
        unfold matcher at looks
        rw [Array.getElem?_eq_none (Nat.le_of_not_lt there)] at looks
        obtain rfl := Except.ok.inj looks
        cases sighted
    · intro agrees place _ set looks
      exact agrees place set (eq_ok_of_toOption looks)

theorem ProgressesIn.mode {grammar : Grammar} {text : Text} (progresses : grammar.ProgressesIn text)
    (place : Nat) : (grammar.mode place).Direct :=
  mode_induction progresses.direct ⟨rfl, rfl, rfl, rfl, rfl⟩ place

theorem ProgressesIn.takes {grammar : Grammar} {text : Text} (progresses : grammar.ProgressesIn text)
    (place : Nat) : ∀ regex ∈ (grammar.mode place).begins, ∀ position ≤ text.size,
      ∀ span ∈ regex.find? text position, span.start < span.stop :=
  @mode_induction grammar (fun mode => ∀ regex ∈ mode.begins, ∀ position ≤ text.size,
    ∀ span ∈ regex.find? text position, span.start < span.stop) progresses.begins (by simp) place

end Grammar

theorem Text.le_byteOffset {text : Text} {position : Nat} (within : position ≤ text.size) :
    position ≤ text.byteOffset position := by
  have bytes : ∀ chars : List Char, chars.length ≤ bytesOf chars := by
    intro chars
    induction chars with
    | nil => exact Nat.le_refl _
    | cons c rest ih =>
        have positive := c.utf8Size_pos
        simp only [List.length_cons, bytesOf_cons]
        omega
  have taken := bytes (text.chars.toList.take position)
  unfold size at within
  rw [List.length_take, Array.length_toList, Nat.min_eq_left within] at taken
  exact taken

theorem Text.order_of_part {text : Text} {start stop : Nat} {part : String}
    (taken : text.part start stop = .ok part) (filled : part.isEmpty = false) : start < stop := by
  obtain ⟨⟨order, within⟩, rfl⟩ := part_eq_ok_iff.mp taken
  refine Nat.lt_of_le_of_ne order ?_
  rintro rfl
  simp [between] at filled

namespace ScanContext

variable {context : ScanContext}

/-- The rounds that have begun, and one for each mode that still has to end, are paid for by the text gone
through. -/
structure Paid (context : ScanContext) (state : ScanState) : Prop where
  position : state.position ≤ context.text.size
  rounds : state.rounds + state.stack.nested.length ≤ 2 * state.position
  behind : ∀ place start, state.lastMatch = some (.begins place, start) → start < state.position

/-- The same within a round that has come to its match, which alone is still to be paid for. -/
structure Owes (context : ScanContext) (found : Pattern.RuleMatch) (state : ScanState) : Prop where
  order : found.start ≤ found.stop
  within : found.stop ≤ context.text.size
  rounds : state.rounds + state.stack.nested.length ≤ 2 * found.start + 1
  lastMatch : state.lastMatch = some (found.rule, found.start)

def Pays (context : ScanContext) : Progress → Prop
  | .advance after => context.Paid after
  | .finish _ => True

/-! ### The outcomes of a match -/

theorem Owes.takeChar {found : Pattern.RuleMatch} {state : ScanState}
    (owes : context.Owes found state) : context.Pays (context.takeChar found.start state) := by
  unfold ScanContext.takeChar
  cases here : context.text.charAt? found.start with
  | none => trivial
  | some c =>
      obtain ⟨within, _⟩ := Array.getElem?_eq_some_iff.mp here
      have rounds := owes.rounds
      refine ⟨within, ?_, ?_⟩
      · change state.rounds + state.stack.nested.length ≤ 2 * (found.start + 1)
        omega
      · intro place start last
        obtain ⟨_, rfl⟩ := Prod.mk.inj (Option.some.inj (owes.lastMatch.symm.trans last))
        exact Nat.lt_succ_self _

/-- A scan that goes on behind a match which took up text has paid for it and for one mode. -/
theorem Owes.onward {found : Pattern.RuleMatch} {state after : ScanState}
    (owes : context.Owes found state) (takes : found.start < found.stop)
    (same : SameRound state after) (position : after.position = found.stop)
    (nested : after.stack.nested.length ≤ state.stack.nested.length + 1) : context.Paid after := by
  have rounds := owes.rounds
  refine ⟨position ▸ owes.within, ?_, ?_⟩
  · rw [same.rounds, position]
    omega
  · intro place start last
    rw [same.lastMatch, owes.lastMatch] at last
    obtain ⟨_, rfl⟩ := Prod.mk.inj (Option.some.inj last)
    rwa [position]

theorem Owes.takeLexeme {found : Pattern.RuleMatch} {state : ScanState}
    (owes : context.Owes found state) (takes : found.start < found.stop) (lexeme : String) :
    context.Pays (takeLexeme found lexeme state) :=
  owes.onward takes ⟨rfl, rfl⟩ rfl (Nat.le_succ _)

theorem Owes.ignores {found : Pattern.RuleMatch} {state : ScanState} {lexeme : String}
    (owes : context.Owes found state)
    (matched : context.text.part found.start found.stop = .ok lexeme) :
    context.Pays (if lexeme.isEmpty then context.takeChar found.start state
      else ScanContext.takeLexeme found lexeme state) := by
  cases filled : lexeme.isEmpty with
  | true => exact owes.takeChar
  | false => exact owes.takeLexeme (Text.order_of_part matched filled) lexeme

section

variable (embeds : context.EmbedsAllowing fun halt => ¬halt.Stuck)

private theorem unstuck_outOfText : ¬Halt.outOfText.Stuck := fun stuck => stuck

include embeds in
theorem Owes.beginMode {found : Pattern.RuleMatch} {state : ScanState} {lexeme : String}
    {place : Nat} (owes : context.Owes found state)
    (direct : (context.grammar.mode place).Direct) (takes : found.start < found.stop)
    (matched : context.text.part found.start found.stop = .ok lexeme) :
    Satisfies (fun halt => ¬halt.Stuck) context.Pays
      (context.beginMode place found lexeme state) := by
  refine ⟨(beginMode_allows unstuck_outOfText embeds _ _ _ _).fails, fun progress began => ?_⟩
  unfold ScanContext.beginMode at began
  dsimp only at began
  split at began
  · rw [← apply_ite pure] at began
    obtain rfl := pure_eq_ok.mp began
    exact owes.ignores matched
  · obtain ⟨placed, places, began⟩ := bind_eq_ok.mp began
    obtain ⟨started, starts, began⟩ := bind_eq_ok.mp began
    obtain rfl := pure_eq_ok.mp began
    have same := (placeBeginLexeme_sameRound places).trans (startMode_sameRound starts)
    refine owes.onward takes ⟨same.rounds, same.lastMatch⟩ ?_ ?_
    · simp [direct.returnBegin]
    · dsimp only
      rw [(startMode_course starts).1, (placeBeginLexeme_course places).1]
      exact Nat.le_refl _

theorem endingModes_of_direct {found : Pattern.RuleMatch} {frame : Frame} {outer : List Frame}
    {regex : Pattern.Regex} (direct : (context.grammar.mode frame.mode).Direct)
    (ends : (context.grammar.mode frame.mode).ends = some regex)
    (matched : (regex.matchAt context.text found.start).isSome) :
    ∃ count, endingModes context.grammar (context.hookMatch found) (frame :: outer) =
      (some count, frame :: outer) := by
  have here : (regex.matchAt (context.hookMatch found).text (context.hookMatch found).index).isSome :=
    matched
  simp [endingModes, ends, here, direct.onEnd]

include embeds in
theorem Owes.endModes {found : Pattern.RuleMatch} {state : ScanState} {lexeme : String} {count : Nat}
    (owes : context.Owes found state) (rule : found.rule = .ends)
    (direct : ∀ place, (context.grammar.mode place).Direct)
    (asks : endingModes context.grammar (context.hookMatch found) state.stack.nested =
      (some count, state.stack.nested)) :
    Satisfies (fun halt => ¬halt.Stuck) context.Pays
      (context.endModes found lexeme state) := by
  refine ⟨(endModes_allows unstuck_outOfText embeds _ _ _).fails, fun progress ended => ?_⟩
  unfold ScanContext.endModes at ended
  simp only [asks, topMode, (direct _).starts, (direct _).returnEnd] at ended
  obtain ⟨placed, places, ended⟩ := bind_eq_ok.mp ended
  obtain rfl := pure_eq_ok.mp ended
  have same : SameRound state (context.leaveModes count placed) :=
    SameRound.trans (placeEndLexeme_sameRound places) (leaveModes_sameRound context count placed)
  have stack : (context.leaveModes count placed).stack.nested.length =
      state.stack.nested.length - count := by
    rw [leaveModes_stack, (placeEndLexeme_course places).1]
    simp
  have bounds := endingModes_count (congrArg Prod.fst asks)
  have rounds := owes.rounds
  have order := owes.order
  refine ⟨owes.within, ?_, ?_⟩
  · change (context.leaveModes count placed).rounds +
      (context.leaveModes count placed).stack.nested.length ≤ 2 * found.stop
    rw [stack, same.rounds]
    omega
  · intro place start last
    change (context.leaveModes count placed).lastMatch = some (.begins place, start) at last
    rw [same.lastMatch, owes.lastMatch, rule] at last
    cases last

end

theorem Owes.meetIllegal {found : Pattern.RuleMatch} {state : ScanState} {lexeme : String}
    (owes : context.Owes found state)
    (matched : context.text.part found.start found.stop = .ok lexeme) :
    Satisfies (fun halt => ¬halt.Stuck) context.Pays (context.meetIllegal found lexeme state) := by
  unfold ScanContext.meetIllegal
  split
  · exact Satisfies.ok (owes.ignores matched)
  · exact Satisfies.error fun stuck => stuck

/-! ### One round -/

theorem Paid.inTime {state : ScanState} {start : Nat} (paid : context.Paid state)
    (least : 1 ≤ context.settings.limits.rounds)
    (generous : 3 ≤ context.settings.limits.roundsPerByte)
    (further : state.position ≤ start) (within : start ≤ context.text.size) :
    context.tooManyRounds (state.rounds + 1) start = false := by
  -- before the first byte there has been no round yet, and behind it three are allowed for each
  have rounds := paid.rounds
  have bytes := Text.le_byteOffset within
  have asked := Nat.mul_le_mul generous bytes
  unfold tooManyRounds
  rw [Bool.and_eq_false_iff, decide_eq_false_iff_not, decide_eq_false_iff_not]
  omega

theorem Paid.fresh {state : ScanState} {found : Pattern.RuleMatch} (paid : context.Paid state)
    (further : state.position ≤ found.start) : repeatsLast found state = false := by
  -- a match can only be met twice where the last one to begin a mode has started
  unfold repeatsLast
  split
  · rename_i place start rule last
    have behind := paid.behind _ _ last
    have apart : (start == found.start) = false := by
      rw [beq_eq_false_iff_ne]
      omega
    simp [apart]
  · rename_i mode place start rule last
    have behind := paid.behind _ _ last
    have apart : (start == found.start) = false := by
      rw [beq_eq_false_iff_ne]
      omega
    simp [apart]
  · rfl

theorem Paid.owes {state : ScanState} {found : Pattern.RuleMatch} (paid : context.Paid state)
    (lies : found.Lies context.text state.position) (skipped : String) :
    context.Owes found (arrive found skipped state) := by
  refine ⟨lies.order, lies.stop, ?_, rfl⟩
  have rounds := paid.rounds
  have further := lies.start
  simp only [arrive]
  omega

theorem Sights.agrees {state : ScanState} {found : Pattern.RuleMatch}
    (sights : context.Sights state found) (agrees : context.grammar.AgreesIn context.text)
    (within : state.position ≤ context.text.size) :
    context.grammar.AgreesOn context.text state.stack.top found := by
  obtain ⟨matcher, compiled, sighted⟩ := sights
  exact agrees _ _ compiled _ within _ sighted

theorem takes_of_agrees {grammar : Grammar} {text : Text} {place child : Nat}
    {found : Pattern.RuleMatch} (progresses : grammar.ProgressesIn text) (rule : found.rule = .begins child)
    (agrees : grammar.AgreesOn text place found) : found.start < found.stop := by
  by_contra empty
  unfold Grammar.AgreesOn at agrees
  rw [rule] at agrees
  obtain ⟨regex, begins, position, within, span, alone, emptyAlone⟩ := agrees (Nat.le_of_not_lt empty)
  have takes := progresses.takes child regex begins position within span alone
  omega

/-- Where the innermost mode can end, it does: the root has no end pattern. -/
theorem exists_ending {state : ScanState} {found : Pattern.RuleMatch}
    (direct : ∀ place, (context.grammar.mode place).Direct)
    (root : (context.grammar.mode Mode.root).ends = none) (rule : found.rule = .ends)
    (agrees : context.grammar.AgreesOn context.text state.stack.top found) :
    ∃ count, endingModes context.grammar (context.hookMatch found) state.stack.nested =
      (some count, state.stack.nested) := by
  unfold Grammar.AgreesOn at agrees
  rw [rule] at agrees
  obtain ⟨regex, ends, matched⟩ := agrees
  cases nested : state.stack.nested with
  | nil => simp [ModeStack.top, nested, root] at ends
  | cons frame outer =>
      simp only [ModeStack.top, nested] at ends
      exact endingModes_of_direct (direct _) ends matched

section

variable (lawful : context.grammar.Lawful) (progresses : context.grammar.ProgressesIn context.text)
  (agrees : context.grammar.AgreesIn context.text)
  (root : (context.grammar.mode Mode.root).ends = none)
  (embeds : context.EmbedsAllowing fun halt => ¬halt.Stuck)
  (least : 1 ≤ context.settings.limits.rounds) (generous : 3 ≤ context.settings.limits.roundsPerByte)

include lawful progresses agrees root embeds least generous

theorem Paid.step {state : ScanState} (paid : context.Paid state) :
    Satisfies (fun halt => ¬halt.Stuck) context.Pays (context.step state) := by
  by_cases sighting : ∃ found, context.Sights state found
  · obtain ⟨found, sights⟩ := sighting
    have lies := sights.lies lawful
    have within : found.start ≤ context.text.size := Nat.le_trans lies.order lies.stop
    have meets : context.Meets state found :=
      ⟨sights, paid.inTime least generous lies.start within, paid.fresh lies.start⟩
    rw [meets.step]
    apply Satisfies.bind ((Text.part_partial _ _ _).allows unstuck_outOfText)
    intro skipped _
    have owes := paid.owes lies skipped
    cases matched : context.text.part found.start found.stop with
    | error halt =>
        have missing := (Text.part_partial _ _ _).fails halt matched
        exact Satisfies.error (missing ▸ unstuck_outOfText)
    | ok lexeme =>
        rw [ok_bind]
        have agreed := sights.agrees agrees paid.position
        cases rule : found.rule with
        | begins place =>
            have takes := takes_of_agrees progresses rule agreed
            exact owes.beginMode embeds (progresses.mode place) takes matched
        | ends =>
            obtain ⟨count, asks⟩ := exists_ending progresses.mode root rule agreed
            exact owes.endModes embeds rule progresses.mode asks
        | illegal => exact owes.meetIllegal matched
  · unfold ScanContext.step
    dsimp only
    split
    · exact Satisfies.error fun stuck => stuck
    · rename_i matcher compiled
      split
      · exact Satisfies.ok trivial
      · rename_i found sighted
        exact absurd ⟨found, matcher, compiled, sighted⟩ sighting

theorem Loops.unstuck {state : ScanState} {count : Nat} {ended : Run}
    (loops : context.Loops state count ended) (paid : context.Paid state) :
    ∀ halt, ended.halt = some halt → ¬halt.Stuck := by
  induction loops with
  | halts stepped =>
      intro halt halted
      obtain rfl := Option.some.inj halted
      exact (paid.step lawful progresses agrees root embeds least generous).fails _ stepped
  | finishes stepped =>
      intro halt halted
      cases halted
  | goesOn stepped onward ih =>
      exact ih ((paid.step lawful progresses agrees root embeds least generous).gives _ stepped)

theorem run_unstuck {halt : Halt} (halted : (context.run none).halt = some halt) : ¬halt.Stuck := by
  obtain ⟨count, ended, loops, _, concluded⟩ := exists_conclude context none
  have start : context.Paid (context.start none) :=
    ⟨Nat.zero_le _, Nat.le_refl _, fun _ _ last => by cases last⟩
  have unstuck := loops.unstuck lawful progresses agrees root embeds least generous start
  rw [concluded] at halted
  unfold conclude at halted
  split at halted
  · exact unstuck _ halted
  · split at halted
    · cases halted
    · rename_i cause taken
      obtain rfl := Option.some.inj halted
      exact (takeRest_allows unstuck_outOfText embeds _).fails _ taken

end

end ScanContext

namespace Catalog

/-- A scan that begins afresh is not stopped for going round and round, however long its text is and
however deep the modes are nested in it, if its grammar makes progress and its patterns find together what
they find alone. Its guard has to let the first round pass, and three rounds for each byte. -/
theorem scanNested_unstuck (catalog : Catalog) {engine : Pattern.Engine} (lawful : engine.Lawful)
    {name : String} {definition : GrammarDefinition} {grammar : Grammar}
    (compiled : Grammar.compile engine name definition = .ok grammar) {text : String}
    (progresses : grammar.ProgressesIn (Text.ofString text))
    (agrees : grammar.AgreesIn (Text.ofString text)) {settings : ScanSettings}
    (least : 1 ≤ settings.limits.rounds) (generous : 3 ≤ settings.limits.roundsPerByte)
    (depth : Nat) :
    (∀ halt, ((catalog.nestedContext depth grammar text settings).run none).halt = some halt →
      ¬halt.Stuck) ∧
    ∀ halt, catalog.scanNested (depth + 1) grammar text settings none = .error halt →
      ¬halt.Stuck := by
  have embeds : (catalog.nestedContext depth grammar text settings).EmbedsAllowing
      fun halt => ¬halt.Stuck := by
    intro _ inner _ text settings stack lenient
    apply (catalog.scanNested_unfailing depth inner text stack lenient).allowing
    intro halt unfailed stuck
    cases halt with
    | failed error => exact unfailed error rfl
    | outOfText => exact stuck
    | tooDeep => exact stuck
  have run : ∀ halt, ((catalog.nestedContext depth grammar text settings).run none).halt = some halt →
      ¬halt.Stuck := by
    intro halt halted
    exact ScanContext.run_unstuck (Grammar.lawful_of_compile lawful compiled).1 progresses agrees
      (Grammar.root_of_compile compiled).2.2.1 embeds least generous halted
  exact ⟨run, fun halt failed => run halt (ScanContext.halt_of_scan failed).1⟩

/-- A grammar whose only mode begins with an angle, and ends in front of one that is closed. -/
def layered : GrammarDefinition where
  root := { contains := [.shared "x"] }
  repository := Dictionary.ofList [("x", {
    begins := some (.one "<")
    ends := some (.one "(?=>)")
    contains := [.shared "x"] })]

def tightest : ScanSettings :=
  { lenient := false, limits := { rounds := 1, roundsPerByte := 3 } }

/-- Three modes begin in each other, and then end one after another in front of the same angle. -/
theorem scanNested_unstuck_layered : ∃ grammar,
    Grammar.compile Pattern.engine.confined "a" layered = .ok grammar ∧
      ((({} : Catalog).nestedContext 0 grammar "<<<>" tightest).run none).state.rounds = 7 ∧
      ∀ halt, ((({} : Catalog).nestedContext 0 grammar "<<<>" tightest).run none).halt = some halt →
        ¬halt.Stuck := by
  have answers : (Grammar.compile Pattern.engine.confined "a" layered).toOption.any (fun grammar =>
      decide (((({} : Catalog).nestedContext 0 grammar "<<<>" tightest).run none).state.rounds = 7 ∧
        grammar.ProgressesIn (Text.ofString "<<<>") ∧
        grammar.AgreesIn (Text.ofString "<<<>"))) = true := by
    decide +kernel
  obtain ⟨grammar, compiled, rounds, progresses, agrees⟩ := exists_of_any answers
  exact ⟨grammar, compiled, rounds, (scanNested_unstuck {} Pattern.engine.confined_lawful compiled
    progresses agrees (Nat.le_refl 1) (Nat.le_refl 3) 0).1⟩

end Catalog

end Highlight
