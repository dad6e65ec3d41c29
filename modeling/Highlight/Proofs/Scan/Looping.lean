import Highlight.Proofs.Scan.Bounds
import Highlight.Proofs.Scan.Stopping

set_option autoImplicit false

/-! How long the loop of a scan is. A round need not bring the scan forward in its text: matches can be
empty, and can be given back. So the position is no measure, and what ends the loop is the guard alone,
which each round has to pass that is followed by another one. `Loops` is the loop as it is without any
bound; the bound that `run` puts on its rounds is then shown to be one that no loop goes beyond. -/

namespace Highlight

open Outcome

theorem Text.byteOffset_le_byteSize (text : Text) (position : Nat) :
    text.byteOffset position ≤ text.byteSize := by
  have further := text.byteOffset_mono (Nat.le_add_right position text.size)
  have all : text.byteOffset (position + text.size) = text.byteSize := by
    unfold byteSize byteOffset
    rw [List.take_of_length_le (by simp [size]), List.take_of_length_le (by simp [size])]
  rwa [all] at further

structure SameRound (before after : ScanState) : Prop where
  rounds : after.rounds = before.rounds
  lastMatch : after.lastMatch = before.lastMatch

namespace SameRound

theorem trans {first second third : ScanState} (left : SameRound first second)
    (right : SameRound second third) : SameRound first third :=
  ⟨right.rounds.trans left.rounds, right.lastMatch.trans left.lastMatch⟩

end SameRound

theorem SameCourse.sameRound {before after : ScanState} (same : SameCourse before after) :
    SameRound before after :=
  ⟨same.rounds, same.lastMatch⟩

namespace ScanContext

variable {context : ScanContext}

/-! ### The parts of a round -/

theorem flush_sameRound {state after : ScanState} (flushed : context.flush state = .ok after) :
    SameRound state after :=
  ⟨(flush_sameCourse context flushed).rounds, (flush_sameCourse context flushed).lastMatch⟩

theorem startMode_sameRound {place : Nat} {found : Pattern.RuleMatch} {data : HookData}
    {state after : ScanState} (started : context.startMode place found data state = .ok after) :
    SameRound state after := by
  obtain ⟨opened, opens, outcome⟩ := startMode_cases started
  have early : SameRound state opened := by
    rw [opens.others]
    exact ⟨rfl, rfl⟩
  apply early.trans
  rcases outcome with ⟨_, rfl⟩ | ⟨_, _, _, rfl⟩ | ⟨_, inner, _, emitted, rfl⟩
  · exact ⟨rfl, rfl⟩
  · exact ⟨rfl, rfl⟩
  · obtain ⟨_, _, emits⟩ := emitGroups_emits context emitted
    exact ⟨emits.rounds, emits.lastMatch⟩

theorem leaveModes_sameRound (context : ScanContext) (count : Nat) (state : ScanState) :
    SameRound state (context.leaveModes count state) := by
  induction count generalizing state with
  | zero => exact ⟨rfl, rfl⟩
  | succ count ih =>
      have left : SameRound state (context.leaveMode state) := ⟨rfl, rfl⟩
      exact left.trans (ih _)

theorem placeBeginLexeme_sameRound {flags : ModeFlags} {lexeme : String} {state after : ScanState}
    (placed : context.placeBeginLexeme flags lexeme state = .ok after) : SameRound state after := by
  cases placeBeginLexeme_cases placed with
  | skipped => exact ⟨rfl, rfl⟩
  | excluded _ _ flushes | returned _ _ _ flushes | kept _ _ _ flushes =>
      exact ⟨(flush_sameRound flushes).rounds, (flush_sameRound flushes).lastMatch⟩

theorem placeEndLexeme_sameRound {mode : Mode} {found : Pattern.RuleMatch} {lexeme : String}
    {state after : ScanState}
    (placed : context.placeEndLexeme mode found lexeme state = .ok after) :
    SameRound state after := by
  cases placeEndLexeme_cases placed with
  | skipped => exact ⟨rfl, rfl⟩
  | groups _ flushes emitted =>
      obtain ⟨_, _, emits⟩ := emitGroups_emits context emitted
      exact (flush_sameRound flushes).trans emits.toSameCourse.sameRound
  | whole _ flushes | excluded _ _ _ flushes | returned _ _ _ _ flushes | kept _ _ _ _ flushes =>
      exact ⟨(flush_sameRound flushes).rounds, (flush_sameRound flushes).lastMatch⟩

/-! ### One round -/

theorem Arrival.rounds {state arrived : ScanState} {found : Pattern.RuleMatch} {lexeme : String}
    (arrival : context.Arrival state found lexeme arrived) : arrived.rounds = state.rounds + 1 := by
  obtain ⟨_, _, _, rfl⟩ := arrival.reaches
  rfl

theorem Round.rounds {state : ScanState} {progress : Progress}
    (round : context.Round state progress) : progress.state.rounds = state.rounds + 1 := by
  cases round with
  | exhausted => rfl
  | char arrival =>
      unfold takeChar
      split
      · exact arrival.rounds
      · exact arrival.rounds
  | ignored arrival => exact arrival.rounds
  | refused arrival asks => exact arrival.rounds
  | begins arrival rule places starts =>
      have same := (placeBeginLexeme_sameRound places).trans (startMode_sameRound starts)
      exact same.rounds.trans arrival.rounds
  | @ends found lexeme arrived placed count frames arrival asks places =>
      have left := leaveModes_sameRound context count placed
      exact ((placeEndLexeme_sameRound places).trans left).rounds.trans arrival.rounds
  | @continues found lexeme arrived placed started count next frames outer arrival asks places
      outermost follows starts =>
      have left := leaveModes_sameRound context count placed
      have same := (placeEndLexeme_sameRound places).trans (left.trans (startMode_sameRound starts))
      exact same.rounds.trans arrival.rounds

theorem inTime_of_advance {state next : ScanState}
    (stepped : context.step state = .ok (.advance next)) :
    ∃ found, context.Sights state found ∧
      context.tooManyRounds (state.rounds + 1) found.start = false := by
  unfold step at stepped
  dsimp only at stepped
  split at stepped
  · cases stepped
  · rename_i matcher compiled
    split at stepped
    · cases pure_eq_ok.mp stepped
    · rename_i found sighted
      split at stepped
      · cases stepped
      · rename_i inTime
        exact ⟨found, ⟨matcher, compiled, sighted⟩, Bool.eq_false_iff.mpr inTime⟩

/-- How many rounds can be followed by another one. -/
def longest (context : ScanContext) : Nat :=
  max context.settings.limits.rounds
    (context.settings.limits.roundsPerByte * context.text.byteSize)

theorem rounds_of_advance {state next : ScanState}
    (stepped : context.step state = .ok (.advance next)) :
    next.rounds = state.rounds + 1 ∧ next.rounds ≤ context.longest := by
  have counted : next.rounds = state.rounds + 1 := (round_of_step context stepped).rounds
  refine ⟨counted, ?_⟩
  obtain ⟨found, _, inTime⟩ := inTime_of_advance stepped
  have within := Nat.mul_le_mul_left context.settings.limits.roundsPerByte
    (context.text.byteOffset_le_byteSize found.start)
  unfold tooManyRounds at inTime
  unfold longest
  rw [counted]
  rcases (Bool.and_eq_false_iff).mp inTime with few | slow
  · have few := of_decide_eq_false few
    omega
  · have slow := of_decide_eq_false slow
    omega

/-! ### The loop -/

/-- The loop from a state on: how many rounds begin, and how the last one ends. -/
inductive Loops (context : ScanContext) : ScanState → Nat → Run → Prop
  | halts {state : ScanState} {halt : Halt} (stepped : context.step state = .error halt) :
      Loops context state 1 { state, halt := some halt }
  | finishes {state last : ScanState} (stepped : context.step state = .ok (.finish last)) :
      Loops context state 1 { state := last, halt := none }
  | goesOn {state next : ScanState} {count : Nat} {ended : Run}
      (stepped : context.step state = .ok (.advance next))
      (onward : Loops context next count ended) : Loops context state (count + 1) ended

/-- A loop is done within any number of rounds that suffices for it. -/
theorem Loops.runRounds {state : ScanState} {count : Nat} {ended : Run}
    (loops : context.Loops state count ended) {rounds : Nat} (enough : count ≤ rounds) :
    context.runRounds rounds state = ended := by
  induction loops generalizing rounds with
  | halts stepped =>
      obtain ⟨more, rfl⟩ := Nat.exists_eq_add_of_le' enough
      simp only [ScanContext.runRounds, stepped]
  | finishes stepped =>
      obtain ⟨more, rfl⟩ := Nat.exists_eq_add_of_le' enough
      simp only [ScanContext.runRounds, stepped]
  | goesOn stepped onward ih =>
      obtain ⟨more, rfl⟩ := Nat.exists_eq_add_of_le' enough
      rw [← Nat.add_assoc]
      simp only [ScanContext.runRounds, stepped]
      apply ih
      omega

/-- The loop ends, whatever its rounds do: each one that goes on uses up one that the guard lets
pass. -/
theorem exists_loops (context : ScanContext) (state : ScanState)
    (passed : state.rounds ≤ context.longest) :
    ∃ count ended, context.Loops state count ended ∧ state.rounds + count ≤ context.longest + 1 := by
  cases stepped : context.step state with
  | error halt => exact ⟨1, _, .halts stepped, by omega⟩
  | ok progress =>
      cases progress with
      | finish last => exact ⟨1, _, .finishes stepped, by omega⟩
      | advance next =>
          obtain ⟨counted, within⟩ := rounds_of_advance stepped
          obtain ⟨count, ended, onward, few⟩ := exists_loops context next within
          exact ⟨count + 1, ended, .goesOn stepped onward, by omega⟩
termination_by context.longest - state.rounds
decreasing_by omega

/-- What a scan does when its loop has ended: if nothing has stopped it, the text behind the last match
goes into the tree. -/
def conclude (context : ScanContext) (ended : Run) : Run :=
  match ended.halt with
  | some _ => ended
  | none =>
    match context.takeRest ended.state with
    | .ok state => { state, halt := none }
    | .error halt => { ended with halt := some halt }

theorem exists_conclude (context : ScanContext) (stack : Option ModeStack) :
    ∃ count ended, context.Loops (context.start stack) count ended ∧ count ≤ context.longest + 1 ∧
      context.run stack = context.conclude ended := by
  obtain ⟨count, ended, loops, few⟩ := exists_loops context (context.start stack) (Nat.zero_le _)
  have within : count ≤ context.longest + 1 := by omega
  refine ⟨count, ended, loops, within, ?_⟩
  rw [← loops.runRounds within]
  rfl

/-- The loop of every scan ends within so many rounds, and the scan is what is made of its end: the bound
on the rounds has no part in it. Nor is a scan stopped by its embedded scans if these return, and it does
not leave its text if its patterns keep to it and no match is split up by groups that end behind it. -/
theorem run_loops (context : ScanContext) (stack : Option ModeStack) :
    (∃ count ended, context.Loops (context.start stack) count ended ∧
      count ≤ max context.settings.limits.rounds
        (context.settings.limits.roundsPerByte * context.text.byteSize) + 1 ∧
      (∀ rounds, count ≤ rounds → context.runRounds rounds (context.start stack) = ended) ∧
      context.run stack = context.conclude ended) ∧
    (context.EmbedsAllowing (· ≠ .tooDeep) → (context.run stack).halt ≠ some .tooDeep) ∧
    (context.grammar.Lawful → context.grammar.GroupsEnclosed → context.EmbedsInText →
      (context.run stack).halt ≠ some .outOfText) := by
  refine ⟨?_, ?_, ?_⟩
  · obtain ⟨count, ended, loops, few, concluded⟩ := exists_conclude context stack
    exact ⟨count, ended, loops, few, fun rounds enough => loops.runRounds enough, concluded⟩
  · intro returns halted
    have otherwise : Halt.tooDeep ≠ .tooDeep := run_allows (by simp) returns (by simp) stack halted
    exact otherwise rfl
  · intro lawful enclosed embeds halted
    exact run_stays lawful embeds enclosed stack _ halted

/-- A scan with few rounds, whose embedded scans give back the bare text. -/
def bareScan (grammar : Grammar) (text : String) : ScanContext where
  catalog := {}
  grammar := grammar
  text := Text.ofString text
  settings := { limits := { rounds := 5, roundsPerByte := 3 } }
  embedded := fun grammar text _ _ => .ok ⟨ScanResult.plain grammar.name text, none⟩

theorem bareScan_allowing (grammar : Grammar) (text : String) (allowed : Halt → Prop) :
    (bareScan grammar text).EmbedsAllowing allowed :=
  fun _ _ _ _ _ _ _ => Satisfies.ok trivial

theorem bareScan_embedsInText (grammar : Grammar) (text : String) :
    (bareScan grammar text).EmbedsInText := by
  constructor
  · intro _ _ _ _ _ _ _ _ failed
    cases failed
  · intro _ _ _ _ _ scanned last _ scan left
    obtain rfl := Except.ok.inj scan
    cases left

/-- A grammar of two modes that begin in each other without taking up text. -/
def circling : GrammarDefinition where
  root := { contains := [.shared "x"] }
  repository := Dictionary.ofList [
    ("x", { begins := some (.one "(?=a)"), ends := some (.one "b"), contains := [.shared "y"] }),
    ("y", { begins := some (.one "(?=a)"), ends := some (.one "b"), contains := [.shared "x"] })]

/-- Two modes that begin in each other are stopped by the guard, with as many rounds as it allows. -/
theorem run_loops_circling : ∃ grammar,
    Grammar.compile Pattern.engine.confined "cycle" circling = .ok grammar ∧
      (∃ count ended, (bareScan grammar "a").Loops ((bareScan grammar "a").start none) count ended ∧
        count ≤ 6 ∧ ended.halt = some (.failed (.endless "cycle" 0))) ∧
      ((bareScan grammar "a").run none).halt ≠ some .tooDeep ∧
      ((bareScan grammar "a").run none).halt ≠ some .outOfText := by
  have answers : ((Grammar.compile Pattern.engine.confined "cycle" circling).toOption.map fun grammar =>
      ((grammar.modes.all fun mode => mode.beginScope.isNone && mode.endScope.isNone),
        ((bareScan grammar "a").runRounds 6 ((bareScan grammar "a").start none)).halt)) =
      some (true, some (.failed (.endless "cycle" 0))) := by
    decide +kernel
  obtain ⟨grammar, compiled, answers⟩ := Option.map_eq_some_iff.mp answers
  obtain ⟨bare, halted⟩ := Prod.mk.inj answers
  have compiled := eq_ok_of_toOption compiled
  have lawful : grammar.Lawful :=
    (Grammar.lawful_of_compile Pattern.engine.confined_lawful compiled).1
  have enclosed : grammar.GroupsEnclosed := by
    refine .of_whole lawful fun mode member emission shape => ?_
    have none_ := Array.all_eq_true_iff_forall_mem.mp bare mode member
    rcases shape with shape | shape
    · simp [shape] at none_
    · simp [shape] at none_
  obtain ⟨⟨count, ended, loops, few, settles, _⟩, deep, within⟩ :=
    run_loops (bareScan grammar "a") none
  refine ⟨grammar, compiled, ⟨count, ended, loops, few, ?_⟩, deep (bareScan_allowing _ _ _),
    within lawful enclosed (bareScan_embedsInText _ _)⟩
  rw [← settles 6 few]
  exact halted

/-- A loop that leaves the text in its first round, though the patterns keep to it and nothing is embedded: a
group of the begin match stands behind that match. -/
theorem run_outOfText_peeking : ∃ grammar,
    Grammar.compile Pattern.engine.confined "a" Catalog.peeking = .ok grammar ∧ grammar.Lawful ∧
      (∀ allowed, (bareScan grammar "ab").EmbedsAllowing allowed) ∧
      (bareScan grammar "ab").EmbedsInText ∧
      ((bareScan grammar "ab").run none).halt = some .outOfText := by
  have answers : ((Grammar.compile Pattern.engine.confined "a" Catalog.peeking).toOption.map
      fun grammar => ((bareScan grammar "ab").run none).halt) = some (some .outOfText) := by
    decide +kernel
  obtain ⟨grammar, compiled, halted⟩ := Option.map_eq_some_iff.mp answers
  have compiled := eq_ok_of_toOption compiled
  exact ⟨grammar, compiled, (Grammar.lawful_of_compile Pattern.engine.confined_lawful compiled).1,
    bareScan_allowing _ _, bareScan_embedsInText _ _, halted⟩

end ScanContext

end Highlight
