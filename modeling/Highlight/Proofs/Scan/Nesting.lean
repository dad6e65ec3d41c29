import Highlight.Proofs.Scan.Bounds
import Highlight.Proofs.Scan.Options
import Highlight.Proofs.Scan.Stopping
import Highlight.Proofs.Scan.Trailing
import Highlight.Proofs.Settling
import Mathlib.Data.Prod.Lex
import Mathlib.Order.WellFounded

set_option autoImplicit false

/-! How deep scans are nested. A scan is nested within another one where a mode has its text scanned
with another grammar, or with the same one, so nothing ends the nesting unless the grammars come to an
end or the texts do. The texts do where part of the text gone through has been put away before the mode
is on: what is left in the buffer is shorter than the text then. That is shown for scans that begin
afresh; a scan that goes on with an earlier stack can begin within such a mode, but the first scan that
it calls for begins afresh. -/

namespace Highlight

open Outcome

/-- A computation that does not stop for nesting too deep. -/
abbrev Shallow {α : Type} (outcome : Except Halt α) : Prop :=
  Satisfies (· ≠ Halt.tooDeep) (fun _ => True) outcome

theorem Partial.shallow {α : Type} {outcome : Except Halt α} (satisfies : Partial outcome) :
    Shallow outcome :=
  satisfies.allowing fun halt same => by simp [same]

namespace ScanContext

/-! ### Scans whose embedded scans are nested to growing depths -/

def embedding (context : ScanContext) (embedded : ScanWith) : ScanContext :=
  { context with embedded }

@[simp] theorem embedding_catalog (context : ScanContext) (embedded : ScanWith) :
    (context.embedding embedded).catalog = context.catalog := rfl

@[simp] theorem embedding_grammar (context : ScanContext) (embedded : ScanWith) :
    (context.embedding embedded).grammar = context.grammar := rfl

@[simp] theorem embedding_text (context : ScanContext) (embedded : ScanWith) :
    (context.embedding embedded).text = context.text := rfl

@[simp] theorem embedding_settings (context : ScanContext) (embedded : ScanWith) :
    (context.embedding embedded).settings = context.settings := rfl

theorem alike_embedding (context : ScanContext) (embedded : ScanWith) :
    Alike context (context.embedding embedded) :=
  ⟨rfl, rfl, rfl⟩

@[simp] theorem meetIllegal_embedding (context : ScanContext) (embedded : ScanWith)
    (found : Pattern.RuleMatch) (lexeme : String) (state : ScanState) :
    (context.embedding embedded).meetIllegal found lexeme state =
      context.meetIllegal found lexeme state := rfl

@[simp] theorem addEmbedded_embedding (context : ScanContext) (embedded : ScanWith)
    (result : ScanResult) (state : ScanState) :
    (context.embedding embedded).addEmbedded result state = context.addEmbedded result state := rfl

/-- Computations that settle as scans are nested more deeply. -/
abbrev Grounded {α : Type} (bounded : Nat → Except Halt α) : Prop :=
  SettlesOn (· ≠ Halt.tooDeep) (fun _ => True) bounded

section

variable (context : ScanContext) (nested : Nat → ScanWith) {apart : Prop}

theorem resultOf_grounded {limits : ScanLimits} {words : String} {grammar : Grammar}
    (scans : Grounded fun depth =>
      nested depth grammar words (Detection.settings limits) none) :
    SettlesOn (· = Halt.outOfText) (fun _ => True) fun depth =>
      Detection.resultOf (nested depth) limits words grammar := by
  obtain ⟨outcome, shallow, least, comes⟩ := scans
  have answers : ∀ depth, least ≤ depth →
      nested depth grammar words (Detection.settings limits) none = outcome := comes
  unfold Detection.resultOf
  cases outcome with
  | ok scanned =>
      refine ⟨.ok scanned.result, Satisfies.ok trivial, least, fun depth within => ?_⟩
      simp only [answers depth within]
  | error halt =>
      cases halt with
      | failed error =>
          refine ⟨.ok { ScanResult.plain grammar.name words with failed := true },
            Satisfies.ok trivial, least, fun depth within => ?_⟩
          simp only [answers depth within]
      | outOfText =>
          refine ⟨.error .outOfText, Satisfies.error rfl, least, fun depth within => ?_⟩
          simp only [answers depth within]
      | tooDeep => exact absurd rfl (shallow.fails _ rfl)

/-- Detection settles if the scans of all grammars that take part do, and it does not fail then. -/
theorem detect_grounded {catalog : Catalog} {limits : ScanLimits} {words : String}
    {candidates : Option (List String)}
    (scans : ∀ grammar ∈ Detection.participants catalog candidates, Grounded fun depth =>
      nested depth grammar words (Detection.settings limits) none) :
    SettlesOn (· = Halt.outOfText) (fun _ => True) fun depth =>
      Detection.detect catalog (nested depth) words candidates limits := by
  have each := fun grammar member => resultOf_grounded nested (scans grammar member)
  have results : SettlesOn (· = Halt.outOfText) (fun _ => True) fun depth =>
      Detection.results catalog (nested depth) words candidates limits :=
    SettlesOn.bind (SettlesOn.mapM each) fun _ _ _ => Settles.const (Satisfies.ok trivial)
  exact SettlesOn.bind results fun _ _ _ => Settles.const (Satisfies.ok trivial)

theorem emitEmbedded_grounded {subLanguage : SubLanguage} {state : ScanState} {words : String}
    (embeds : (context.grammar.mode state.stack.top).subLanguage = some subLanguage)
    (inner : ∀ grammar stack settings,
      context.catalog.Embeds context.grammar state.stack.top grammar → words ≠ "" →
      (stack ≠ none → state.continuations.entries ≠ []) →
      Grounded fun depth => nested depth grammar words settings stack) :
    Grounded fun depth => (context.embedding (nested depth)).emitEmbedded subLanguage words state := by
  unfold emitEmbedded
  by_cases empty : words.isEmpty = true
  · simp only [if_pos empty]
    exact Settles.const (Satisfies.ok trivial)
  simp only [if_neg empty]
  have filled : words ≠ "" := by simpa using empty
  cases subLanguage with
  | named name =>
      simp only [embedding_catalog, embedding_settings, addEmbedded_embedding]
      cases found : context.catalog.find? name with
      | none => exact Settles.const (Satisfies.ok trivial)
      | some grammar =>
          have scans := inner grammar (state.continuations.find? name)
            { lenient := true, ignoreIllegal := true, limits := context.settings.limits }
            (.inl ⟨name, embeds, found⟩) filled fun going => by
              obtain ⟨stack, stored⟩ := Option.ne_none_iff_exists'.mp going
              exact List.ne_nil_of_mem (Dictionary.mem_of_find? stored)
          exact SettlesOn.bind scans fun scanned _ _ => Settles.const (Satisfies.ok trivial)
  | detected candidates =>
      have detects := detect_grounded nested fun grammar member =>
        inner grammar none (Detection.settings context.settings.limits)
          (.inr ⟨candidates, embeds, member⟩) filled (by simp)
      refine SettlesOn.bind (SettlesOn.weaken detects (by simp)) fun result _ _ => ?_
      simp only [addEmbedded_embedding]
      exact Settles.const (Satisfies.ok trivial)

theorem flush_grounded {state : ScanState}
    (inner : ∀ grammar stack settings,
      context.catalog.Embeds context.grammar state.stack.top grammar → state.buffer ≠ "" →
      (stack ≠ none → state.continuations.entries ≠ []) →
      Grounded fun depth => nested depth grammar state.buffer settings stack) :
    Grounded fun depth => (context.embedding (nested depth)).flush state := by
  have alike := alike_embedding context
  simp only [flush, (alike _).topMode_eq, (alike _).emitKeywords_eq]
  cases embeds : (context.topMode { state with buffer := "" }).subLanguage with
  | none => exact Settles.const (emitKeywords_partial context _ _).shallow
  | some subLanguage => exact emitEmbedded_grounded context nested embeds inner

/-- Whatever the buffer holds that is put away while a mode is on, as long as it is the last part of
the text gone through, it settles what becomes of it. -/
def FlushesGrounded (apart : Prop) (top : Nat) : Prop :=
  ∀ state : ScanState, state.stack.top = top →
    (context.grammar.TakesOnce → ∃ stop, context.TrailsTo apart state stop) →
    Grounded fun depth => (context.embedding (nested depth)).flush state

variable {context nested}

theorem placeBeginLexeme_grounded {flags : ModeFlags} {lexeme : String} {start stop : Nat}
    {state : ScanState} (flushes : context.FlushesGrounded nested apart state.stack.top)
    (trails : context.grammar.TakesOnce → context.TrailsTo apart state start)
    (matched : context.text.part start stop = .ok lexeme) :
    Grounded fun depth =>
      (context.embedding (nested depth)).placeBeginLexeme flags lexeme state := by
  unfold placeBeginLexeme
  by_cases skip : flags.skip = true
  · simp only [if_pos skip]
    exact Settles.const (Satisfies.ok trivial)
  simp only [if_neg skip]
  have onward : ∀ flushed : ScanState, Shallow (if flags.returnBegin || flags.excludeBegin then
      pure flushed else pure { flushed with buffer := lexeme } : Except Halt ScanState) := by
    intro flushed
    split
    · exact Satisfies.ok trivial
    · exact Satisfies.ok trivial
  by_cases exclude : flags.excludeBegin = true
  · simp only [if_pos exclude]
    refine SettlesOn.bind (flushes { state with buffer := state.buffer ++ lexeme } rfl fun once =>
      ⟨stop, (trails once).append matched rfl rfl⟩) fun flushed _ _ => Settles.const (onward flushed)
  · simp only [if_neg exclude]
    exact SettlesOn.bind (flushes state rfl fun once => ⟨start, trails once⟩)
      fun flushed _ _ => Settles.const (onward flushed)

theorem placeEndLexeme_grounded {mode : Mode} {found : Pattern.RuleMatch} {lexeme : String}
    {state : ScanState} (flushes : context.FlushesGrounded nested apart state.stack.top)
    (trails : context.grammar.TakesOnce → context.TrailsTo apart state found.start)
    (matched : context.text.part found.start found.stop = .ok lexeme) :
    Grounded fun depth =>
      (context.embedding (nested depth)).placeEndLexeme mode found lexeme state := by
  have emptied : Grounded fun depth => (context.embedding (nested depth)).flush state :=
    flushes state rfl fun once => ⟨_, trails once⟩
  unfold placeEndLexeme
  have alike := alike_embedding context
  simp only [embedding_grammar, (alike _).emitGroups_eq]
  cases mode.endScope with
  | some emission =>
      cases emission with
      | whole scope =>
          exact SettlesOn.bind emptied fun flushed _ _ => Settles.const (Satisfies.ok trivial)
      | groups scopes =>
          exact SettlesOn.bind emptied fun flushed _ _ =>
            Settles.const (emitGroups_partial context found scopes found.start flushed).shallow
  | none =>
      dsimp only
      by_cases skip : mode.flags.skip = true
      · simp only [if_pos skip]
        exact Settles.const (Satisfies.ok trivial)
      simp only [if_neg skip]
      have onward : ∀ flushed : ScanState, Shallow (if mode.flags.excludeEnd then
          pure { flushed with buffer := lexeme } else pure flushed : Except Halt ScanState) := by
        intro flushed
        split
        · exact Satisfies.ok trivial
        · exact Satisfies.ok trivial
      by_cases away : (mode.flags.returnEnd || mode.flags.excludeEnd) = true
      · simp only [if_pos away]
        exact SettlesOn.bind emptied fun flushed _ _ => Settles.const (onward flushed)
      · simp only [if_neg away]
        refine SettlesOn.bind (flushes { state with buffer := state.buffer ++ lexeme } rfl fun once =>
          ⟨found.stop, (trails once).append matched rfl rfl⟩) fun flushed _ _ =>
          Settles.const (onward flushed)

/-! ### One round -/

theorem beginMode_grounded {place : Nat} {found : Pattern.RuleMatch} {lexeme : String}
    {state : ScanState} (flushes : context.FlushesGrounded nested apart state.stack.top)
    (trails : context.grammar.TakesOnce → context.TrailsTo apart state found.start)
    (matched : context.text.part found.start found.stop = .ok lexeme) :
    Grounded fun depth => (context.embedding (nested depth)).beginMode place found lexeme state := by
  have alike := alike_embedding context
  simp only [beginMode, embedding_grammar, (alike _).hookMatch_eq, (alike _).takeChar_eq,
    (alike _).startMode_eq]
  cases runBeginHooks (context.hookMatch found)
    ((context.grammar.mode place).beforeBegin.toList ++
      (context.grammar.mode place).onBegin.toList) {} with
  | none =>
      dsimp only
      refine Settles.const ?_
      split
      · exact Satisfies.ok trivial
      · exact Satisfies.ok trivial
  | some data =>
      refine SettlesOn.bind (placeBeginLexeme_grounded flushes trails matched) fun placed _ _ => ?_
      refine SettlesOn.after (startMode_partial context place found data placed).shallow fun started _ => ?_
      by_cases returns : (context.grammar.mode place).flags.returnBegin = true
      · simp only [returns, ↓reduceIte]
        exact Settles.const (Satisfies.ok trivial)
      · simp only [returns]
        exact Settles.const (Satisfies.ok trivial)

theorem endModes_grounded {found : Pattern.RuleMatch} {lexeme : String} {state : ScanState}
    (flushes : context.FlushesGrounded nested apart state.stack.top)
    (trails : context.grammar.TakesOnce → context.TrailsTo apart state found.start)
    (matched : context.text.part found.start found.stop = .ok lexeme) :
    Grounded fun depth => (context.embedding (nested depth)).endModes found lexeme state := by
  generalize asks : endingModes context.grammar (context.hookMatch found) state.stack.nested = answer
  obtain ⟨count, frames⟩ := answer
  have top : (⟨frames⟩ : ModeStack).top = state.stack.top := top_of_modes (modes_of_endingModes asks)
  have alike := alike_embedding context
  simp only [endModes, embedding_grammar, (alike _).hookMatch_eq, (alike _).topMode_eq,
    (alike _).startMode_eq, (alike _).leaveModes_eq, asks]
  cases count with
  | none => exact Settles.const (Satisfies.ok trivial)
  | some count =>
      have framed : context.grammar.TakesOnce →
          context.TrailsTo apart { state with stack := ⟨frames⟩ } found.start :=
        fun once => (trails once).of_same rfl rfl
      have still : context.FlushesGrounded nested apart
          ({ state with stack := ⟨frames⟩ } : ScanState).stack.top := by
        rw [top]
        exact flushes
      refine SettlesOn.bind (placeEndLexeme_grounded still framed matched) fun placed _ _ => ?_
      cases (context.grammar.mode
          (((frames[count - 1]?).map Frame.mode).getD Mode.root)).starts with
      | none => exact Settles.const (Satisfies.ok trivial)
      | some next =>
          exact SettlesOn.after (startMode_partial context next found {} _).shallow
            fun started _ => Settles.const (Satisfies.ok trivial)

theorem meetIllegal_shallow (context : ScanContext) (found : Pattern.RuleMatch) (lexeme : String)
    (state : ScanState) : Shallow (context.meetIllegal found lexeme state) := by
  unfold meetIllegal
  split
  · exact Satisfies.ok trivial
  · exact Satisfies.error (by simp)

theorem process_grounded {found : Pattern.RuleMatch} {state : ScanState}
    (flushes : context.FlushesGrounded nested apart state.stack.top)
    (trails : context.grammar.TakesOnce → context.TrailsTo apart state state.position) :
    Grounded fun depth => (context.embedding (nested depth)).process found state := by
  have alike := alike_embedding context
  simp only [process, embedding_text, embedding_settings, embedding_grammar, (alike _).takeChar_eq,
    meetIllegal_embedding]
  refine SettlesOn.after (Text.part_partial _ _ _).shallow fun skipped skippedTaken => ?_
  refine SettlesOn.after (Text.part_partial _ _ _).shallow fun lexeme lexemeTaken => ?_
  by_cases repeats : repeatsLast found { state with buffer := state.buffer ++ skipped } = true
  · simp only [if_pos repeats]
    by_cases lenient : context.settings.lenient = true
    · simp only [lenient, ↓reduceIte]
      exact Settles.const (Satisfies.ok trivial)
    · simp only [lenient]
      exact Settles.const (Satisfies.error (by simp))
  · simp only [if_neg repeats]
    have arrived : context.grammar.TakesOnce → context.TrailsTo apart
        { state with buffer := state.buffer ++ skipped, lastMatch := some (found.rule, found.start) }
        found.start :=
      fun once => (trails once).append skippedTaken rfl rfl
    cases found.rule with
    | begins place => exact beginMode_grounded flushes arrived lexemeTaken
    | ends => exact endModes_grounded flushes arrived lexemeTaken
    | illegal => exact Settles.const (meetIllegal_shallow context found lexeme _)

theorem step_grounded {state : ScanState}
    (flushes : context.FlushesGrounded nested apart state.stack.top)
    (trails : context.grammar.TakesOnce → context.TrailsTo apart state state.position) :
    Grounded fun depth => (context.embedding (nested depth)).step state := by
  have alike := alike_embedding context
  simp only [step, embedding_text, embedding_grammar, (alike _).tooManyRounds_eq]
  cases context.grammar.matcher state.stack.top with
  | error cause => exact Settles.const (Satisfies.error (by simp))
  | ok matcher =>
      dsimp only
      cases matcher.find? context.text state.position with
      | none => exact Settles.const (Satisfies.ok trivial)
      | some found =>
          dsimp only
          by_cases many : context.tooManyRounds (state.rounds + 1) found.start = true
          · simp only [many, ↓reduceIte]
            exact Settles.const (Satisfies.error (by simp))
          · simp only [many]
            exact process_grounded flushes fun once => (trails once).of_same rfl rfl

/-! ### A whole scan -/

/-- A run that has not stopped for nesting too deep, and if it has come to the last text, has that text
in the buffer as far as it has not been put away. -/
def Reaches (context : ScanContext) (stack : Option ModeStack) (run : Run) : Prop :=
  run.halt ≠ some .tooDeep ∧ (run.halt = none → context.grammar.TakesOnce → context.TrailsTo
    (stack = none ∧ context.grammar.SetsApart run.state.stack.top) run.state run.state.position)

variable {stack : Option ModeStack}
  (flushes : ∀ top, context.FlushesGrounded nested (stack = none ∧ context.grammar.SetsApart top) top)

include flushes in
theorem runRounds_grounded (rounds : Nat) {state : ScanState}
    (reached : ∃ least, ∀ depth, least ≤ depth →
      (context.embedding (nested depth)).RoundStart stack state)
    (trails : context.grammar.TakesOnce → context.TrailsTo False state state.position) :
    Settles (context.Reaches stack) fun depth =>
      (context.embedding (nested depth)).runRounds rounds state := by
  induction rounds generalizing state with
  | zero =>
      exact ⟨{ state, halt := some (.failed (.endless context.grammar.name 0)) },
        ⟨by simp, by simp⟩, 0, fun _ _ => rfl⟩
  | succ rounds ih =>
      obtain ⟨least, starts⟩ := reached
      have apart := fun once => (starts least (Nat.le_refl _)).trails (trails once)
      obtain ⟨outcome, shallow, later, steps⟩ := step_grounded (flushes state.stack.top) apart
      have stepped : ∀ depth, later ≤ depth →
          (context.embedding (nested depth)).step state = outcome := steps
      cases outcome with
      | error halt =>
          refine ⟨{ state, halt := some halt }, ⟨?_, by simp⟩, later, fun depth within => ?_⟩
          · simpa using shallow.fails halt rfl
          · simp only [runRounds, stepped depth within]
      | ok progress =>
          have round := round_of_step _ (stepped later (Nat.le_refl _))
          cases progress with
          | advance next =>
              have onward : context.grammar.TakesOnce →
                  context.TrailsTo False next next.position := fun once =>
                @Round.trails (context.embedding (nested later)) _ _ _ once (trails once) round
              obtain ⟨run, reaches, last, comes⟩ := ih
                ⟨max least later, fun depth within =>
                  (starts depth (by omega)).next (stepped depth (by omega))⟩ onward
              refine ⟨run, reaches, max later last, fun depth within => ?_⟩
              simp only [runRounds, stepped depth (by omega)]
              exact comes depth (by omega)
          | finish final =>
              refine ⟨{ state := final, halt := none }, ⟨by simp, fun _ once => ?_⟩, later,
                fun depth within => ?_⟩
              · obtain ⟨top, kept⟩ := round.last
                dsimp only
                rw [top]
                exact kept (apart once)
              · simp only [runRounds, stepped depth within]

include flushes in
theorem run_grounded : Settles (fun run => run.halt ≠ some .tooDeep) fun depth =>
    (context.embedding (nested depth)).run stack := by
  have alike := alike_embedding context
  have begun : context.TrailsTo False (context.start stack) (context.start stack).position :=
    ⟨0, Text.part_self (Nat.zero_le _), by simp [start, Dictionary.empty, EmptyCollection.emptyCollection]⟩
  obtain ⟨run, ⟨shallow, trails⟩, least, ran⟩ := runRounds_grounded flushes
    (context.settings.limits.mostRounds context.text.byteSize) ⟨0, fun depth _ => .first⟩ fun _ => begun
  have rounds : ∀ depth, least ≤ depth → (context.embedding (nested depth)).runRounds
      (context.settings.limits.mostRounds context.text.byteSize) (context.start stack) = run := ran
  cases halted : run.halt with
  | some halt =>
      refine ⟨run, shallow, least, fun depth within => ?_⟩
      simp only [ScanContext.run, embedding_settings, embedding_text, (alike _).start_eq,
        rounds depth within, halted]
  | none =>
      have rest : Grounded fun depth => (context.embedding (nested depth)).takeRest run.state := by
        unfold takeRest
        simp only [embedding_text]
        refine SettlesOn.after (Text.part_partial _ _ _).shallow fun rest taken => ?_
        refine flushes _ _ rfl fun once => ⟨context.text.size, ?_⟩
        exact (trails halted once).append taken rfl rfl
      obtain ⟨outcome, fine, later, takes⟩ := rest
      have taken : ∀ depth, later ≤ depth →
          (context.embedding (nested depth)).takeRest run.state = outcome := takes
      cases outcome with
      | ok state =>
          refine ⟨{ state, halt := none }, by simp, max least later, fun depth within => ?_⟩
          simp only [ScanContext.run, embedding_settings, embedding_text, (alike _).start_eq,
            rounds depth (by omega), halted, taken depth (by omega)]
      | error halt =>
          have stops : halt ≠ .tooDeep := fine.fails halt rfl
          refine ⟨{ run with halt := some halt }, by simpa using stops, max least later,
            fun depth within => ?_⟩
          simp only [ScanContext.run, embedding_settings, embedding_text, (alike _).start_eq,
            rounds depth (by omega), halted, taken depth (by omega)]

theorem result_shallow {run : Run} (shallow : run.halt ≠ some .tooDeep) :
    Shallow (context.result run) := by
  unfold result
  split
  · exact Satisfies.ok trivial
  · split
    · exact Satisfies.ok trivial
    · exact Satisfies.error (by simp)
  · rename_i halt _ halted
    exact Satisfies.error fun deep => shallow (deep ▸ halted)

include flushes in
theorem scan_grounded : Grounded fun depth => (context.embedding (nested depth)).scan stack := by
  obtain ⟨run, shallow, least, ran⟩ := run_grounded flushes
  have reads : ∀ depth, least ≤ depth →
      (context.embedding (nested depth)).run stack = run := ran
  refine ⟨context.result run, result_shallow shallow, least, fun depth within => ?_⟩
  exact congrArg context.result (reads depth within)

end

end ScanContext

namespace Catalog

variable {catalog : Catalog}

/-- The grammars of a catalog are ranked: each one ranks no lower than those with which its texts can come
to be scanned, and higher where the texts need not be parts that are set apart. -/
def Ranks (catalog : Catalog) (rank : Grammar → Nat) : Prop :=
  ∀ entry ∈ catalog.grammars.entries, ∀ place inner, catalog.Embeds entry.2 place inner →
    rank inner < rank entry.2 ∨
      rank inner ≤ rank entry.2 ∧ entry.2.TakesOnce ∧ entry.2.SetsApart place

theorem Embeds.registered {grammar inner : Grammar} {place : Nat}
    (embeds : catalog.Embeds grammar place inner) :
    ∃ entry ∈ catalog.grammars.entries, entry.2 = inner := by
  rcases embeds with ⟨name, _, found⟩ | ⟨candidates, _, member⟩
  · exact Catalog.mem_of_find? found
  · exact Detection.mem_participants member

/-- How much there is left to nest: the rank of the grammar counts first, then the length of the text,
then whether the scan goes on with an earlier stack. -/
def nestingMeasure (rank : Grammar → Nat) (grammar : Grammar) (text : String)
    (stack : Option ModeStack) : Nat ×ₗ Nat ×ₗ Nat :=
  toLex (rank grammar, toLex (text.toList.length, if stack.isSome then 1 else 0))

theorem scanNested_grounded {rank : Grammar → Nat} (ranks : catalog.Ranks rank)
    {entry : String × Grammar} (registered : entry ∈ catalog.grammars.entries) (text : String)
    (settings : ScanSettings) (stack : Option ModeStack) :
    ScanContext.Grounded fun depth => catalog.scanNested depth entry.2 text settings stack := by
  induction measured : nestingMeasure rank entry.2 text stack using WellFoundedLT.induction
    generalizing entry text settings stack with
  | ind measure ih =>
  subst measured
  refine Settles.of_succ ?_
  change ScanContext.Grounded fun depth => ((catalog.nestedContext 0 entry.2 text settings).embedding
    (catalog.scanNested depth)).scan stack
  refine ScanContext.scan_grounded fun top state onTop trails => ?_
  refine ScanContext.flush_grounded _ _ fun inner saved _ embeds _ going => ?_
  change catalog.Embeds entry.2 state.stack.top inner at embeds
  obtain ⟨inner, innerRegistered, rfl⟩ := embeds.registered
  refine ih _ ?_ innerRegistered _ _ saved rfl
  rcases ranks entry registered _ _ embeds with lower | ⟨noHigher, once, apart⟩
  · exact Prod.Lex.toLex_lt_toLex.mpr (.inl lower)
  rcases Nat.lt_or_eq_of_le noHigher with lower | same
  · exact Prod.Lex.toLex_lt_toLex.mpr (.inl lower)
  refine Prod.Lex.toLex_lt_toLex.mpr (.inr ⟨same, ?_⟩)
  obtain ⟨stop, start, part, ahead⟩ := trails once
  have length := Text.length_of_part part
  have within : stop ≤ (Text.ofString text).size := (Text.part_eq_ok_iff.mp part).1.2
  rw [Text.size_ofString] at within
  by_cases first : 0 < start
  · exact Prod.Lex.toLex_lt_toLex.mpr (.inl (by dsimp only; omega))
  -- nothing has been put away: the scan goes on with an earlier stack, and the next one does not
  have unsaved : saved = none := by
    by_contra goes
    exact first (ahead (.inl (going goes)))
  have resumed : stack ≠ none := by
    rintro rfl
    exact first (ahead (.inr ⟨rfl, onTop ▸ apart⟩))
  obtain ⟨earlier, rfl⟩ := Option.ne_none_iff_exists'.mp resumed
  subst unsaved
  rcases Nat.lt_or_eq_of_le (show state.buffer.toList.length ≤ text.toList.length by omega) with
    shorter | whole
  · exact Prod.Lex.toLex_lt_toLex.mpr (.inl shorter)
  · exact Prod.Lex.toLex_lt_toLex.mpr (.inr ⟨whole, by simp⟩)

/-- Nested scans come to an end in a catalog whose grammars are ranked: for each scan with one of them,
and for each detection, there is a depth from which on the result does not depend on how deep scans may
be nested, and it is not that they are nested too deep. Detection does not fail either. -/
theorem scanNested_settles {rank : Grammar → Nat} (ranks : catalog.Ranks rank) :
    (∀ entry ∈ catalog.grammars.entries, ∀ text settings stack,
      ∃ outcome, outcome ≠ .error .tooDeep ∧ ∃ least, ∀ depth, least ≤ depth →
        catalog.scanNested depth entry.2 text settings stack = outcome) ∧
    ∀ text candidates limits,
      ∃ outcome, (∀ halt, outcome = .error halt → halt = .outOfText) ∧ ∃ least, ∀ depth,
        least ≤ depth →
          Detection.detect catalog (catalog.scanNested depth) text candidates limits = outcome := by
  constructor
  · intro entry registered text settings stack
    obtain ⟨outcome, shallow, least, comes⟩ :=
      scanNested_grounded ranks registered text settings stack
    exact ⟨outcome, fun deep => shallow.fails _ deep rfl, least, comes⟩
  · intro text candidates limits
    obtain ⟨outcome, fine, least, comes⟩ := ScanContext.detect_grounded catalog.scanNested
      fun grammar member => by
        obtain ⟨entry, registered, rfl⟩ := Detection.mem_participants member
        exact scanNested_grounded ranks registered text (Detection.settings limits) none
    exact ⟨outcome, fine.fails, least, comes⟩

/-- A grammar that scans what stands between angles with itself. -/
def angled : GrammarDefinition where
  root := {
    contains := [.inline {
      begins := some (.one "<")
      ends := some (.one ">")
      flags := { excludeBegin := true }
      subLanguage := some (.one "a") }] }

/-- The engine that gives the patterns of the other one without matches that take up no text. -/
def takingEngine : Pattern.Engine := fun flags source =>
  (Pattern.engine flags source).map fun regex => { regex with
    search := fun text position => (regex.search text position).filter fun captures =>
      captures[0]?.join.any fun span => decide (span.start < span.stop) }

theorem takes_of_compile {name : String} {definition : GrammarDefinition} {grammar : Grammar}
    (compiled : Grammar.compile takingEngine name definition = .ok grammar) {place position : Nat}
    {set : Pattern.RuleSet} {text : Text} {found : Pattern.RuleMatch}
    (looks : grammar.matcher place = .ok set) (sighted : set.find? text position = some found) :
    found.start < found.stop := by
  obtain ⟨regex, present, sighted⟩ := Option.bind_eq_some_iff.mp sighted
  obtain ⟨flags, source, made⟩ := Grammar.regex_of_matcher compiled looks present
  obtain ⟨captures, searched, sighted⟩ := Option.bind_eq_some_iff.mp sighted
  obtain ⟨whole, here, sighted⟩ := Option.bind_eq_some_iff.mp sighted
  obtain ⟨_, _, sighted⟩ := Option.bind_eq_some_iff.mp sighted
  obtain rfl := Option.some.inj sighted
  unfold takingEngine at made
  cases given : Pattern.engine flags source with
  | error cause =>
      rw [given] at made
      cases made
  | ok other =>
      rw [given] at made
      obtain rfl := Except.ok.inj made
      simpa [here] using (Option.filter_eq_some_iff.mp searched).2

theorem scanNested_settles_angled : ∃ grammar,
    Grammar.compile takingEngine "a" angled = .ok grammar ∧
      ∃ outcome, outcome ≠ .error .tooDeep ∧ ∃ least, ∀ depth, least ≤ depth →
        (Catalog.put {} grammar).scanNested depth grammar "<<b>>" {} none = outcome := by
  have modes : ((Grammar.compile takingEngine "a" angled).toOption.map fun grammar =>
      grammar.modes.toList.map fun mode => (mode.subLanguage.isSome, mode.flags, mode.starts)) =
        some [(false, {}, none), (true, { excludeBegin := true }, none)] := by decide +kernel
  obtain ⟨grammar, compiled, modes⟩ := Option.map_eq_some_iff.mp modes
  replace compiled := eq_ok_of_toOption compiled
  obtain ⟨root, _, shape, rootParts, modes⟩ := List.map_eq_cons_iff.mp modes
  obtain ⟨inner, _, rfl, innerParts, modes⟩ := List.map_eq_cons_iff.mp modes
  obtain rfl := List.map_eq_nil_iff.mp modes
  simp only [Prod.mk.injEq] at rootParts innerParts
  obtain ⟨rootPlain, rootFlags, rootStarts⟩ := rootParts
  obtain ⟨_, innerFlags, innerStarts⟩ := innerParts
  have modeAt : ∀ place, grammar.mode place = ([root, inner][place]?).getD {} := by
    intro place
    unfold Grammar.mode
    rw [← Array.getElem?_toList, shape]
  have listed : ∀ mode ∈ grammar.modes, mode = root ∨ mode = inner := by
    intro mode member
    simpa [shape] using Array.mem_toList_iff.mpr member
  have once : grammar.TakesOnce := by
    constructor
    · intro mode member returned
      rcases listed mode member with rfl | rfl <;> simp_all
    · intro mode member returned
      rcases listed mode member with rfl | rfl <;> simp_all
  have excludes : grammar.Excludes 1 := by
    refine ⟨by simp [modeAt, innerFlags], by simp [modeAt, innerFlags], fun outer => ?_,
      fun _ _ _ _ _ looks sighted _ => takes_of_compile compiled looks sighted⟩
    rcases outer with _ | _ | outer <;> simp [modeAt, rootStarts, innerStarts]
  have ranks : (Catalog.put {} grammar).Ranks fun _ => 0 := by
    intro entry member place other embeds
    obtain rfl : entry = (grammar.name, grammar) := List.mem_singleton.mp member
    obtain rfl : place = 1 := by
      have some_ : (grammar.mode place).subLanguage ≠ none := by
        rcases embeds with ⟨name, sub, _⟩ | ⟨candidates, sub, _⟩ <;> simp [sub]
      rcases place with _ | _ | place
      · exact absurd (by simpa [modeAt] using rootPlain) some_
      · rfl
      · simp [modeAt] at some_
    exact .inr ⟨Nat.le_refl _, once, ScanContext.setsApart_of_excludes once (by decide) excludes⟩
  exact ⟨grammar, compiled,
    (scanNested_settles ranks).1 _ (List.mem_singleton_self (grammar.name, grammar)) "<<b>>" {} none⟩

def selfish : GrammarDefinition where
  root := { subLanguage := some (.one "a") }

/-- Scans of a grammar whose root looks for nothing, and has its text scanned with the same grammar, are
nested too deep however deep they may be. -/
theorem scanNested_tooDeep {grammar : Grammar} {matcher : Pattern.RuleSet} {name text : String}
    (silent : grammar.matcher Mode.root = .ok matcher) (nothing : matcher.regex = none)
    (embeds : (grammar.mode Mode.root).subLanguage = some (.named name))
    (found : catalog.find? name = some grammar) (filled : text ≠ "") (depth : Nat)
    (settings : ScanSettings) :
    catalog.scanNested depth grammar text settings none = .error .tooDeep := by
  induction depth generalizing settings with
  | zero => rfl
  | succ depth ih =>
      let context := catalog.nestedContext depth grammar text settings
      let last := { context.start none with rounds := 1 }
      have silent : context.grammar.matcher (context.start none).stack.top = .ok matcher := silent
      have embeds : (context.topMode { last with
          buffer := "", position := context.text.size }).subLanguage = some (.named name) := embeds
      have found : context.catalog.find? name = some grammar := found
      have stepped : context.step (context.start none) = .ok (.finish last) := by
        simp only [ScanContext.step, silent, Pattern.RuleSet.find?, nothing]
        rfl
      have ran : context.runRounds (context.settings.limits.mostRounds context.text.byteSize)
          (context.start none) = { state := last, halt := none } := by
        unfold ScanLimits.mostRounds ScanContext.runRounds
        rw [stepped]
      have whole : context.text.part last.position context.text.size = .ok text := by
        have part := Text.part_whole (Text.ofString text)
        rwa [Text.toString_ofString] at part
      have flushed : context.flush { last with buffer := text, position := context.text.size } =
          .error .tooDeep := by
        have nonempty : ¬text.isEmpty = true := by simpa using filled
        simp only [ScanContext.flush, embeds, ScanContext.emitEmbedded, if_neg nonempty, found]
        change (catalog.scanNested depth grammar text _ none >>= _) = _
        rw [ih]
        rfl
      have taken : context.takeRest last = .error .tooDeep := by
        have buffer : last.buffer ++ text = text := String.empty_append
        unfold ScanContext.takeRest
        rw [whole, ok_bind, buffer]
        exact flushed
      change context.result (context.run none) = _
      simp only [ScanContext.run, ran, taken]
      rfl

/-- The grammar that scans its own text with itself can be registered, and neither a scan with it nor
detection ever comes to an end. -/
theorem scanNested_tooDeep_selfish : ∃ catalog grammar,
    Catalog.register {} Pattern.engine "a" selfish = .ok catalog ∧
      catalog.find? "a" = some grammar ∧
      (∀ depth, catalog.scanNested depth grammar "x" {} none = .error .tooDeep) ∧
      ∀ depth, Detection.detect catalog (catalog.scanNested depth) "x" none {} = .error .tooDeep := by
  have answers : ((Catalog.register {} Pattern.engine "a" selfish).toOption.bind fun catalog =>
      (catalog.find? "a").map fun grammar =>
        (match grammar.matcher Mode.root with
          | .ok matcher => matcher.regex.isNone
          | .error _ => false) &&
        (grammar.mode Mode.root).subLanguage == some (.named "a") &&
        (catalog.names == ["a"] && !grammar.definition.disableAutodetect)) = some true := by
    decide +kernel
  obtain ⟨catalog, registered, answers⟩ := Option.bind_eq_some_iff.mp answers
  obtain ⟨grammar, found, answers⟩ := Option.map_eq_some_iff.mp answers
  simp only [Bool.and_eq_true, beq_iff_eq, Bool.not_eq_true'] at answers
  obtain ⟨⟨silent, embeds⟩, names, detects⟩ := answers
  split at silent
  · rename_i matcher compiled
    have deep : ∀ depth settings,
        catalog.scanNested depth grammar "x" settings none = .error .tooDeep :=
      scanNested_tooDeep compiled (by simpa using silent) embeds found (by decide)
    have alone : Detection.participants catalog none = [grammar] := by
      simp [Detection.participants, names, found, detects]
    refine ⟨catalog, grammar, eq_ok_of_toOption registered, found, fun depth => deep depth {},
      fun depth => ?_⟩
    have result : Detection.resultOf (catalog.scanNested depth) {} "x" grammar = .error .tooDeep := by
      unfold Detection.resultOf
      rw [deep]
    unfold Detection.detect Detection.results
    rw [alone, List.mapM_cons, result]
    rfl
  · cases silent

end Catalog

end Highlight
