import Highlight.Proofs.Scan.Parts
import Highlight.Scan.Run

set_option autoImplicit false

/-! Why a scan stops. What puts text into the tree stops where a part of the text is asked for that is not
there, and where it scans embedded texts, for what those scans stop for. So it is only a round itself that
fails: it looks for a match with a matcher that cannot be compiled, has gone round too often, repeats a
match, or meets text that does not belong, and then it has found that text in its own text. This holds of
every grammar, whether or not its matches lie in the text. -/

namespace Highlight

open Outcome

/-- A grammar with which the text of a mode can come to be scanned. -/
def Catalog.Embeds (catalog : Catalog) (grammar : Grammar) (place : Nat) (inner : Grammar) : Prop :=
  (∃ name, (grammar.mode place).subLanguage = some (.named name) ∧ catalog.find? name = some inner) ∨
    ∃ candidates, (grammar.mode place).subLanguage = some (.detected candidates) ∧
      inner ∈ Detection.participants catalog candidates

/-- A computation that stops for nothing but a part of a text that is not there. -/
abbrev Partial {α : Type} (outcome : Except Halt α) : Prop :=
  Satisfies (· = Halt.outOfText) (fun _ => True) outcome

/-- A computation that does not fail, though it may stop otherwise. -/
abbrev Unfailing {α : Type} (outcome : Except Halt α) : Prop :=
  Satisfies (fun halt => ∀ error, halt ≠ .failed error) (fun _ => True) outcome

theorem Partial.allows {α : Type} {allowed : Halt → Prop} (missing : allowed .outOfText)
    {outcome : Except Halt α} (satisfies : Partial outcome) :
    Satisfies allowed (fun _ => True) outcome := by
  apply satisfies.allowing
  rintro halt rfl
  exact missing

/-- Whether text that does not belong is reported at a position of a text, if that is why a scan stops. -/
def Halt.Located (text : Text) : Halt → Prop
  | .failed (.illegalLexeme _ _ _ offset) => ∃ position ≤ text.size, text.byteOffset position = offset
  | _ => True

theorem Unfailing.located {α : Type} {text : Text} {outcome : Except Halt α}
    (unfailing : Unfailing outcome) : Satisfies (Halt.Located text) (fun _ => True) outcome := by
  refine unfailing.allowing fun halt unfailed => ?_
  cases halt with
  | failed error => exact absurd rfl (unfailed error)
  | outOfText => trivial
  | tooDeep => trivial

theorem Text.part_partial (text : Text) (start stop : Nat) : Partial (text.part start stop) := by
  unfold Text.part
  split
  · exact Satisfies.ok trivial
  · exact Satisfies.error rfl

namespace ScanContext

section

variable (context : ScanContext)

/-! ### What does not scan embedded texts -/

theorem emitWords_partial (table : KeywordTable) (text : Text) (rounds position last : Nat)
    (plain : String) (state : ScanState) :
    Partial (context.emitWords table text rounds position last plain state) := by
  have rest : ∀ (last : Nat) (plain : String) (state : ScanState), Partial (do
      let rest ← text.part last text.size
      return state.addText (plain ++ rest) : Except Halt ScanState) :=
    fun last plain state => (text.part_partial last text.size).bind fun _ _ => Satisfies.ok trivial
  induction rounds generalizing position last plain state with
  | zero => exact rest last plain state
  | succ rounds ih =>
      unfold emitWords
      split
      · exact rest last plain state
      · rename_i span found
        refine (Text.part_partial _ _ _).bind fun word _ => (Text.part_partial _ _ _).bind
          fun skipped _ => ?_
        dsimp only
        generalize (if span.start < span.stop then span.stop else span.stop + 1) = next
        by_cases more : next ≤ text.size
        · rw [if_pos more]
          exact ih _ _ _ _
        · rw [if_neg more]
          exact rest _ _ _

theorem emitKeywords_partial (text : String) (state : ScanState) :
    Partial (context.emitKeywords text state) := by
  unfold emitKeywords
  split
  · exact Satisfies.ok trivial
  · exact emitWords_partial context _ _ _ _ _ _ _

theorem emitGroups_partial (found : Pattern.RuleMatch) (groups : List (Nat × Option String))
    (position : Nat) (state : ScanState) :
    Partial (context.emitGroups found groups position state) := by
  induction groups generalizing position state with
  | nil => exact (Text.part_partial _ _ _).bind fun _ _ => emitKeywords_partial context _ _
  | cons entry rest ih =>
      obtain ⟨group, scope⟩ := entry
      unfold emitGroups
      split
      · exact ih _ _
      · split
        · exact ih _ _
        · refine (Text.part_partial _ _ _).bind fun between _ => ?_
          refine (emitKeywords_partial context _ _).bind fun middle _ => ?_
          refine (Text.part_partial _ _ _).bind fun lexeme _ => ?_
          cases scope with
          | none => exact (emitKeywords_partial context _ _).bind fun behind _ => ih _ _
          | some scope => exact ih _ _

theorem startMode_partial (place : Nat) (found : Pattern.RuleMatch) (data : HookData)
    (state : ScanState) : Partial (context.startMode place found data state) := by
  unfold startMode
  dsimp only
  split
  · exact Satisfies.ok trivial
  · exact (emitGroups_partial context _ _ _ _).bind fun _ _ => Satisfies.ok trivial
  · exact Satisfies.ok trivial

/-! ### What scans embedded texts -/

def EmbedsLeniently : Prop :=
  ∀ grammar text settings stack, settings.lenient = true →
    Unfailing (context.embedded grammar text settings stack)

/-- The lenient scans with grammars that the grammar embeds stop for reasons only that are allowed. -/
def EmbedsAllowing (allowed : Halt → Prop) : Prop :=
  ∀ place inner, context.catalog.Embeds context.grammar place inner → ∀ text settings stack,
    settings.lenient = true →
      Satisfies allowed (fun _ => True) (context.embedded inner text settings stack)

variable {context} {allowed : Halt → Prop}

theorem resultOf_allows {scan : ScanWith} {limits : ScanLimits} {words : String} {grammar : Grammar}
    (scans : Satisfies allowed (fun _ => True)
      (scan grammar words (Detection.settings limits) none)) :
    Satisfies allowed (fun _ => True) (Detection.resultOf scan limits words grammar) := by
  unfold Detection.resultOf
  split
  · exact Satisfies.ok trivial
  · exact Satisfies.ok trivial
  · rename_i halt _ stopped
    exact Satisfies.error (scans.fails halt stopped)

section

variable (missing : allowed .outOfText) (embeds : context.EmbedsAllowing allowed)

include embeds in
/-- Text that the mode at a place has scanned stops that scan for what its embedded scans stop for. -/
theorem emitEmbedded_allows {place : Nat} {subLanguage : SubLanguage}
    (scanned : (context.grammar.mode place).subLanguage = some subLanguage) (words : String)
    (state : ScanState) :
    Satisfies allowed (fun _ => True) (context.emitEmbedded subLanguage words state) := by
  unfold emitEmbedded
  split
  · exact Satisfies.ok trivial
  · split
    · rename_i name
      split
      · exact Satisfies.ok trivial
      · rename_i grammar found
        have scans := embeds place grammar (.inl ⟨name, scanned, found⟩)
        exact (scans _ _ _ rfl).bind fun _ _ => Satisfies.ok trivial
    · rename_i candidates
      unfold Detection.detect Detection.results
      simp only [bind_assoc]
      have scans := fun grammar member => embeds place grammar (.inr ⟨candidates, scanned, member⟩)
      apply Satisfies.bind (Satisfies.mapM fun grammar member =>
        resultOf_allows (scans grammar member _ _ _ rfl))
      intro _ _
      exact Satisfies.ok trivial

include missing embeds in
theorem flush_allows (state : ScanState) :
    Satisfies allowed (fun _ => True) (context.flush state) := by
  unfold flush
  dsimp only
  split
  · rename_i scanned
    exact emitEmbedded_allows embeds scanned _ _
  · exact (emitKeywords_partial context _ _).allows missing

include missing embeds in
theorem placeBeginLexeme_allows (flags : ModeFlags) (lexeme : String) (state : ScanState) :
    Satisfies allowed (fun _ => True) (context.placeBeginLexeme flags lexeme state) := by
  unfold placeBeginLexeme
  split
  · exact Satisfies.ok trivial
  · refine (flush_allows missing embeds _).bind fun flushed _ => ?_
    split
    · exact Satisfies.ok trivial
    · exact Satisfies.ok trivial

include missing embeds in
theorem placeEndLexeme_allows (mode : Mode) (found : Pattern.RuleMatch) (lexeme : String)
    (state : ScanState) :
    Satisfies allowed (fun _ => True) (context.placeEndLexeme mode found lexeme state) := by
  unfold placeEndLexeme
  split
  · exact (flush_allows missing embeds _).bind fun _ _ => Satisfies.ok trivial
  · exact (flush_allows missing embeds _).bind fun _ _ =>
      (emitGroups_partial context _ _ _ _).allows missing
  · split
    · exact Satisfies.ok trivial
    · refine (flush_allows missing embeds _).bind fun flushed _ => ?_
      split
      · exact Satisfies.ok trivial
      · exact Satisfies.ok trivial

include missing embeds in
theorem beginMode_allows (place : Nat) (found : Pattern.RuleMatch) (lexeme : String)
    (state : ScanState) :
    Satisfies allowed (fun _ => True) (context.beginMode place found lexeme state) := by
  unfold beginMode
  dsimp only
  split
  · split
    · exact Satisfies.ok trivial
    · exact Satisfies.ok trivial
  · refine (placeBeginLexeme_allows missing embeds _ _ _).bind fun placed _ => ?_
    exact ((startMode_partial context _ _ _ _).allows missing).bind fun _ _ => Satisfies.ok trivial

include missing embeds in
theorem endModes_allows (found : Pattern.RuleMatch) (lexeme : String) (state : ScanState) :
    Satisfies allowed (fun _ => True) (context.endModes found lexeme state) := by
  unfold endModes
  generalize endingModes context.grammar (context.hookMatch found) state.stack.nested = answer
  obtain ⟨count, frames⟩ := answer
  dsimp only
  cases count with
  | none => exact Satisfies.ok trivial
  | some count =>
      refine (placeEndLexeme_allows missing embeds _ _ _ _).bind fun placed _ => ?_
      split
      · exact ((startMode_partial context _ _ _ _).allows missing).bind fun _ _ =>
          Satisfies.ok trivial
      · exact Satisfies.ok trivial

include missing embeds in
theorem takeRest_allows (state : ScanState) :
    Satisfies allowed (fun _ => True) (context.takeRest state) := by
  unfold takeRest
  apply Satisfies.bind ((Text.part_partial _ _ _).allows missing)
  intro rest _
  exact flush_allows missing embeds _

end

/-! ### Rounds -/

section

variable (missing : allowed .outOfText) (embeds : context.EmbedsAllowing allowed)
  (own : ∀ error, (Halt.failed error).Located context.text → allowed (.failed error))

include missing embeds own

theorem process_allows (found : Pattern.RuleMatch) (state : ScanState) :
    Satisfies allowed (fun _ => True) (context.process found state) := by
  unfold process
  refine ((Text.part_partial _ _ _).allows missing).bind fun skipped _ => ?_
  cases taken : context.text.part found.start found.stop with
  | error halt =>
      have partly := context.text.part_partial found.start found.stop
      exact Satisfies.error ((partly.allows missing).fails halt taken)
  | ok lexeme =>
      have within : found.start ≤ context.text.size := by
        obtain ⟨⟨order, stops⟩, _⟩ := Text.part_eq_ok_iff.mp taken
        exact Nat.le_trans order stops
      rw [ok_bind]
      dsimp only
      split
      · split
        · exact Satisfies.ok trivial
        · exact Satisfies.error (own _ trivial)
      · split
        · exact beginMode_allows missing embeds _ _ _ _
        · exact endModes_allows missing embeds _ _ _
        · unfold meetIllegal
          split
          · exact Satisfies.ok trivial
          · exact Satisfies.error (own _ ⟨found.start, within, rfl⟩)

theorem step_allows (state : ScanState) :
    Satisfies allowed (fun _ => True) (context.step state) := by
  unfold step
  dsimp only
  split
  · exact Satisfies.error (own _ trivial)
  · split
    · exact Satisfies.ok trivial
    · split
      · exact Satisfies.error (own _ trivial)
      · exact process_allows missing embeds own _ _

theorem runRounds_allows (rounds : Nat) (state : ScanState) {halt : Halt}
    (halted : (context.runRounds rounds state).halt = some halt) : allowed halt := by
  induction rounds generalizing state with
  | zero =>
      obtain rfl := Option.some.inj halted
      exact own _ trivial
  | succ rounds ih =>
      unfold runRounds at halted
      split at halted
      · rename_i cause stepped
        obtain rfl := Option.some.inj halted
        exact (step_allows missing embeds own state).fails _ stepped
      · exact ih _ halted
      · cases halted

/-- A scan stops for a reason of its own, or for one for which its embedded scans stop. -/
theorem run_allows (stack : Option ModeStack) {halt : Halt}
    (halted : (context.run stack).halt = some halt) : allowed halt := by
  unfold run at halted
  dsimp only at halted
  split at halted
  · exact runRounds_allows missing embeds own _ _ halted
  · split at halted
    · cases halted
    · rename_i run cause taken
      obtain rfl := Option.some.inj halted
      exact (takeRest_allows missing embeds _).fails _ taken

end

theorem run_located (embeds : context.EmbedsLeniently) (stack : Option ModeStack) {halt : Halt}
    (halted : (context.run stack).halt = some halt) : halt.Located context.text := by
  apply run_allows trivial _ (fun _ located => located) stack halted
  intro _ inner _ text settings stack lenient
  exact (embeds inner text settings stack lenient).located

end

end ScanContext

namespace Catalog

/-- Lenient scans do not fail, however deep scans may be nested. -/
theorem scanNested_unfailing (catalog : Catalog) (depth : Nat) (grammar : Grammar) (text : String)
    {settings : ScanSettings} (stack : Option ModeStack) (lenient : settings.lenient = true) :
    Unfailing (catalog.scanNested depth grammar text settings stack) := by
  cases depth with
  | zero => exact Satisfies.error (by simp)
  | succ depth =>
      refine ⟨fun halt stopped error failed => ?_, fun _ _ => trivial⟩
      subst failed
      change ScanContext.result _ _ = _ at stopped
      unfold ScanContext.result at stopped
      split at stopped
      · cases stopped
      · rw [if_pos lenient] at stopped
        cases stopped
      · rename_i halt unfailed _
        exact unfailed error (Except.error.inj stopped)

end Catalog

end Highlight
