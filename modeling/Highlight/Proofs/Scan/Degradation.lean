import Highlight.Proofs.Scan.Nesting
import Highlight.Proofs.Scan.Stopping

set_option autoImplicit false

/-! What a lenient scan comes to when it fails. Whatever had been put into the tree by then is dropped: the
result is that of the bare text, with the place of the failure and the text around it. -/

namespace Highlight

open Outcome

/-- The characters around a position are those before it and behind it, as far as there are any. -/
theorem Text.around_ofString (text : String) (position reach : Nat) :
    (Text.ofString text).around position reach =
      String.ofList ((text.toList.take (position + reach)).drop (position - reach)) := by
  simp [around, between, ofString, List.drop_take]

theorem TokenTree.children_plain (text : String) :
    (TokenTree.plain text).children = if text = "" then [] else [.text text] := by
  unfold plain TreeBuilder.addText
  by_cases nothing : text = ""
  · rw [if_pos (by simpa using nothing), if_pos nothing]
    rfl
  · rw [if_neg (by simpa using nothing), if_neg nothing]
    rfl

/-- A scan of a text has failed and comes to the bare text. The failure is shown at a position of the
text, which for text that does not belong is that text's own, and unless it was for that, a later scan can
go on with its stack. -/
structure DegradedBy (text : String) (error : ScanError) (scanned : Scanned) : Prop where
  illegal : scanned.result.illegal = error.isIllegal
  failed : scanned.result.failed = !error.isIllegal
  irrelevant : scanned.result.relevance = 0
  bare : scanned.result.tree.children = if text = "" then [] else [.text text]
  shown : ∃ position ≤ text.toList.length, ∃ diagnostic,
    scanned.result.diagnostic = some diagnostic ∧
      diagnostic.message = error.message ∧
      diagnostic.mode = error.mode? ∧
      diagnostic.offset = (Text.ofString text).byteOffset position ∧
      (∀ grammar lexeme mode offset, error = .illegalLexeme grammar lexeme mode offset →
        diagnostic.offset = offset) ∧
      diagnostic.context =
        String.ofList ((text.toList.take (position + 100)).drop (position - 100))
  dropped : scanned.stack = none ↔ error.isIllegal = true

namespace ScanContext

variable {context : ScanContext} {stack : Option ModeStack}

/-- Where a failure is shown lies in the text; text that does not belong is shown where it stands. -/
theorem failurePosition_spec {error : ScanError} (state : ScanState)
    (located : (Halt.failed error).Located context.text) :
    context.failurePosition error state ≤ context.text.size ∧
      ∀ grammar lexeme mode offset, error = .illegalLexeme grammar lexeme mode offset →
        context.text.byteOffset (context.failurePosition error state) = offset := by
  cases error with
  | illegalLexeme grammar lexeme mode offset =>
      obtain ⟨position, within, rfl⟩ := located
      unfold failurePosition
      dsimp only
      rw [Text.position?_byteOffset _ _ within, Option.getD_some]
      refine ⟨within, fun _ _ _ _ same => ?_⟩
      injection same
  | zeroWidthMatch grammar offset => exact ⟨Nat.min_le_right _ _, by simp⟩
  | endless grammar offset => exact ⟨Nat.min_le_right _ _, by simp⟩
  | badMatcher cause => exact ⟨Nat.min_le_right _ _, by simp⟩

theorem finished_of_halt {scanned : Scanned} (halted : (context.run stack).halt = none)
    (scan : context.scan stack = .ok scanned) :
    scanned.result.illegal = false ∧ scanned.result.failed = false ∧
      scanned.result.diagnostic = none ∧ scanned.stack = some (context.run stack).state.stack := by
  unfold ScanContext.scan result at scan
  rw [halted] at scan
  obtain rfl := Except.ok.inj scan
  exact ⟨rfl, rfl, rfl, rfl⟩

/-- A lenient scan that has failed has nothing left of what it had come to. -/
theorem degradedBy_of_halt {text : String} (given : context.text = Text.ofString text)
    (lenient : context.settings.lenient = true)
    (embeds : context.EmbedsLeniently) {error : ScanError} {scanned : Scanned}
    (halted : (context.run stack).halt = some (.failed error))
    (scan : context.scan stack = .ok scanned) :
    DegradedBy text error scanned := by
  obtain ⟨within, atOffset⟩ :=
    failurePosition_spec (context.run stack).state (run_located embeds stack halted)
  unfold ScanContext.scan result at scan
  rw [halted] at scan
  dsimp only at scan
  rw [if_pos lenient] at scan
  obtain rfl := Except.ok.inj scan
  have size : context.text.size = text.toList.length := by
    rw [given, Text.size_ofString]
  refine ⟨rfl, rfl, rfl, ?_, ⟨context.failurePosition error (context.run stack).state, size ▸ within,
    _, rfl, rfl, rfl, ?_, atOffset, ?_⟩, ?_⟩
  · change (TokenTree.plain context.text.toString).children = _
    rw [given, Text.toString_ofString, TokenTree.children_plain]
  · rw [← given]
  · rw [← Text.around_ofString, ← given]
    rfl
  · cases error.isIllegal <;> simp

end ScanContext

namespace Catalog

/-- What a lenient scan comes to. If it gives a result, then either it has come to its end or it is
degraded by the failure for which its run has stopped. It gives none only where part of a match is sought
outside of its text or embedded scans are nested too deep, and so it does give one, with scans nested as
deep as it takes, in a catalog whose grammars are ranked, if these were compiled by a lawful engine and no
match is split up by groups that end behind it. -/
theorem scanNested_lenient (catalog : Catalog) (grammar : Grammar) (text : String)
    {settings : ScanSettings} (stack : Option ModeStack) (lenient : settings.lenient = true) :
    (∀ depth scanned, catalog.scanNested (depth + 1) grammar text settings stack = .ok scanned →
      let run := (catalog.nestedContext depth grammar text settings).run stack
      (run.halt = none ∧ scanned.result.illegal = false ∧ scanned.result.failed = false ∧
        scanned.result.diagnostic = none ∧ scanned.stack = some run.state.stack) ∨
      ∃ error, run.halt = some (.failed error) ∧ DegradedBy text error scanned) ∧
    (∀ depth halt, catalog.scanNested depth grammar text settings stack = .error halt →
      halt = .outOfText ∨ halt = .tooDeep) ∧
    ∀ name, (name, grammar) ∈ catalog.grammars.entries →
      (∀ entry ∈ catalog.grammars.entries, entry.2.Lawful) →
      (∀ entry ∈ catalog.grammars.entries, entry.2.GroupsEnclosed) →
      (∃ rank, catalog.Ranks rank) →
      ∃ least, ∀ depth, least ≤ depth →
        ∃ scanned, catalog.scanNested depth grammar text settings stack = .ok scanned := by
  refine ⟨fun depth scanned scan => ?_, fun depth halt stopped => ?_, ?_⟩
  · let context := catalog.nestedContext depth grammar text settings
    have scan : context.scan stack = .ok scanned := scan
    cases halted : (context.run stack).halt with
    | none => exact .inl ⟨halted, ScanContext.finished_of_halt halted scan⟩
    | some halt =>
        cases halt with
        | failed error =>
            have embeds : context.EmbedsLeniently := fun inner words given saved soft =>
              catalog.scanNested_unfailing depth inner words saved soft
            exact .inr ⟨error, halted, ScanContext.degradedBy_of_halt rfl lenient embeds halted scan⟩
        | outOfText => simp [ScanContext.scan, ScanContext.result, halted] at scan
        | tooDeep => simp [ScanContext.scan, ScanContext.result, halted] at scan
  · have unfailed := (catalog.scanNested_unfailing depth grammar text stack lenient).fails halt stopped
    cases halt with
    | failed error => exact absurd rfl (unfailed error)
    | outOfText => exact .inl rfl
    | tooDeep => exact .inr rfl
  · rintro name registered lawful enclosed ⟨rank, ranks⟩
    obtain ⟨outcome, shallow, least, comes⟩ :=
      scanNested_grounded ranks registered text settings stack
    refine ⟨least, fun depth deep => ?_⟩
    have settled : catalog.scanNested depth grammar text settings stack = outcome := comes depth deep
    cases outcome with
    | ok scanned => exact ⟨scanned, settled⟩
    | error halt =>
        have halts := scanNested_halts lawful enclosed depth _ registered text settings stack halt settled
        exact absurd (halts.2 lenient) (shallow.fails halt rfl)

/-- A grammar to which no text with a certain letter belongs. -/
def forbidding : GrammarDefinition where
  root := { illegal := some (.one "b") }

theorem scanNested_lenient_forbidding : ∃ grammar scanned,
    Grammar.compile Pattern.engine.confined "a" forbidding = .ok grammar ∧
      (Catalog.put {} grammar).scanNested 1 grammar "ab" {} none = .ok scanned ∧
      (∃ error, error.isIllegal = true ∧ DegradedBy "ab" error scanned) ∧
      ∃ least, ∀ depth, least ≤ depth → ∃ later,
        (Catalog.put {} grammar).scanNested depth grammar "ab" {} none = .ok later := by
  have answers : ((Grammar.compile Pattern.engine.confined "a" forbidding).toOption.bind fun grammar =>
      ((Catalog.put {} grammar).scanNested 1 grammar "ab" {} none).toOption.map fun scanned =>
        ((grammar.modes.all fun mode => mode.beginScope.isNone && mode.endScope.isNone &&
          mode.subLanguage.isNone), scanned.result.illegal)) = some (true, true) := by
    decide +kernel
  obtain ⟨grammar, compiled, answers⟩ := Option.bind_eq_some_iff.mp answers
  obtain ⟨scanned, scan, answers⟩ := Option.map_eq_some_iff.mp answers
  obtain ⟨plain, illegal⟩ := Prod.mk.inj answers
  replace compiled := eq_ok_of_toOption compiled
  replace scan := eq_ok_of_toOption scan
  have bare : ∀ mode ∈ grammar.modes, (mode.beginScope = none ∧ mode.endScope = none) ∧
      mode.subLanguage = none := by
    intro mode member
    simpa using Array.all_eq_true_iff_forall_mem.mp plain mode member
  have alone : ∀ entry ∈ (Catalog.put {} grammar).grammars.entries, entry = (grammar.name, grammar) :=
    fun entry member => List.mem_singleton.mp member
  have lawful : grammar.Lawful :=
    (Grammar.lawful_of_compile Pattern.engine.confined_lawful compiled).1
  have enclosed : grammar.GroupsEnclosed := by
    refine .of_whole lawful fun mode member emission shape => ?_
    simp [bare mode member] at shape
  have ranks : (Catalog.put {} grammar).Ranks fun _ => 0 := by
    intro entry member place inner embeds
    obtain rfl := alone entry member
    have silent : (grammar.mode place).subLanguage = none := by
      unfold Grammar.mode
      cases found : grammar.modes[place]? with
      | none => rfl
      | some mode => exact (bare mode (Array.mem_of_getElem? found)).2
    rcases embeds with ⟨name, sub, _⟩ | ⟨candidates, sub, _⟩
    · simp [silent] at sub
    · simp [silent] at sub
  have lenient : ({} : ScanSettings).lenient = true := rfl
  have degrades := scanNested_lenient (Catalog.put {} grammar) grammar "ab" none lenient
  obtain ⟨least, comes⟩ := degrades.2.2 grammar.name (List.mem_singleton_self _)
    (fun entry member => by rw [alone entry member]; exact lawful)
    (fun entry member => by rw [alone entry member]; exact enclosed) ⟨_, ranks⟩
  refine ⟨grammar, scanned, compiled, scan, ?_, least, comes⟩
  rcases degrades.1 0 scanned scan with ⟨_, legal, _⟩ | ⟨error, _, degraded⟩
  · rw [illegal] at legal
    cases legal
  · exact ⟨error, degraded.illegal.symm.trans illegal, degraded⟩

/-- A lenient scan that gives no result: a group of its match stands behind it. -/
theorem scanNested_lenient_peeking : ∃ catalog grammar,
    Catalog.register {} Pattern.engine "a" peeking = .ok catalog ∧
      catalog.find? "a" = some grammar ∧
      catalog.scanWith grammar "ab" { lenient := true } none = .error .outOfText := by
  have answers : ((Catalog.register {} Pattern.engine "a" peeking).toOption.bind fun catalog =>
      (catalog.find? "a").map fun grammar =>
        match catalog.scanWith grammar "ab" { lenient := true } none with
        | .error halt => some halt
        | .ok _ => none) = some (some .outOfText) := by decide +kernel
  obtain ⟨catalog, registered, answers⟩ := Option.bind_eq_some_iff.mp answers
  obtain ⟨grammar, found, answer⟩ := Option.map_eq_some_iff.mp answers
  refine ⟨catalog, grammar, eq_ok_of_toOption registered, found, ?_⟩
  split at answer
  · rename_i halt stopped
    rw [stopped, Option.some.inj answer]
  · cases answer

end Catalog

end Highlight
