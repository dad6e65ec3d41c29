import Highlight.Proofs.Grammar.Places
import Highlight.Proofs.Scan.Detection
import Highlight.Proofs.Scan.Ledger
import Highlight.Scan.Run

set_option autoImplicit false

/-! No text is lost in a scan and none is repeated. The invariant is that the text gone through, in the
tree and in the buffer, is the text up to the position of the scan. Each outcome of a round keeps it,
except where a mode that gives back its begin or end match also puts that match somewhere, or where
groups are given scopes although the buffer does not hold just the match; `Grammar.KeepsText` rules that
out. Embedded texts are taken care of by induction on how deep scans are nested. -/

namespace Highlight

open Outcome

def Emission.isGroups : Emission → Bool
  | .groups _ => true
  | .whole _ => false

namespace Grammar

/-- No mode of the grammar both gives a match back and puts it somewhere, and groups are given scopes
only where the match alone is in the buffer. -/
structure KeepsText (grammar : Grammar) : Prop where
  returnBegin : ∀ mode ∈ grammar.modes, mode.flags.returnBegin = true →
    mode.flags.skip = false ∧ mode.flags.excludeBegin = false ∧
      mode.beginScope.any Emission.isGroups = false
  returnEnd : ∀ mode ∈ grammar.modes, mode.flags.returnEnd = true →
    mode.flags.skip = false ∧ mode.flags.excludeEnd = false ∧ mode.endScope = none
  groups : ∀ mode ∈ grammar.modes, mode.beginScope.any Emission.isGroups = true →
    mode.flags.skip = false ∧ mode.flags.excludeBegin = false
  starts : ∀ mode ∈ grammar.modes, ∀ next, mode.starts = some next →
    (grammar.mode next).beginScope.any Emission.isGroups = false

end Grammar

def Progress.state : Progress → ScanState
  | .advance state => state
  | .finish state => state

namespace ScanContext

variable {context : ScanContext}

/-- The text gone through is the text before the position of the scan. -/
def Conserves (context : ScanContext) (state : ScanState) : Prop :=
  context.text.part 0 state.position = .ok state.taken

/-! ### One round -/

theorem Arrival.taken {state arrived : ScanState} {found : Pattern.RuleMatch} {lexeme : String}
    (arrival : context.Arrival state found lexeme arrived)
    (conserves : context.Conserves state) :
    context.text.part 0 found.start = .ok arrived.taken := by
  obtain ⟨skipped, lastMatch, taken, rfl⟩ := arrival.reaches
  have joined := Text.part_append conserves taken
  simpa [ScanState.taken, String.append_assoc] using joined

/-- The text up to the end of a match is that up to its start with its text behind. -/
theorem Arrival.taken_lexeme {state arrived : ScanState} {found : Pattern.RuleMatch}
    {lexeme : String} (arrival : context.Arrival state found lexeme arrived)
    (conserves : context.Conserves state) :
    context.text.part 0 found.stop = .ok (arrived.taken ++ lexeme) :=
  Text.part_append (arrival.taken conserves) arrival.lexeme

theorem takeChar_conserves {position : Nat} {state : ScanState}
    (taken : context.text.part 0 position = .ok state.taken) :
    context.Conserves (Progress.state (context.takeChar position state)) := by
  unfold takeChar
  cases found : context.text.charAt? position with
  | none =>
      have within := (Text.part_eq_ok_iff.mp taken).1.2
      obtain rfl := Text.eq_size_of_charAt?_none within found
      exact taken
  | some c =>
      have joined := Text.part_append taken (Text.part_char found)
      rw [ScanState.taken, String.append_assoc, ← String.push_eq_append] at joined
      exact joined

/-- What is put behind a match that may be given back. -/
private theorem part_position {start stop : Nat} {before lexeme : String} (returned : Bool)
    (beforeTaken : context.text.part 0 start = .ok before)
    (lexemeTaken : context.text.part 0 stop = .ok (before ++ lexeme)) :
    context.text.part 0 (if returned then start else stop) =
      .ok (before ++ if returned then "" else lexeme) := by
  cases returned with
  | false => exact lexemeTaken
  | true => simpa using beforeTaken

private theorem part_ended {state arrived placed : ScanState} {found : Pattern.RuleMatch}
    {lexeme : String} {frames : List Frame} (faithful : context.Faithful)
    (keeps : context.grammar.KeepsText) (conserves : context.Conserves state)
    (arrival : context.Arrival state found lexeme arrived)
    (places : context.placeEndLexeme (context.grammar.mode arrived.stack.top) found lexeme
      { arrived with stack := ⟨frames⟩ } = .ok placed) (count : Nat) :
    context.text.part 0 (if (context.grammar.mode arrived.stack.top).flags.returnEnd
      then found.start else found.stop) = .ok (context.leaveModes count placed).taken := by
  have placedTaken := placeEndLexeme_taken faithful places arrival.lexeme
    (Grammar.mode_induction keeps.returnEnd (by simp) arrived.stack.top)
  have part := part_position (context.grammar.mode arrived.stack.top).flags.returnEnd
    (arrival.taken conserves) (arrival.taken_lexeme conserves)
  have left := leaveModes_taken context count placed
  rw [placedTaken] at left
  exact part.trans (congrArg Except.ok left.symm)

/-- A round keeps the text gone through. -/
theorem Round.conserves {state : ScanState} {progress : Progress} (faithful : context.Faithful)
    (keeps : context.grammar.KeepsText) (conserves : context.Conserves state)
    (round : context.Round state progress) : context.Conserves progress.state := by
  have returnsBegin := Grammar.mode_induction keeps.returnBegin (by simp)
  cases round with
  | exhausted => exact conserves
  | char arrival => exact takeChar_conserves (arrival.taken conserves)
  | ignored arrival =>
      have taken := arrival.taken_lexeme conserves
      simpa [Conserves, Progress.state, takeLexeme, ScanState.taken, String.append_assoc]
        using taken
  | refused arrival asks =>
      have taken := arrival.taken_lexeme conserves
      simpa [Conserves, Progress.state, takeLexeme, ScanState.taken, String.append_assoc]
        using taken
  | @begins found lexeme arrived placed started place data arrival rule places starts =>
      have groups := Grammar.mode_induction keeps.groups (by simp) place
      obtain ⟨placedTaken, alone⟩ := placeBeginLexeme_taken faithful places
        (fun returned => ⟨(returnsBegin place returned).1, (returnsBegin place returned).2.1⟩)
      have startedTaken : started.taken = placed.taken := by
        refine startMode_taken arrival.lexeme starts fun scopes shape => ?_
        have grouped : (context.grammar.mode place).beginScope.any Emission.isGroups = true := by
          simp [shape, Emission.isGroups]
        have kept : (context.grammar.mode place).flags.returnBegin = false :=
          Bool.eq_false_iff.mpr fun returned => by
            simp [(returnsBegin place returned).2.2] at grouped
        exact alone (groups grouped).1 (groups grouped).2 kept
      have part := part_position (context.grammar.mode place).flags.returnBegin
        (arrival.taken conserves) (arrival.taken_lexeme conserves)
      rw [← placedTaken, ← startedTaken] at part
      exact part
  | ends arrival asks places => exact part_ended faithful keeps conserves arrival places _
  | @continues found lexeme arrived placed started count next frames outer arrival asks places
      outermost follows starts =>
      have part := part_ended faithful keeps conserves arrival places count
      have ungrouped := @Grammar.mode_induction context.grammar
        (fun mode => ∀ next, mode.starts = some next →
          (context.grammar.mode next).beginScope.any Emission.isGroups = false)
        keeps.starts (by simp) outer.mode next follows
      have startedTaken : started.taken = (context.leaveModes count placed).taken := by
        refine startMode_taken arrival.lexeme starts fun scopes shape => ?_
        simp [shape, Emission.isGroups] at ungrouped
      rw [← startedTaken] at part
      exact part

/-! ### A whole scan -/

theorem start_conserves (context : ScanContext) (stack : Option ModeStack) :
    context.Conserves (context.start stack) := by
  have opened : ∀ (frames : List Frame) (tree : TreeBuilder), tree.text = "" →
      (frames.foldl context.openFrame tree).text = "" := by
    intro frames
    induction frames with
    | nil => exact fun tree empty => empty
    | cons frame rest ih =>
        intro tree empty
        rw [List.foldl_cons]
        refine ih _ ?_
        unfold openFrame
        cases (context.grammar.mode frame.mode).scope with
        | none => exact empty
        | some scope => exact (TreeBuilder.text_openScope _ _).trans empty
  have empty : (context.start stack).taken = "" :=
    congrArg (· ++ "") (opened (stack.getD {}).nested.reverse {} rfl)
  rw [Conserves, empty]
  exact Text.part_self (Nat.zero_le _)

theorem runRounds_conserves (faithful : context.Faithful) (keeps : context.grammar.KeepsText)
    (rounds : Nat) {state : ScanState} (conserves : context.Conserves state)
    (ended : (context.runRounds rounds state).halt = none) :
    context.Conserves (context.runRounds rounds state).state := by
  induction rounds generalizing state with
  | zero => simp [runRounds] at ended
  | succ rounds ih =>
      unfold runRounds at ended ⊢
      cases stepped : context.step state with
      | error halt => simp [stepped] at ended
      | ok progress =>
          have kept := (round_of_step context stepped).conserves faithful keeps conserves
          rw [stepped] at ended
          cases progress with
          | advance next => exact ih kept ended
          | finish last => exact kept

/-- A scan that comes to the end of its text has put all of it into the tree. -/
theorem run_text (faithful : context.Faithful) (keeps : context.grammar.KeepsText)
    {stack : Option ModeStack} (ended : (context.run stack).halt = none) :
    (context.run stack).state.tree.text = context.text.toString := by
  unfold run at ended ⊢
  dsimp only at ended ⊢
  have conserved := runRounds_conserves faithful keeps
    (context.settings.limits.mostRounds context.text.byteSize) (start_conserves context stack)
  generalize context.runRounds _ _ = rounded at conserved ended ⊢
  cases halted : rounded.halt with
  | some halt => simp [halted] at ended
  | none =>
      rw [halted] at ended
      have conserves := conserved halted
      cases taken : context.takeRest rounded.state with
      | error halt => simp [taken] at ended
      | ok state =>
          obtain ⟨rest, restTaken, flushed⟩ := bind_eq_ok.mp taken
          have whole := Text.part_append conserves restTaken
          have same := Text.part_unique whole (Text.part_whole context.text)
          rw [ScanState.taken, String.append_assoc] at same
          exact (faithful _ _ flushed).trans same

/-- A scan whose embedded scans keep their texts keeps its own: a scan that fails gives back the bare
text. -/
theorem scan_text (faithful : context.Faithful) (keeps : context.grammar.KeepsText)
    {stack : Option ModeStack} {scanned : Scanned} (scan : context.scan stack = .ok scanned) :
    scanned.result.tree.text = context.text.toString := by
  unfold ScanContext.scan result at scan
  cases halted : (context.run stack).halt with
  | none =>
      rw [halted] at scan
      obtain rfl := Except.ok.inj scan
      exact (TreeBuilder.text_finish _).trans (run_text faithful keeps halted)
  | some halt =>
      rw [halted] at scan
      cases halt with
      | failed error =>
          dsimp only at scan
          split at scan
          · obtain rfl := Except.ok.inj scan
            exact TokenTree.text_plain _
          · cases scan
      | outOfText => cases scan
      | tooDeep => cases scan

/-! ### Nested scans -/

/-- The buffer goes into the tree as a whole if the embedded scans keep their texts. -/
theorem faithful_of_embedded
    (embedded : ∀ entry ∈ context.catalog.grammars.entries, ∀ text settings stack scanned,
      context.embedded entry.2 text settings stack = .ok scanned →
        scanned.result.tree.text = text) : context.Faithful := by
  intro state after flushed
  unfold flush at flushed
  dsimp only at flushed
  split at flushed
  · rename_i subLanguage _
    rcases emitEmbedded_cases context flushed with
      emits | ⟨name, grammar, settings, scanned, continuations, _, found, scan, rfl⟩ |
      ⟨candidates, result, _, detected, rfl⟩
    · exact emits.text
    · obtain ⟨entry, member, rfl⟩ := Catalog.mem_of_find? found
      simp [addEmbedded, embedded entry member _ _ _ _ scan, ScanState.taken]
    · have text : result.tree.text = state.buffer := by
        rcases Detection.detect_source detected with plain | ⟨entry, member, source, scan, same⟩
        · exact (congrArg TokenTree.text plain).trans (TokenTree.text_plain _)
        · rw [same]
          unfold Detection.resultOf at scan
          split at scan
          · rename_i scanned scans
            obtain rfl := Except.ok.inj scan
            exact embedded entry member _ _ _ _ scans
          · obtain rfl := Except.ok.inj scan
            exact TokenTree.text_plain _
          · cases scan
      simp [addEmbedded, text, ScanState.taken]
  · exact (emitKeywords_emits context flushed).text

end ScanContext

namespace Catalog

/-- A scan with a grammar of the catalog, whatever its text, its settings, the stack it goes on with and
the depth to which scans may be nested, gives a tree of exactly its text. -/
theorem scanNested_text {catalog : Catalog}
    (keeps : ∀ entry ∈ catalog.grammars.entries, entry.2.KeepsText) (depth : Nat)
    {name : String} {grammar : Grammar} (registered : (name, grammar) ∈ catalog.grammars.entries)
    (text : String) (settings : ScanSettings) (stack : Option ModeStack) {scanned : Scanned}
    (scan : catalog.scanNested depth grammar text settings stack = .ok scanned) :
    scanned.result.tree.text = text := by
  induction depth generalizing name grammar text settings stack scanned with
  | zero => cases scan
  | succ depth ih =>
      have faithful := @ScanContext.faithful_of_embedded
        { catalog, grammar, text := Text.ofString text, settings,
          embedded := catalog.scanNested depth }
        fun ⟨_, _⟩ member text settings stack _ scan => ih member text settings stack scan
      have kept := ScanContext.scan_text faithful (keeps _ registered) scan
      simpa using kept

def barred : Grammar where
  name := "barred"
  modes := #[
    { contains := [1] },
    { scope := some "string"
      begins := (Pattern.engine {} "\\|").toOption
      ends := (Pattern.engine {} "\\|").toOption
      terminator := "\\|" }]
  matchers := #[
    Thunk.mk fun _ => Pattern.RuleSet.compile Pattern.engine {} [(.begins 1, "\\|")],
    Thunk.mk fun _ => Pattern.RuleSet.compile Pattern.engine {} [(.ends, "\\|")]]
  definition := {}

theorem barred_keepsText : barred.KeepsText := by
  have modes : ∀ mode ∈ barred.modes, mode.flags = {} ∧ mode.beginScope = none ∧
      mode.starts = none := by
    simp [barred]
  constructor
  · intro mode member returned
    simp [(modes mode member).1] at returned
  · intro mode member returned
    simp [(modes mode member).1] at returned
  · intro mode member grouped
    simp [(modes mode member).2.1] at grouped
  · intro mode member next starts
    simp [(modes mode member).2.2] at starts

theorem scanNested_text_barred :
    ∃ scanned, Catalog.scanNested { grammars := Dictionary.insert {} "barred" barred } 1 barred
        "a|b|c" {} none = .ok scanned ∧ scanned.result.tree.text = "a|b|c" := by
  have succeeds : (Catalog.scanNested { grammars := Dictionary.insert {} "barred" barred } 1 barred
      "a|b|c" {} none).isOk = true := by decide +kernel
  obtain ⟨scanned, scan⟩ := exists_of_isOk succeeds
  refine ⟨scanned, scan, scanNested_text ?_ 1 (List.mem_singleton_self _) _ _ _ scan⟩
  intro entry member
  obtain rfl := List.mem_singleton.mp member
  exact barred_keepsText

end Catalog

end Highlight
