import Highlight.Proofs.Catalog.History
import Highlight.Proofs.Grammar.Brackets
import Highlight.Proofs.Scan.Progressing
import Highlight.Registry

set_option autoImplicit false

/-! Scanning brackets. The scan agrees with a reader that goes through the text with a stack and knows nothing
of patterns, modes, rounds or a buffer. Between two rounds the tree together with the buffer is what the
reader has built of the text so far. -/

namespace Highlight

open Outcome

theorem Text.part_of_split {text : Text} {before skipped rest : List Char}
    (split : text.chars.toList = before ++ (skipped ++ rest)) :
    text.part before.length (before.length + skipped.length) = .ok (String.ofList skipped) := by
  have size := Brackets.size_of_split split
  rw [List.length_append] at size
  refine part_eq_ok_iff.mpr ⟨⟨Nat.le_add_right _ _, by omega⟩, ?_⟩
  have between : text.between before.length (before.length + skipped.length) = skipped := by
    rw [Text.between, Array.toList_extract, split, List.extract_eq_take_drop]
    simp
  rw [between]

namespace Brackets

def stackAt (depth : Nat) : ModeStack :=
  ⟨List.replicate depth { mode := 1 }⟩

theorem top_stackAt (depth : Nat) : (stackAt depth).top = placeAt depth := by
  cases depth <;> rfl

theorem push_stackAt (depth : Nat) : (stackAt depth).push 1 {} = stackAt (depth + 1) := rfl

theorem pop_stackAt (depth : Nat) : (stackAt (depth + 1)).pop = stackAt depth := rfl

variable {context : ScanContext} {name : String} {state : ScanState} {depth : Nat}

/-- Nothing of the text is a keyword or scanned with another grammar. -/
theorem flush_eq (grammatical : context.grammar = grammar name) (stack : state.stack = stackAt depth) :
    context.flush state = .ok { state with buffer := "", tree := state.tree.addText state.buffer } := by
  have top : context.topMode { state with buffer := "" } = (grammar name).mode (placeAt depth) := by
    rw [ScanContext.topMode, grammatical, stack, top_stackAt]
  have bare : ((grammar name).mode (placeAt depth)).subLanguage = none ∧
      ((grammar name).mode (placeAt depth)).keywords = none := by
    cases depth <;> exact ⟨rfl, rfl⟩
  simp only [ScanContext.flush, ScanContext.emitKeywords, top, bare]
  rfl

theorem placeBeginLexeme_eq (grammatical : context.grammar = grammar name)
    (stack : state.stack = stackAt depth) (lexeme : String) :
    context.placeBeginLexeme {} lexeme state =
      .ok { state with buffer := lexeme, tree := state.tree.addText state.buffer } := by
  simp only [ScanContext.placeBeginLexeme, Bool.false_eq_true, if_false, flush_eq grammatical stack]
  rfl

theorem startMode_eq (grammatical : context.grammar = grammar name)
    (stack : state.stack = stackAt depth) (found : Pattern.RuleMatch) :
    context.startMode 1 found {} state =
      .ok { state with tree := state.tree.openScope "paren", stack := stackAt (depth + 1) } := by
  rw [← push_stackAt, ← stack]
  simp only [ScanContext.startMode, grammatical]
  rfl

theorem placeEndLexeme_eq (grammatical : context.grammar = grammar name)
    (stack : state.stack = stackAt depth) (found : Pattern.RuleMatch) (lexeme : String) :
    context.placeEndLexeme innerMode found lexeme state =
      .ok { state with buffer := "", tree := state.tree.addText (state.buffer ++ lexeme) } := by
  have flushed : context.flush { state with buffer := state.buffer ++ lexeme } = .ok { state with
      buffer := ""
      tree := state.tree.addText (state.buffer ++ lexeme) } := flush_eq grammatical stack
  have flags : innerMode.flags = {} := rfl
  have scope : innerMode.endScope = none := rfl
  simp only [ScanContext.placeEndLexeme, scope, flags, Bool.or_self, Bool.false_eq_true, if_false,
    flushed]
  rfl

theorem leaveModes_eq (grammatical : context.grammar = grammar name)
    (stack : state.stack = stackAt (depth + 1)) :
    context.leaveModes 1 state = { state with
      tree := state.tree.closeScope
      relevance := ScanResult.addRelevance state.relevance 1
      stack := stackAt depth } := by
  have top : context.topMode state = innerMode := by
    rw [ScanContext.topMode, grammatical, stack, top_stackAt]
    rfl
  simp only [ScanContext.leaveModes, ScanContext.leaveMode, top, stack, pop_stackAt]
  rfl

theorem endingModes_eq {found : HookMatch} (here : found.text.charAt? found.index = some ')') :
    ScanContext.endingModes (grammar name) found (stackAt (depth + 1)).nested =
      (some 1, (stackAt (depth + 1)).nested) := by
  have matched := matchAt_close here
  have inner : (grammar name).mode 1 = innerMode := rfl
  have accepts : innerMode.onEnd = none := rfl
  have alone : ScanContext.endingRun (grammar name) (stackAt (depth + 1)).nested = 1 := by
    cases depth <;> rfl
  rw [stackAt, List.replicate_succ] at alone ⊢
  rw [ScanContext.endingModes]
  simp only [inner, matched, accepts, if_true]
  exact congrArg (fun count => (some count, _)) alone

/-- Between two rounds, the scan has come behind some characters, and holds what the reader has read of
them. -/
structure Follows (context : ScanContext) (before : List Char) (state : ScanState) : Prop where
  paid : context.Paid state
  position : state.position = before.length
  stack : state.stack = stackAt (Reader.readFrom {} before).depth
  built : state.tree.addText state.buffer = (Reader.readFrom {} before).builder
  relevance : state.relevance = (Reader.readFrom {} before).closed

theorem Follows.skips {before skipped : List Char} (follows : Follows context before state)
    (plain : ∀ c ∈ skipped, Reader.isPlain (Reader.readFrom {} before).depth c = true) :
    state.tree.addText (state.buffer ++ String.ofList skipped) =
        (Reader.readFrom {} (before ++ skipped)).builder ∧
      state.stack = stackAt (Reader.readFrom {} (before ++ skipped)).depth ∧
      state.relevance = (Reader.readFrom {} (before ++ skipped)).closed := by
  obtain ⟨built, depth, closed⟩ := Reader.readFrom_plain plain
  rw [Reader.readFrom_append]
  refine ⟨?_, ?_, ?_⟩
  · rw [built, ← follows.built, TreeBuilder.addText_addText]
  · rw [depth, follows.stack]
  · rw [closed, follows.relevance]

section

variable (grammatical : context.grammar = grammar name)
  (least : 1 ≤ context.settings.limits.rounds) (generous : 3 ≤ context.settings.limits.roundsPerByte)
  {before skipped after : List Char}

include grammatical in
theorem Follows.step_plain (follows : Follows context before state)
    (split : context.text.chars.toList = before ++ skipped)
    (plain : ∀ d ∈ skipped, Reader.isPlain (Reader.readFrom {} before).depth d = true) :
    context.step state = .ok (.finish { state with rounds := state.rounds + 1 }) := by
  have matcher := matcher_eq name (Reader.readFrom {} before).depth
  rw [← top_stackAt, ← follows.stack, ← grammatical] at matcher
  have nothing := find?_plain split plain
  rw [← follows.position] at nothing
  simp only [ScanContext.step, matcher, nothing]
  rfl

include grammatical least generous in
theorem Follows.meets {c : Char} (follows : Follows context before state)
    (split : context.text.chars.toList = before ++ (skipped ++ c :: after))
    (plain : ∀ d ∈ skipped, Reader.isPlain (Reader.readFrom {} before).depth d = true)
    (bracket : Reader.isPlain (Reader.readFrom {} before).depth c = false) :
    context.Meets state (foundAt c (before.length + skipped.length)) := by
  have size := size_of_split split
  rw [List.length_append, List.length_cons] at size
  have further : state.position ≤ before.length + skipped.length := by
    rw [follows.position]
    exact Nat.le_add_right _ _
  have within : before.length + skipped.length ≤ context.text.size := by omega
  have sights : context.Sights state (foundAt c (before.length + skipped.length)) := by
    refine ⟨ruleSet (Reader.readFrom {} before).depth, ?_, ?_⟩
    · rw [grammatical, follows.stack, top_stackAt]
      exact matcher_eq name _
    · rw [follows.position]
      exact find?_bracket split plain bracket
  exact ⟨sights, follows.paid.inTime least generous further within, follows.paid.fresh further⟩

/-- The round that comes to a bracket has the text between the two brackets and the bracket itself, and its
match is all that it still has to pay for. -/
theorem Follows.reaches {c : Char} (follows : Follows context before state)
    (split : context.text.chars.toList = before ++ (skipped ++ c :: after)) :
    let start := before.length + skipped.length
    context.text.part before.length start = .ok (String.ofList skipped) ∧
      context.text.part start (start + 1) = .ok (String.singleton c) ∧
      context.Owes (foundAt c start)
        (ScanContext.arrive (foundAt c start) (String.ofList skipped) state) := by
  intro start
  have size := size_of_split split
  rw [List.length_append, List.length_cons] at size
  have behind : context.text.chars.toList = (before ++ skipped) ++ ([c] ++ after) := by
    rw [split]
    simp
  have own := Text.part_of_split behind
  rw [List.length_append] at own
  refine ⟨Text.part_of_split split, own, Nat.le_succ _, ?_, ?_, rfl⟩
  · change start + 1 ≤ context.text.size
    omega
  · have rounds := follows.paid.rounds
    rw [follows.position] at rounds
    change state.rounds + 1 + state.stack.nested.length ≤ 2 * start + 1
    omega

theorem readFrom_snoc (chars : List Char) (c : Char) :
    Reader.readFrom {} (chars ++ [c]) = (Reader.readFrom {} chars).readChar c :=
  Reader.readFrom_append {} chars [c]

theorem length_snoc (before skipped : List Char) (c : Char) :
    (before ++ skipped ++ [c]).length = before.length + skipped.length + 1 := by
  simp [Nat.add_assoc]

include grammatical least generous in
theorem Follows.step_open (follows : Follows context before state)
    (split : context.text.chars.toList = before ++ (skipped ++ '(' :: after))
    (plain : ∀ d ∈ skipped, Reader.isPlain (Reader.readFrom {} before).depth d = true) :
    ∃ next, context.step state = .ok (.advance next) ∧
      Follows context (before ++ skipped ++ ['(']) next := by
  obtain ⟨built, stack, relevance⟩ := follows.skips plain
  obtain ⟨skips, lexeme, owes⟩ := follows.reaches split
  have meets := follows.meets grammatical least generous split plain rfl
  have begins : context.BeginsMode state (foundAt '(' (before.length + skipped.length)) 1 {} :=
    { meets with rule := rfl, accepted := by rw [grammatical]; rfl }
  have flags : (context.grammar.mode 1).flags = {} := by rw [grammatical]; rfl
  have step := begins.step
  rw [follows.position] at step
  simp only [foundAt, skips, lexeme, ok_bind, flags] at step
  rw [placeBeginLexeme_eq grammatical (by exact stack), ok_bind,
    startMode_eq grammatical (by exact stack), ok_bind] at step
  refine ⟨_, step, ?paid, (length_snoc _ _ _).symm, ?stack, ?built, ?relevance⟩
  case paid =>
    refine owes.onward (Nat.lt_succ_self _) ⟨rfl, rfl⟩ rfl ?_
    change (List.replicate _ _).length ≤ state.stack.nested.length + 1
    rw [stack, stackAt, List.length_replicate, List.length_replicate]
  case stack => rw [readFrom_snoc]; rfl
  case built =>
    rw [readFrom_snoc, Reader.builder_readChar_open, ← built]
    rfl
  case relevance => rw [readFrom_snoc]; exact relevance

/-- Each bracket that has closed another is a character of the text. -/
theorem Follows.counts (follows : Follows context before state) {c : Char}
    (split : context.text.chars.toList = before ++ (skipped ++ c :: after)) :
    state.relevance < context.text.size := by
  have few := Reader.closed_readFrom_le {} before
  rw [← follows.relevance] at few
  have size := size_of_split split
  rw [List.length_append, List.length_cons] at size
  have none_ : ({} : Reader).closed = 0 := rfl
  omega

include grammatical least generous in
theorem Follows.endsModes {outer : Nat} (follows : Follows context before state)
    (split : context.text.chars.toList = before ++ (skipped ++ ')' :: after))
    (plain : ∀ d ∈ skipped, Reader.isPlain (Reader.readFrom {} before).depth d = true)
    (inside : (Reader.readFrom {} before).depth = outer + 1) :
    context.EndsModes state (foundAt ')' (before.length + skipped.length)) 1
      (stackAt (outer + 1)).nested := by
  have bracket : Reader.isPlain (Reader.readFrom {} before).depth ')' = false := by
    simp [Reader.isPlain, inside]
  have behind : context.text.chars.toList = (before ++ skipped) ++ ')' :: after := by
    rw [split, List.append_assoc]
  have here := charAt?_of_split behind
  rw [List.length_append] at here
  exact { follows.meets grammatical least generous split plain bracket with
    rule := rfl
    accepted := by
      rw [grammatical, follows.stack, inside]
      exact endingModes_eq here }

include grammatical least generous in
/-- A closing bracket is the last text of the innermost scope and closes it. -/
theorem Follows.step_close (follows : Follows context before state)
    (split : context.text.chars.toList = before ++ (skipped ++ ')' :: after))
    (plain : ∀ d ∈ skipped, Reader.isPlain (Reader.readFrom {} before).depth d = true)
    (inside : (Reader.readFrom {} before).depth ≠ 0) (short : context.text.size < Nat.pow 2 32) :
    ∃ next, context.step state = .ok (.advance next) ∧
      Follows context (before ++ skipped ++ [')']) next := by
  obtain ⟨built, _, relevance⟩ := follows.skips plain
  obtain ⟨skips, lexeme, owes⟩ := follows.reaches split
  obtain ⟨outer, open_⟩ := Nat.exists_eq_succ_of_ne_zero inside
  have ends := follows.endsModes grammatical least generous split plain open_
  have stack : state.stack = stackAt (outer + 1) := by rw [follows.stack, open_]
  have still : (Reader.readFrom {} (before ++ skipped)).depth = outer + 1 := by
    rw [Reader.readFrom_append, (Reader.readFrom_plain plain).2.1, open_]
  obtain ⟨closes, depth, counts⟩ := Reader.readChar_close (still.trans_ne (Nat.succ_ne_zero outer))
  have top : context.topMode state = innerMode := by
    rw [ScanContext.topMode, grammatical, stack]
    rfl
  have alone : (context.outermost 1 (stackAt (outer + 1)).nested).starts = none := by
    rw [ScanContext.outermost, grammatical]
    rfl
  have most : state.relevance + 1 ≤ ScanResult.mostRelevant :=
    Nat.le_sub_one_of_lt (Nat.lt_of_le_of_lt (follows.counts split) short)
  have flags : innerMode.flags = {} := rfl
  have step := ends.step
  rw [follows.position, top, alone] at step
  simp only [foundAt, skips, lexeme, ok_bind, flags, ScanContext.startNext] at step
  rw [placeEndLexeme_eq grammatical (by rfl), ok_bind, leaveModes_eq grammatical (by rfl)] at step
  refine ⟨_, step, ?paid, (length_snoc _ _ _).symm, ?stack, ?built, ?relevance⟩
  case paid =>
    refine owes.onward (Nat.lt_succ_self _) ⟨rfl, rfl⟩ rfl ?_
    change (List.replicate _ _).length ≤ state.stack.nested.length + 1
    rw [stack, stackAt, List.length_replicate, List.length_replicate]
    omega
  case stack =>
    rw [readFrom_snoc, depth, still]
    rfl
  case built =>
    rw [readFrom_snoc, closes, ← built, TreeBuilder.addText_addText]
    rfl
  case relevance =>
    rw [readFrom_snoc, counts, ← relevance]
    exact Nat.min_eq_right most

theorem exists_bracket (depth : Nat) (chars : List Char) :
    (∀ d ∈ chars, Reader.isPlain depth d = true) ∨
      ∃ skipped c after, chars = skipped ++ c :: after ∧
        (∀ d ∈ skipped, Reader.isPlain depth d = true) ∧ Reader.isPlain depth c = false := by
  induction chars with
  | nil => exact Or.inl (by simp)
  | cons c rest ih =>
      cases plain : Reader.isPlain depth c with
      | false => exact Or.inr ⟨[], c, rest, rfl, by simp, plain⟩
      | true =>
          rcases ih with all | ⟨skipped, d, after, rfl, before, bracket⟩
          · exact Or.inl (List.forall_mem_cons.mpr ⟨plain, all⟩)
          · exact Or.inr ⟨c :: skipped, d, after, rfl, List.forall_mem_cons.mpr ⟨plain, before⟩, bracket⟩

include grammatical least generous in
/-- A round goes on behind the next bracket, or is the last one. -/
theorem Follows.step {rest : List Char} (follows : Follows context before state)
    (split : context.text.chars.toList = before ++ rest) (short : context.text.size < Nat.pow 2 32) :
    ((∀ d ∈ rest, Reader.isPlain (Reader.readFrom {} before).depth d = true) ∧
        context.step state = .ok (.finish { state with rounds := state.rounds + 1 })) ∨
      ∃ further after next, context.text.chars.toList = further ++ after ∧
        context.step state = .ok (.advance next) ∧ Follows context further next := by
  rcases exists_bracket (Reader.readFrom {} before).depth rest with
    plain | ⟨skipped, c, after, rfl, plain, bracket⟩
  · exact Or.inl ⟨plain, follows.step_plain grammatical split plain⟩
  · have onward : context.text.chars.toList = (before ++ skipped ++ [c]) ++ after := by
      rw [split]
      simp
    by_cases opens : c = '('
    · subst opens
      obtain ⟨next, step, reached⟩ := follows.step_open grammatical least generous split plain
      exact Or.inr ⟨_, after, next, onward, step, reached⟩
    · obtain ⟨rfl, inside⟩ : c = ')' ∧ (Reader.readFrom {} before).depth ≠ 0 := by
        simpa [Reader.isPlain, opens] using bracket
      obtain ⟨next, step, reached⟩ :=
        follows.step_close grammatical least generous split plain inside short
      exact Or.inr ⟨_, after, next, onward, step, reached⟩

include grammatical in
theorem Follows.takeRest {rest : List Char} (follows : Follows context before state)
    (split : context.text.chars.toList = before ++ rest)
    (plain : ∀ d ∈ rest, Reader.isPlain (Reader.readFrom {} before).depth d = true) :
    ∃ last, context.takeRest { state with rounds := state.rounds + 1 } = .ok last ∧
      last.tree = (Reader.readFrom {} context.text.chars.toList).builder ∧
      last.relevance = (Reader.readFrom {} context.text.chars.toList).closed := by
  obtain ⟨built, stack, relevance⟩ := follows.skips plain
  have whole : context.text.chars.toList = before ++ (rest ++ []) := by
    rw [split, List.append_nil]
  have taken := Text.part_of_split whole
  rw [← size_of_split split, ← follows.position] at taken
  rw [split, ← built, ← relevance]
  simp only [ScanContext.takeRest, taken, ok_bind]
  exact ⟨_, flush_eq grammatical (by exact stack), rfl, rfl⟩

include grammatical least generous in
theorem Follows.conclude {count : Nat} {ended : Run} (follows : Follows context before state)
    (loops : context.Loops state count ended) {rest : List Char}
    (split : context.text.chars.toList = before ++ rest) (short : context.text.size < Nat.pow 2 32) :
    ∃ last, context.conclude ended = { state := last, halt := none } ∧
      last.tree = (Reader.readFrom {} context.text.chars.toList).builder ∧
      last.relevance = (Reader.readFrom {} context.text.chars.toList).closed := by
  induction loops generalizing before rest with
  | halts stepped =>
      rcases follows.step grammatical least generous split short with
        ⟨_, finished⟩ | ⟨_, _, _, _, advanced, _⟩
      · cases stepped.symm.trans finished
      · cases stepped.symm.trans advanced
  | finishes stepped =>
      rcases follows.step grammatical least generous split short with
        ⟨plain, finished⟩ | ⟨_, _, _, _, advanced, _⟩
      · obtain rfl := Progress.finish.inj (Except.ok.inj (stepped.symm.trans finished))
        obtain ⟨last, taken, tree, relevance⟩ := follows.takeRest grammatical split plain
        refine ⟨last, ?_, tree, relevance⟩
        simp only [ScanContext.conclude, taken]
      · cases stepped.symm.trans advanced
  | goesOn stepped onward ih =>
      rcases follows.step grammatical least generous split short with
        ⟨_, finished⟩ | ⟨further, after, next, behind, advanced, reached⟩
      · cases stepped.symm.trans finished
      · obtain rfl := Progress.advance.inj (Except.ok.inj (stepped.symm.trans advanced))
        exact ih reached behind

include grammatical least generous in
theorem scan_eq (short : context.text.size < Nat.pow 2 32) :
    ∃ stack, context.scan none = .ok {
      result := {
        language := name
        relevance := (Reader.readFrom {} context.text.chars.toList).closed
        tree := (Reader.readFrom {} context.text.chars.toList).tree }
      stack := some stack } := by
  have start : Follows context [] (context.start none) :=
    ⟨⟨Nat.zero_le _, Nat.le_refl _, fun _ _ last => by cases last⟩, rfl, rfl, rfl, rfl⟩
  obtain ⟨count, ended, loops, _, run⟩ := ScanContext.exists_conclude context none
  obtain ⟨last, concluded, tree, relevance⟩ :=
    start.conclude grammatical least generous loops rfl short
  refine ⟨last.stack, ?_⟩
  rw [ScanContext.scan, run, concluded, Reader.tree_eq_finish, ← tree, ← relevance]
  simp only [ScanContext.result, grammatical]
  rfl

end

theorem find?_put (catalog : Catalog) (name : String) :
    (catalog.put (grammar (Unicode.lowercase name))).find? name =
      some (grammar (Unicode.lowercase name)) := by
  simp [Catalog.find?, grammar, Dictionary.find?_insert]

/-- Whatever else is in the catalog, the grammar of brackets is compiled, and the scan of any text with it
succeeds. It comes to the tree that the reader reads, and to one for each bracket that closes another. -/
theorem scan_register (catalog : Catalog) (name text : String) {settings : ScanSettings}
    (least : 1 ≤ settings.limits.rounds) (generous : 3 ≤ settings.limits.roundsPerByte)
    (short : (Text.ofString text).byteSize < Nat.pow 2 32) :
    ∃ after, catalog.register Pattern.engine name definition = .ok after ∧
      after.scan text { language := name, settings } = .ok {
        language := Unicode.lowercase name
        relevance := (read text).closed
        tree := (read text).tree } := by
  let after := catalog.put (grammar (Unicode.lowercase name))
  let context := after.nestedContext 999 (grammar (Unicode.lowercase name)) text settings
  have grammatical : context.grammar = grammar (Unicode.lowercase name) := rfl
  have few : context.text.size < Nat.pow 2 32 :=
    Nat.lt_of_le_of_lt (Text.le_byteOffset (Nat.le_refl _)) short
  obtain ⟨stack, scanned⟩ := scan_eq grammatical least generous few
  have all : after.scanWith (grammar (Unicode.lowercase name)) text settings none = .ok {
      result := {
        language := Unicode.lowercase name
        relevance := (read text).closed
        tree := (read text).tree }
      stack := some stack } := scanned
  refine ⟨after, Catalog.register_eq_ok_iff.mpr ⟨_, compile_eq _, rfl⟩, ?_⟩
  simp only [Catalog.scan, after, find?_put]
  rw [all]
  rfl

/-- One pair of brackets within another, a closing one that is text, and one that is left open. -/
theorem scan_register_unbalanced : ∃ after,
    Catalog.register {} Pattern.engine "parens" definition = .ok after ∧
      after.scan "(a(b)c)é)(" { language := "parens", settings := { lenient := false } } = .ok {
        language := "parens"
        relevance := 2
        tree := ⟨[.container (.scope "paren") [.text "(a", .container (.scope "paren") [.text "(b)"],
            .text "c)"], .text "é)", .container (.scope "paren") [.text "("]]⟩ } := by
  let settings : ScanSettings := { lenient := false }
  have least : 1 ≤ settings.limits.rounds := by decide
  have generous : 3 ≤ settings.limits.roundsPerByte := by decide
  obtain ⟨after, registered, scanned⟩ :=
    scan_register {} "parens" "(a(b)c)é)(" least generous (by decide)
  have lower : Unicode.lowercase "parens" = "parens" := by decide +kernel
  have tree : (read "(a(b)c)é)(").tree = ⟨[.container (.scope "paren") [.text "(a",
      .container (.scope "paren") [.text "(b)"], .text "c)"], .text "é)",
      .container (.scope "paren") [.text "("]]⟩ := by rfl
  have closed : (read "(a(b)c)é)(").closed = 2 := by rfl
  rw [lower, closed, tree] at scanned
  exact ⟨after, registered, scanned⟩

end Brackets

end Highlight
