import Highlight.Proofs.Grammar.Inheriting
import Highlight.Proofs.Tree.Brackets

set_option autoImplicit false

/-! The grammar of brackets. It has one mode, which begins with an opening bracket, ends with a closing one
and contains itself. While it scans a text, what is found next is the first bracket that is no text. -/

namespace Highlight.Brackets

open Outcome Pattern

/-! ### The grammar -/

/-- From an opening bracket to a closing one, and within that the same again. -/
def pair : ModeDefinition where
  scope := some (.name "paren")
  begins := some (.one "\\(")
  ends := some (.one "\\)")
  contains := [.itself]

def definition : GrammarDefinition where
  root := { contains := [.inline pair] }

def innerMode : Mode where
  parent := some Mode.root
  scope := some "paren"
  begins := some ((Plan.text ['(']).regex 0 "\\(")
  ends := some ((Plan.text [')']).regex 0 "\\)")
  terminator := "\\)"
  contains := [1]
  relevance := 1

def outerMode : Mode where
  contains := [1]
  relevance := 1

def modes : Array Mode :=
  #[outerMode, innerMode]

def grammar (name : String) : Grammar where
  name
  modes
  matchers := modes.map fun mode => Thunk.mk fun _ => RuleSet.compile engine {} (mode.rules modes)
  definition

/-! ### Its compilation -/

section

open Compilation

def compilation : Context :=
  Grammar.compilation engine definition

/-- A pair is compiled while the mode around it does not know yet what it contains. -/
theorem pair_compiles (into : Into) :
    (compileWith compilation into [] 1 pair (some 0)).run
        { modes := #[{ outerMode with contains := [] }, {}] } =
      .ok ((), { modes := #[{ outerMode with contains := [] }, innerMode] }) := by
  have normalized : pair.normalize true [] = .ok { pair with relevance := some 1 } := rfl
  have made : ownPart compilation { pair with relevance := some 1 } (some 0) "" =
      .ok { innerMode with contains := [] } := rfl
  exact Compiles.run {
    made
    filling := rfl
    starting := Or.inl ⟨rfl, rfl, rfl⟩
    linked := rfl } normalized

theorem root_compiles (into : Into) :
    (compileWith compilation (compileWith compilation into) [] 0 definition.root none).run
        { modes := #[{}] } = .ok ((), { modes }) := by
  have normalized : definition.root.normalize false [] =
      .ok { definition.root with relevance := some 1 } := rfl
  have made : ownPart compilation { definition.root with relevance := some 1 } none "" =
      .ok { outerMode with contains := [] } := rfl
  have within : (compileNew compilation (compileWith compilation into) [] pair (some 0)).run
      { modes := #[{ outerMode with contains := [] }] } =
        .ok (1, { modes := #[{ outerMode with contains := [] }, innerMode] }) :=
    run_bind_eq_ok.mpr ⟨1, _, rfl, run_bind_eq_ok.mpr ⟨(), _, pair_compiles into, rfl⟩⟩
  have filling : (definition.root.contains.mapM
      (compileEntry compilation (compileWith compilation into) [] 0)).run
        { modes := #[{ outerMode with contains := [] }] } =
          .ok ([[1]], { modes := #[{ outerMode with contains := [] }, innerMode] }) := by
    refine run_bind_eq_ok.mpr ⟨[1], _, ?_, rfl⟩
    exact run_bind_eq_ok.mpr ⟨1, _, within, rfl⟩
  exact Compiles.run {
    made
    filling
    starting := Or.inl ⟨rfl, rfl, rfl⟩
    linked := rfl } normalized

theorem compile_eq (name : String) : Grammar.compile engine name definition = .ok (grammar name) := by
  have apart : Grammar.containsItself definition.root = false := rfl
  have compiled : compileModes compilation definition.root = .ok modes := by
    have root : (compileNew compilation (compileInto compilation compilation.places) [] definition.root
        none).run {} = .ok (0, { modes }) :=
      run_bind_eq_ok.mpr ⟨0, _, rfl, run_bind_eq_ok.mpr ⟨(), _, root_compiles _, rfl⟩⟩
    rw [compileModes, root, ok_bind]
    rfl
  rw [Grammar.compile, apart, if_neg Bool.false_ne_true]
  change (compileModes compilation definition.root >>= _) = _
  rw [compiled, ok_bind]
  rfl

end

/-- The place of the innermost mode where so many brackets are open. -/
def placeAt (depth : Nat) : Nat :=
  if depth = 0 then 0 else 1

/-- How a bracket is looked for. Outside of all brackets only an opening one is. -/
def plan (depth : Nat) : Plan :=
  if depth = 0 then .group 1 (.text ['('])
  else .either (.group 1 (.text ['('])) (.group 2 (.text [')']))

def ruleSet (depth : Nat) : RuleSet :=
  if depth = 0 then {
    rules := [.begins 1]
    composition := { source := "(\\()", wrappers := [1], groupCounts := [0] }
    regex := some ((plan depth).regex 1 "(\\()") }
  else {
    rules := [.begins 1, .ends]
    composition := { source := "(\\()|(\\))", wrappers := [1, 2], groupCounts := [0, 0] }
    regex := some ((plan depth).regex 2 "(\\()|(\\))") }

theorem compile_outside : RuleSet.compile engine {} [(.begins 1, "\\(")] = .ok (ruleSet 0) := by
  have source : compose ["\\("] "|" =
      { source := "(\\()", wrappers := [1], groupCounts := [0] } := by decide
  have regex : engine {} "(\\()" = .ok ((plan 0).regex 1 "(\\()") := rfl
  simp only [RuleSet.compile, List.map, source, regex]
  rfl

theorem compile_inside :
    RuleSet.compile engine {} [(.begins 1, "\\("), (.ends, "\\)")] = .ok (ruleSet 1) := by
  have source : compose ["\\(", "\\)"] "|" =
      { source := "(\\()|(\\))", wrappers := [1, 2], groupCounts := [0, 0] } := by decide
  have regex : engine {} "(\\()|(\\))" = .ok ((plan 1).regex 2 "(\\()|(\\))") := rfl
  simp only [RuleSet.compile, List.map, source, regex]
  rfl

theorem matcher_eq (name : String) (depth : Nat) :
    (grammar name).matcher (placeAt depth) = .ok (ruleSet depth) := by
  have looked := fun place => @Grammar.matcher_of_compile _ _ _ _ (compile_eq name) place
  cases depth with
  | zero => exact (looked 0 (Nat.zero_lt_succ 1)).trans compile_outside
  | succ outer => exact (looked 1 (Nat.one_lt_succ_succ 0)).trans compile_inside

/-! ### What is looked for -/

theorem charAt?_sight (text : Text) (origin position : Nat) :
    ({ text, origin, limit := text.size } : Sight).charAt? position = text.charAt? position := by
  unfold Sight.charAt?
  split
  · rfl
  · rename_i beyond
    exact (Array.getElem?_eq_none (Nat.le_of_not_lt beyond)).symm

theorem matchThen_text (text : Text) (origin : Nat) (c : Char) (next : Continuation)
    (progress : Pattern.Progress) :
    (Plan.text [c]).matchThen { text, origin, limit := text.size } next progress =
      if text.charAt? progress.position = some c then next (progress.moveTo (progress.position + 1))
      else none := by
  have char : (Sight.matchChars { text, origin, limit := text.size } [c] progress.position) =
      if text.charAt? progress.position = some c then some (progress.position + 1) else none := by
    simp only [Sight.matchChars, charAt?_sight]
  simp only [Plan.matchThen, char]
  by_cases stands : text.charAt? progress.position = some c
  · rw [if_pos stands, if_pos stands]
  · rw [if_neg stands, if_neg stands]

/-- A group of one character remembers where that stands. -/
theorem matchThen_char (text : Text) (origin number : Nat) (c : Char) (next : Continuation)
    (progress : Pattern.Progress) :
    (Plan.group number (.text [c])).matchThen { text, origin, limit := text.size } next progress =
      if text.charAt? progress.position = some c then
        next ((progress.moveTo (progress.position + 1)).remember number
          ⟨progress.position, progress.position + 1⟩)
      else none := by
  rw [Plan.matchThen]
  simp only [matchThen_text, Pattern.Progress.reopen, Pattern.Progress.moveTo, Pattern.Progress.remember,
    Array.setIfInBounds_setIfInBounds]

theorem matchAt_close {text : Text} {position : Nat} (here : text.charAt? position = some ')') :
    (innerMode.ends.bind fun regex => regex.matchAt text position).isSome = true := by
  have matched : ((Plan.text [')']).matchFrom 0 text position position).isSome = true := by
    rw [Plan.matchFrom, matchThen_text, if_pos here]
    rfl
  simpa [innerMode, Plan.regex] using matched

def groups (depth : Nat) : Nat :=
  if depth = 0 then 1 else 2

/-- The spans that the groups remember of a bracket, before that of the whole match is known. -/
def spans (depth : Nat) (c : Char) (position : Nat) : Array (Option Span) :=
  let span : Span := ⟨position, position + 1⟩
  if depth = 0 then #[none, some span]
  else if c = '(' then #[none, some span, none] else #[none, none, some span]

theorem matchFrom_eq (text : Text) (origin position depth : Nat) :
    (plan depth).matchFrom (groups depth) text origin position =
      (text.charAt? position).bind fun c =>
        if Reader.isPlain depth c then none
        else some { position := position + 1, groups := spans depth c position } := by
  unfold Plan.matchFrom
  cases depth with
  | zero =>
      simp only [plan, if_pos, matchThen_char]
      cases text.charAt? position with
      | none => rfl
      | some c =>
          by_cases opens : c = '('
          · rw [opens]
            rfl
          · have plain : Reader.isPlain 0 c = true := by simp [Reader.isPlain, opens]
            simp [opens, plain]
  | succ outer =>
      have choice : ∀ first second next progress,
          (Plan.either first second).matchThen { text, origin, limit := text.size } next progress =
            (first.matchThen { text, origin, limit := text.size } next progress).orElse
              fun _ => second.matchThen { text, origin, limit := text.size } next progress :=
        fun _ _ _ _ => by rw [Plan.matchThen]
      simp only [plan, Nat.succ_ne_zero, if_false, choice, matchThen_char]
      cases text.charAt? position with
      | none => rfl
      | some c =>
          by_cases opens : c = '('
          · rw [opens]
            rfl
          · by_cases closes : c = ')'
            · rw [closes]
              rfl
            · have plain : Reader.isPlain (outer + 1) c = true := by
                simp [Reader.isPlain, opens, closes]
              simp [opens, closes, plain]

section

variable {text : Text} {before skipped after : List Char} {depth : Nat}

theorem charAt?_of_split {rest : List Char} (split : text.chars.toList = before ++ rest) :
    text.charAt? before.length = rest.head? := by
  unfold Text.charAt?
  rw [← Array.getElem?_toList, split, List.getElem?_append_right (Nat.le_refl _), Nat.sub_self,
    List.head?_eq_getElem?]

theorem size_of_split {rest : List Char} (split : text.chars.toList = before ++ rest) :
    text.size = before.length + rest.length := by
  rw [Text.size, ← Array.length_toList, split, List.length_append]

theorem searchAmong_plain {rest : List Char} (origin count : Nat)
    (split : text.chars.toList = before ++ (skipped ++ rest))
    (plain : ∀ c ∈ skipped, Reader.isPlain depth c = true) :
    (plan depth).searchAmong (groups depth) text origin (skipped.length + count) before.length =
      (plan depth).searchAmong (groups depth) text origin count (before.length + skipped.length) := by
  induction skipped generalizing before with
  | nil => rw [List.length_nil, Nat.zero_add, Nat.add_zero]
  | cons c skipped ih =>
      have here : text.charAt? before.length = some c := charAt?_of_split split
      have missed : (plan depth).matchFrom (groups depth) text origin before.length = none := by
        rw [matchFrom_eq, here, Option.bind_some, if_pos (plain c List.mem_cons_self)]
      have further : text.chars.toList = (before ++ [c]) ++ (skipped ++ rest) := by
        rw [split]
        simp
      have onward := ih further fun d member => plain d (List.mem_cons_of_mem _ member)
      rw [List.length_append, List.length_singleton] at onward
      calc (plan depth).searchAmong (groups depth) text origin ((c :: skipped).length + count)
            before.length
          = (plan depth).searchAmong (groups depth) text origin (skipped.length + count + 1)
              before.length := by rw [List.length_cons, Nat.add_right_comm]
        _ = (plan depth).searchAmong (groups depth) text origin (skipped.length + count)
              (before.length + 1) := by rw [Plan.searchAmong, missed]
        _ = (plan depth).searchAmong (groups depth) text origin count
              (before.length + (c :: skipped).length) := by
            rw [onward, List.length_cons, Nat.add_assoc, Nat.add_comm 1]

def foundAt (c : Char) (position : Nat) : RuleMatch where
  rule := if c = '(' then .begins 1 else .ends
  start := position
  stop := position + 1
  captures := #[some ⟨position, position + 1⟩]

theorem find?_eq_search (depth : Nat) (text : Text) (position : Nat) :
    (ruleSet depth).find? text position =
      ((plan depth).searchFrom (groups depth) text position).bind fun (start, progress) =>
        (ruleSet depth).resolve?
          (progress.groups.setIfInBounds 0 (some ⟨progress.startFrom start, progress.position⟩)) := by
  cases depth with
  | zero => exact Option.bind_map ..
  | succ outer => exact Option.bind_map ..

/-- Which bracket it is shows in the groups. -/
theorem resolve?_spans {c : Char} (bracket : Reader.isPlain depth c = false) (position : Nat) :
    (ruleSet depth).resolve?
        ((spans depth c position).setIfInBounds 0 (some ⟨position, position + 1⟩)) =
      some (foundAt c position) := by
  cases depth with
  | zero =>
      have opens : c = '(' := by simpa [Reader.isPlain] using bracket
      rw [opens]
      rfl
  | succ outer =>
      by_cases opens : c = '('
      · rw [opens]
        rfl
      · obtain rfl : c = ')' := by simpa [Reader.isPlain, opens] using bracket
        rfl

theorem find?_bracket {c : Char} (split : text.chars.toList = before ++ (skipped ++ c :: after))
    (plain : ∀ d ∈ skipped, Reader.isPlain depth d = true)
    (bracket : Reader.isPlain depth c = false) :
    (ruleSet depth).find? text before.length = some (foundAt c (before.length + skipped.length)) := by
  have size := size_of_split split
  rw [List.length_append, List.length_cons] at size
  have rounds : text.size + 1 - before.length = skipped.length + (after.length + 2) := by omega
  have behind : text.chars.toList = (before ++ skipped) ++ c :: after := by
    rw [split, List.append_assoc]
  have here : text.charAt? (before.length + skipped.length) = some c := by
    rw [← List.length_append]
    exact charAt?_of_split behind
  rw [find?_eq_search, Plan.searchFrom, rounds, searchAmong_plain _ _ split plain, Plan.searchAmong,
    matchFrom_eq, here, Option.bind_some, bracket, if_neg Bool.false_ne_true, Option.bind_some]
  simp only [Pattern.Progress.startFrom, Option.getD_none, Nat.min_eq_left (Nat.le_succ _)]
  exact resolve?_spans bracket _

theorem find?_plain (split : text.chars.toList = before ++ skipped)
    (plain : ∀ d ∈ skipped, Reader.isPlain depth d = true) :
    (ruleSet depth).find? text before.length = none := by
  have size := size_of_split split
  have rounds : text.size + 1 - before.length = skipped.length + 1 := by omega
  have whole : text.chars.toList = before ++ (skipped ++ []) := by
    rw [split, List.append_nil]
  have behind : text.chars.toList = (before ++ skipped) ++ [] := by
    rw [split, List.append_nil]
  have beyond : text.charAt? (before.length + skipped.length) = none := by
    rw [← List.length_append]
    exact charAt?_of_split behind
  rw [find?_eq_search, Plan.searchFrom, rounds, searchAmong_plain _ _ whole plain, Plan.searchAmong,
    matchFrom_eq, beyond]
  rfl

end

end Highlight.Brackets
