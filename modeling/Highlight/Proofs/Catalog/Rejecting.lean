import Highlight.Proofs.Catalog.Calls
import Highlight.Proofs.Definition.Pieces
import Highlight.Proofs.Grammar.Covering

set_option autoImplicit false

/-! Patterns that are rejected. A grammar is registered only if the engine accepts every source that is made
of what its author has written for the modes that it leads to, so that one which is rejected leaves the
catalog as it is. The engine is asked for these sources and not for the pieces that they are made of: pieces
which it rejects can make up a source that it accepts. -/

namespace Highlight

open Outcome

namespace Compilation.OwnPart

variable {context : Context} {normal : ModeDefinition} {parent : Option Nat} {around : String}
  {own : Mode}

theorem accepts_begins (passed : OwnPart context normal parent around own)
    (contained : parent.isSome = true) {source : String} (begins : normal.begins = some (.one source)) :
    ∃ regex, context.engine context.flags source = .ok regex := by
  have same : beginSource normal = source := by rw [beginSource, begins]; rfl
  rcases optionMapM_eq_ok passed.begins with ⟨none_, _⟩ | ⟨_, regex, _, _, accepted⟩
  · rw [none_] at contained
    cases contained
  · exact ⟨regex, same ▸ mapError_eq_ok accepted⟩

theorem accepts_ends (passed : OwnPart context normal parent around own)
    (contained : parent.isSome = true) {source : String} (ends : normal.ends = some (.one source)) :
    ∃ regex, context.engine context.flags source = .ok regex := by
  have same : endSource? normal = some source := by rw [endSource?, ends]; rfl
  obtain ⟨place, rfl⟩ := Option.isSome_iff_exists.mp contained
  have compiled := passed.ends
  rw [Option.bind_some, same] at compiled
  rcases optionMapM_eq_ok compiled with ⟨impossible, _⟩ | ⟨_, regex, given, _, accepted⟩
  · cases impossible
  · obtain rfl := Option.some.inj given
    exact ⟨regex, mapError_eq_ok accepted⟩

theorem accepts_illegal (passed : OwnPart context normal parent around own) {source : String}
    (illegal : normal.illegal = some (.one source)) :
    ∃ regex, context.engine context.flags source = .ok regex := by
  have compiled := passed.illegal
  rw [illegal] at compiled
  rcases optionMapM_eq_ok compiled with ⟨impossible, _⟩ | ⟨_, regex, given, _, accepted⟩
  · cases impossible
  · obtain rfl := Option.some.inj given
    exact ⟨regex, mapError_eq_ok accepted⟩

theorem accepts_keywords (passed : OwnPart context normal parent around own)
    {keywords : KeywordSource} (written : normal.keywords = some keywords) :
    ∃ regex, context.engine context.flags (KeywordTable.patternSource keywords) = .ok regex := by
  have compiled := passed.keywords
  rw [written] at compiled
  rcases optionMapM_eq_ok compiled with ⟨impossible, _⟩ | ⟨_, table, given, _, accepted⟩
  · cases impossible
  · obtain rfl := Option.some.inj given
    obtain ⟨_, _, accepted⟩ := bind_eq_ok.mp accepted
    dsimp only at accepted
    split at accepted
    · rename_i regex found
      exact ⟨regex, found⟩
    · cases accepted

/-- The sources that are made of what has been written for a mode are accepted once its own part has been
compiled. -/
theorem accepts (passed : OwnPart context normal parent around own) {mode : ModeDefinition}
    {contained : Bool} (normalized : mode.normalize contained [] = .ok normal)
    (same : parent.isSome = contained) {source : String} (writes : mode.Writes contained source) :
    ∃ regex, context.engine context.flags source = .ok regex := by
  cases writes with
  | @begins _ pattern first wordless written =>
      obtain ⟨settled, joins, completes⟩ := ModeDefinition.stays_of_normalize normalized first
      refine passed.accepts_begins same ?_
      rw [completes.begins (joins.beginKeywords.trans wordless), joins.begins, written]
      rfl
  | @words _ words first written =>
      obtain ⟨settled, joins, completes⟩ := ModeDefinition.stays_of_normalize normalized first
      exact passed.accepts_begins same
        (completes.words rfl words (joins.beginKeywords.trans written))
  | @ends _ pattern first written =>
      obtain ⟨settled, joins, completes⟩ := ModeDefinition.stays_of_normalize normalized first
      refine passed.accepts_ends same ?_
      rw [completes.ends, joins.ends, written]
      rfl
  | @illegal _ _ pattern first written =>
      obtain ⟨settled, joins, completes⟩ := ModeDefinition.stays_of_normalize normalized first
      refine passed.accepts_illegal ?_
      rw [completes.illegal, joins.illegal, written]
      rfl
  | @keywords _ _ classes _ written found =>
      have kept : normal.keywords = some (.classes classes) := by
        cases first : mode.beforeMatch with
        | none =>
            obtain ⟨settled, joins, completes⟩ := ModeDefinition.stays_of_normalize normalized first
            exact completes.keywords _ (joins.keywords.trans written)
        | some before => exact (ModeDefinition.begins_of_before normalized first).2 _ written
      have accepted := passed.accepts_keywords kept
      rw [KeywordTable.patternSource, found] at accepted
      exact accepted
  | before written =>
      exact passed.accepts_begins same (ModeDefinition.begins_of_before normalized written).1

end Compilation.OwnPart

namespace Catalog.Call

variable {engine : Pattern.Engine} {catalog : Catalog}

/-- Registering a grammar fails, and leaves the catalog as it is, if it leads to a mode for which its author
has written a pattern that the engine rejects as it is used: by itself if it is one source, and otherwise
joined with the others of its list, or with what stands before the match. -/
theorem run_register_rejected (catalog : Catalog) (name : String) {definition : GrammarDefinition}
    (plain : definition.extensions = []) {contained : Bool} {mode : ModeDefinition}
    (reached : definition.Reaches contained mode) {source : String}
    (writes : mode.Writes contained source) {cause : Pattern.PatternError}
    (rejected : engine (Grammar.patternFlags definition) source = .error cause) :
    ∃ failure, (Call.register name definition).run engine catalog =
      (.error (.definition (Unicode.lowercase name) failure), catalog) := by
  cases compiled : Grammar.compile engine (Unicode.lowercase name) definition with
  | ok grammar =>
      obtain ⟨normal, parent, around, own, normalized, same, passed⟩ :=
        Grammar.passed_of_compile plain compiled reached
      obtain ⟨regex, accepted⟩ := passed.accepts normalized same writes
      cases rejected.symm.trans accepted
  | error failure =>
      refine ⟨failure, ?_⟩
      have registers : catalog.register engine name definition =
          .error (.definition (Unicode.lowercase name) failure) := by
        simp only [Catalog.register, compiled]
      rw [run_eq, effect, registers]

/-- An item that is contained in what follows a mode; one of the texts that do not belong in it is left open. -/
def unclosedItem : ModeDefinition where
  begins := some (.one "-")
  illegal := some (.sequence ["(c", "d"])

def unclosed : GrammarDefinition where
  root := { contains := [.inline {
    begins := some (.one "<")
    ends := some (.one ">")
    starts := some { contains := [.shared "item"] } }] }
  repository := Dictionary.ofList [("item", unclosedItem)]

theorem run_register_rejected_unclosed :
    unclosed.Reaches true unclosedItem ∧ unclosedItem.Writes true "(?:(c|d)" ∧
      Pattern.engine {} "(?:(c|d)" = .error .unmatchedOpen ∧
      ∃ failure, (Call.register "Lists" unclosed).run Pattern.engine
          (history Pattern.engine [.addPlain ["txt"]]) =
        (.error (.definition "lists" failure), history Pattern.engine [.addPlain ["txt"]]) := by
  have start : unclosed.Reaches false unclosed.root := .root
  have begun := start.inline rfl List.mem_cons_self List.mem_cons_self
  have reached : unclosed.Reaches true unclosedItem :=
    (begun.starts rfl rfl).shared rfl List.mem_cons_self rfl List.mem_cons_self
  have writes : unclosedItem.Writes true "(?:(c|d)" :=
    @ModeDefinition.Writes.illegal true unclosedItem (.sequence ["(c", "d"]) rfl rfl
  have rejected : Pattern.engine {} "(?:(c|d)" = .error .unmatchedOpen := rfl
  have lower : Unicode.lowercase "Lists" = "lists" := by decide +kernel
  refine ⟨reached, writes, rejected, ?_⟩
  rw [← lower]
  exact run_register_rejected _ "Lists" rfl reached writes rejected

/-- Two texts that do not belong in a mode, a group that one of them opens and the other one closes. -/
def halvedMode : ModeDefinition where
  begins := some (.one "x")
  ends := some (.one "y")
  illegal := some (.sequence ["(a", "b)"])

def halved : GrammarDefinition where
  root := { contains := [.inline halvedMode] }

/-- Neither half of the choice is a pattern, but the choice is one, and the grammar is registered. -/
theorem run_register_halved :
    halved.extensions = [] ∧ halved.Reaches true halvedMode ∧
      halvedMode.illegal = some (.sequence ["(a", "b)"]) ∧ halvedMode.Writes true "(?:(a|b))" ∧
      Pattern.engine {} "(a" = .error .unmatchedOpen ∧
      Pattern.engine {} "b)" = .error .unmatchedClose ∧
      ∃ after, (Call.register "a" halved).run Pattern.engine {} = (.ok (), after) ∧
        after.contains "a" = true := by
  have reached : halved.Reaches true halvedMode :=
    .inline .root rfl List.mem_cons_self List.mem_cons_self
  have writes : halvedMode.Writes true "(?:(a|b))" :=
    @ModeDefinition.Writes.illegal true halvedMode (.sequence ["(a", "b)"]) rfl rfl
  have answers : (Catalog.register {} Pattern.engine "a" halved).toOption.any (fun after =>
      decide (after.contains "a" = true)) = true := by
    decide +kernel
  obtain ⟨after, registered, contained⟩ := exists_of_any answers
  refine ⟨rfl, reached, rfl, writes, rfl, rfl, after, ?_, contained⟩
  rw [run_eq, effect, registered]

end Catalog.Call

end Highlight
