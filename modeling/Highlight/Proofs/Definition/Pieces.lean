import Highlight.Grammar.Keywords
import Highlight.Proofs.Definition.Settled

set_option autoImplicit false

/-! The pieces of patterns. An author writes a pattern as one source or as several, and doing away with
shorthand makes one source of them, by itself or together with the text around it. `Writes` says which
sources come of what has been written, mode by mode; the normal form of a mode has these sources for
its bounds. -/

namespace Highlight

open Outcome

namespace PatternSource

def joined : PatternSource → String
  | one source => source
  | sequence sources => (Pattern.compose sources "").source

def chosen : PatternSource → String
  | one source => source
  | sequence sources => Pattern.Source.either sources

end PatternSource

namespace ModeDefinition

/-- The pattern with which a mode begins, under either of its names. -/
def opening (mode : ModeDefinition) : Option PatternSource :=
  mode.begins.or mode.matching

/-- The sources that are made of what an author has written for a mode. Bounds count only in a mode that
another one contains. -/
inductive Writes : Bool → ModeDefinition → String → Prop
  | begins {mode : ModeDefinition} {pattern : PatternSource} (first : mode.beforeMatch = none)
      (wordless : mode.beginKeywords = none) (written : mode.opening = some pattern) :
      Writes true mode pattern.joined
  | words {mode : ModeDefinition} {words : String} (first : mode.beforeMatch = none)
      (written : mode.beginKeywords = some words) :
      Writes true mode (wordsSource (Text.words words))
  | ends {mode : ModeDefinition} {pattern : PatternSource} (first : mode.beforeMatch = none)
      (written : mode.ends = some pattern) : Writes true mode pattern.joined
  | illegal {contained : Bool} {mode : ModeDefinition} {pattern : PatternSource}
      (first : mode.beforeMatch = none) (written : mode.illegal = some pattern) :
      Writes contained mode pattern.chosen
  | keywords {contained : Bool} {mode : ModeDefinition} {classes : Dictionary KeywordList}
      {source : String} (written : mode.keywords = some (.classes classes))
      (own : classes.find? KeywordTable.patternKey = some (.words source)) :
      Writes contained mode source
  | before {mode : ModeDefinition} {before : String} (written : mode.beforeMatch = some before) :
      Writes true mode
        (Pattern.Source.concat [before,
          Pattern.Source.lookahead ((mode.opening.map PatternSource.joined).getD "")])

variable {mode settled normal : ModeDefinition} {contained : Bool}

/-! ### Settled modes -/

/-- What a mode says about its patterns once it has been settled: its bounds are joined, the others are as
they were. -/
structure Joins (mode settled : ModeDefinition) : Prop where
  begins : settled.begins = mode.opening.map fun pattern => .one pattern.joined
  ends : settled.ends = mode.ends.map fun pattern => .one pattern.joined
  illegal : settled.illegal = mode.illegal
  keywords : settled.keywords = mode.keywords
  beginKeywords : settled.beginKeywords = mode.beginKeywords
  beforeMatch : settled.beforeMatch = mode.beforeMatch

structure SamePatterns (before after : ModeDefinition) : Prop where
  begins : after.begins = before.begins
  ends : after.ends = before.ends
  illegal : after.illegal = before.illegal
  keywords : after.keywords = before.keywords
  beginKeywords : after.beginKeywords = before.beginKeywords
  beforeMatch : after.beforeMatch = before.beforeMatch

theorem withClassName_samePatterns (mode : ModeDefinition) : SamePatterns mode mode.withClassName ∧
    mode.withClassName.matching = mode.matching := by
  unfold withClassName
  split <;> exact ⟨⟨rfl, rfl, rfl, rfl, rfl, rfl⟩, rfl⟩

theorem withCaptureScope_samePatterns (mode : ModeDefinition) :
    SamePatterns mode mode.withCaptureScope := by
  unfold withCaptureScope
  split <;> exact ⟨rfl, rfl, rfl, rfl, rfl, rfl⟩

theorem withMatching_samePatterns (matched : mode.withMatching = .ok settled) :
    SamePatterns { mode with begins := mode.opening } settled := by
  unfold withMatching at matched
  unfold opening
  split at matched
  · rename_i source written
    split at matched
    · cases matched
    · rename_i free
      obtain ⟨unopened, _⟩ : mode.begins = none ∧ mode.ends = none := by simpa using free
      obtain rfl := Except.ok.inj matched
      exact ⟨by simp [unopened, written], rfl, rfl, rfl, rfl, rfl⟩
  · rename_i nothing
    obtain rfl := Except.ok.inj matched
    exact ⟨by simp [nothing], rfl, rfl, rfl, rfl, rfl⟩

theorem withBeginParts_samePatterns (begun : mode.withBeginParts = .ok settled) :
    SamePatterns { mode with begins := mode.begins.map fun pattern => .one pattern.joined } settled := by
  unfold withBeginParts at begun
  split at begun
  · rename_i parts written
    split at begun
    · cases begun
    · split at begun
      · cases begun
      · obtain rfl := Except.ok.inj begun
        exact ⟨by simp [written, PatternSource.joined], rfl, rfl, rfl, rfl, rfl⟩
  · rename_i single
    obtain rfl := Except.ok.inj begun
    refine ⟨?_, rfl, rfl, rfl, rfl, rfl⟩
    rcases written : mode.begins with _ | ⟨source | parts⟩
    · rfl
    · rfl
    · exact absurd written (single parts)

theorem withEndParts_samePatterns (ended : mode.withEndParts = .ok settled) :
    SamePatterns { mode with ends := mode.ends.map fun pattern => .one pattern.joined } settled := by
  unfold withEndParts at ended
  split at ended
  · rename_i parts written
    split at ended
    · cases ended
    · split at ended
      · cases ended
      · obtain rfl := Except.ok.inj ended
        exact ⟨rfl, by simp [written, PatternSource.joined], rfl, rfl, rfl, rfl⟩
  · rename_i single
    obtain rfl := Except.ok.inj ended
    refine ⟨rfl, ?_, rfl, rfl, rfl, rfl⟩
    rcases written : mode.ends with _ | ⟨source | parts⟩
    · rfl
    · rfl
    · exact absurd written (single parts)

theorem joins_of_settle (settles : mode.settle = .ok settled) : Joins mode settled := by
  obtain ⟨matched, begun, matching, begins, ends⟩ := settle_eq_ok.mp settles
  obtain ⟨named, namedMatching⟩ := withClassName_samePatterns mode
  have matchedSame := withMatching_samePatterns matching
  have scoped_ := withCaptureScope_samePatterns matched
  have begunSame := withBeginParts_samePatterns begins
  have endedSame := withEndParts_samePatterns ends
  have opened : mode.withClassName.opening = mode.opening := by
    unfold opening
    rw [named.begins, namedMatching]
  constructor
  · rw [endedSame.begins, begunSame.begins, scoped_.begins, matchedSame.begins, opened]
  · rw [endedSame.ends, begunSame.ends, scoped_.ends, matchedSame.ends, named.ends]
  · rw [endedSame.illegal, begunSame.illegal, scoped_.illegal, matchedSame.illegal, named.illegal]
  · rw [endedSame.keywords, begunSame.keywords, scoped_.keywords, matchedSame.keywords, named.keywords]
  · rw [endedSame.beginKeywords, begunSame.beginKeywords, scoped_.beginKeywords,
      matchedSame.beginKeywords, named.beginKeywords]
  · rw [endedSame.beforeMatch, begunSame.beforeMatch, scoped_.beforeMatch, matchedSame.beforeMatch,
      named.beforeMatch]

/-! ### Completed modes -/

structure Completes (contained : Bool) (mode normal : ModeDefinition) : Prop where
  words : contained = true → ∀ words, mode.beginKeywords = some words →
    normal.begins = some (.one (wordsSource (Text.words words)))
  begins : mode.beginKeywords = none → normal.begins = mode.begins
  ends : normal.ends = mode.ends
  illegal : normal.illegal = mode.illegal.map fun pattern => .one pattern.chosen
  keywords : ∀ keywords, mode.keywords = some keywords → normal.keywords = some keywords

theorem withBeginKeywords_completes (mode : ModeDefinition) :
    let worded := mode.withBeginKeywords
    (∀ words, mode.beginKeywords = some words →
        worded.begins = some (.one (wordsSource (Text.words words)))) ∧
      (mode.beginKeywords = none → worded = mode) ∧ worded.ends = mode.ends ∧
      worded.illegal = mode.illegal ∧
      ∀ keywords, mode.keywords = some keywords → worded.keywords = some keywords := by
  unfold withBeginKeywords
  split
  · rename_i words written
    refine ⟨fun other same => ?_, fun nothing => ?_, rfl, rfl, fun keywords same => ?_⟩
    · rw [Option.some.inj (written.symm.trans same)]
    · cases written.symm.trans nothing
    · rw [same]
      rfl
  · rename_i nothing
    exact ⟨fun words written => (by cases nothing.symm.trans written), fun _ => rfl, rfl, rfl,
      fun _ same => same⟩

theorem withIllegalChoice_eq (mode : ModeDefinition) :
    mode.withIllegalChoice =
      { mode with illegal := mode.illegal.map fun pattern => .one pattern.chosen } := by
  obtain ⟨_, _, _, _, _, _, _, _, _, _, illegal, _⟩ := mode
  rcases illegal with _ | ⟨_ | _⟩ <;> rfl

theorem completes_complete (mode : ModeDefinition) (contained : Bool) :
    Completes contained mode (mode.complete contained []) := by
  simp only [complete, List.foldl_nil, withIllegalChoice_eq]
  cases contained with
  | false => exact ⟨nofun, fun _ => rfl, rfl, rfl, fun _ same => same⟩
  | true =>
      obtain ⟨words, wordless, ends, illegal, keywords⟩ :=
        withBeginKeywords_completes { mode with beforeBegin := none }
      refine ⟨fun _ => words, fun nothing => ?_, ends, ?_, keywords⟩
      · have same := congrArg ModeDefinition.begins (wordless nothing)
        exact same
      · have same := congrArg (Option.map fun pattern => PatternSource.one pattern.chosen) illegal
        exact same

theorem completes_of_normalize (normalized : mode.normalize contained [] = .ok normal) :
    ∃ settled moved, Joins mode settled ∧ settled.withBeforeMatch = .ok moved ∧
      Completes contained moved normal := by
  obtain ⟨settled, moved, settles, moves, rfl⟩ := normalize_eq_ok normalized
  exact ⟨settled, moved, joins_of_settle settles, moves, completes_complete moved contained⟩

/-- A mode that does not stand behind another match has its own patterns in its normal form. -/
theorem stays_of_normalize (normalized : mode.normalize contained [] = .ok normal)
    (first : mode.beforeMatch = none) :
    ∃ settled, Joins mode settled ∧ Completes contained settled normal := by
  obtain ⟨settled, moved, joins, moves, completes⟩ := completes_of_normalize normalized
  rw [← joins.beforeMatch] at first
  unfold withBeforeMatch at moves
  rw [first] at moves
  obtain rfl := Except.ok.inj moves
  exact ⟨settled, joins, completes⟩

theorem begins_of_before (normalized : mode.normalize contained [] = .ok normal) {before : String}
    (written : mode.beforeMatch = some before) :
    normal.begins = some (.one (Pattern.Source.concat [before,
        Pattern.Source.lookahead ((mode.opening.map PatternSource.joined).getD "")])) ∧
      ∀ keywords, mode.keywords = some keywords → normal.keywords = some keywords := by
  obtain ⟨settled, moved, joins, moves, completes⟩ := completes_of_normalize normalized
  rw [← joins.beforeMatch] at written
  have single : (singleSource? settled.begins).getD "" =
      (mode.opening.map PatternSource.joined).getD "" := by
    rw [joins.begins]
    cases mode.opening <;> rfl
  unfold withBeforeMatch at moves
  rw [written] at moves
  dsimp only at moves
  split at moves
  · cases moves
  · obtain rfl := Except.ok.inj moves
    refine ⟨(completes.begins rfl).trans ?_, fun keywords same => ?_⟩
    · rw [← single]
    · exact completes.keywords keywords (joins.keywords.trans same)

end ModeDefinition

end Highlight
