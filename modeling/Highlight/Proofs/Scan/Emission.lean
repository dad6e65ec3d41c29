import Highlight.Proofs.Scan.Parts
import Highlight.Proofs.Tree.Leaves
import Highlight.Scan.Emission

set_option autoImplicit false

/-! What putting text into the tree does to the state of a scan. It leaves the course of the scan
alone: the modes that are on, the buffer, the position, the last match and the scopes that are open.
What it adds to the tree is the text it was given, whatever keywords and groups are found in it. Text
scanned with another grammar is the one case that depends on something else: on whether the scan of
that grammar keeps its text. -/

namespace Highlight

open Outcome

/-- Two states at the same point of a scan, which differ at most in what the tree holds and in what is
counted. -/
structure SameCourse (before after : ScanState) : Prop where
  stack : after.stack = before.stack
  buffer : after.buffer = before.buffer
  position : after.position = before.position
  rounds : after.rounds = before.rounds
  lastMatch : after.lastMatch = before.lastMatch
  openNames : after.tree.openNames = before.tree.openNames

namespace SameCourse

theorem refl (state : ScanState) : SameCourse state state :=
  ⟨rfl, rfl, rfl, rfl, rfl, rfl⟩

theorem trans {first second third : ScanState} (left : SameCourse first second)
    (right : SameCourse second third) : SameCourse first third where
  stack := right.stack.trans left.stack
  buffer := right.buffer.trans left.buffer
  position := right.position.trans left.position
  rounds := right.rounds.trans left.rounds
  lastMatch := right.lastMatch.trans left.lastMatch
  openNames := right.openNames.trans left.openNames

end SameCourse

/-- A text has been added to the tree, and nothing else has come of it but counts. -/
structure Emits (added : String) (before after : ScanState) : Prop
    extends SameCourse before after where
  text : after.tree.text = before.tree.text ++ added
  continuations : after.continuations = before.continuations

namespace Emits

theorem refl (state : ScanState) : Emits "" state state :=
  { SameCourse.refl state with
    text := by simp
    continuations := rfl }

theorem trans {left right : String} {first second third : ScanState}
    (before : Emits left first second) (after : Emits right second third) :
    Emits (left ++ right) first third :=
  { before.toSameCourse.trans after.toSameCourse with
    text := by rw [after.text, before.text, String.append_assoc]
    continuations := after.continuations.trans before.continuations }

theorem addText (added : String) (state : ScanState) : Emits added state (state.addText added) where
  stack := rfl
  buffer := rfl
  position := rfl
  rounds := rfl
  lastMatch := rfl
  openNames := TreeBuilder.openNames_addText _ _
  text := TreeBuilder.text_addText _ _
  continuations := rfl

theorem addScoped (added scope : String) (state : ScanState) :
    Emits added state (state.addScoped added scope) where
  stack := rfl
  buffer := rfl
  position := rfl
  rounds := rfl
  lastMatch := rfl
  openNames := TreeBuilder.openNames_addScoped _ _ _
  text := TreeBuilder.text_addScoped _ _ _
  continuations := rfl

theorem countHit (limits : ScanLimits) (word : String) (relevance : Nat) (state : ScanState) :
    Emits "" state (state.countHit limits word relevance) where
  stack := rfl
  buffer := rfl
  position := rfl
  rounds := rfl
  lastMatch := rfl
  openNames := rfl
  text := by simp [ScanState.countHit]
  continuations := rfl

end Emits

namespace ScanContext

variable (context : ScanContext)

/-- A word goes into the tree with the text before it, but for what is given back to stand before the
next word. -/
theorem emitWord_emits (table : KeywordTable) (word plain : String) (state : ScanState) :
    ∃ added, Emits added state (context.emitWord table word plain state).2 ∧
      added ++ (context.emitWord table word plain state).1 = plain ++ word := by
  unfold emitWord
  dsimp only
  split
  · exact ⟨"", Emits.refl state, by simp⟩
  · rename_i keyword found
    have counted := (Emits.addText plain state).trans
      (Emits.countHit context.settings.limits (context.lookupForm word) keyword.relevance
        (state.addText plain))
    simp only [String.append_empty] at counted
    split
    · exact ⟨plain, counted, rfl⟩
    · exact ⟨plain ++ word, counted.trans (Emits.addScoped word _ _), by simp⟩

private theorem emitWords_rest {text : Text} {last : Nat} {plain : String}
    {state after : ScanState}
    (emitted : (do
      let rest ← text.part last text.size
      return state.addText (plain ++ rest) : Except Halt ScanState) = .ok after) :
    ∃ rest, text.part last text.size = .ok rest ∧ Emits (plain ++ rest) state after := by
  obtain ⟨rest, taken, added⟩ := bind_eq_ok.mp emitted
  obtain rfl := pure_eq_ok.mp added
  exact ⟨rest, taken, Emits.addText _ _⟩

/-- Going through the words of a text adds all of it from `last` on, behind what had no scope yet. -/
theorem emitWords_emits {table : KeywordTable} {text : Text} {rounds position last : Nat}
    {plain : String} {state after : ScanState}
    (emitted : context.emitWords table text rounds position last plain state = .ok after) :
    ∃ rest, text.part last text.size = .ok rest ∧ Emits (plain ++ rest) state after := by
  induction rounds generalizing position last plain state with
  | zero => exact emitWords_rest emitted
  | succ rounds ih =>
      unfold emitWords at emitted
      split at emitted
      · exact emitWords_rest emitted
      · rename_i span found
        obtain ⟨word, wordTaken, emitted⟩ := bind_eq_ok.mp emitted
        obtain ⟨skipped, skippedTaken, emitted⟩ := bind_eq_ok.mp emitted
        obtain ⟨added, wordAdded, split_⟩ :=
          emitWord_emits context table word (plain ++ skipped) state
        generalize context.emitWord table word (plain ++ skipped) state = emission at *
        obtain ⟨left, between⟩ := emission
        -- whether or not there is another round, the text goes on behind the word
        have goesOn : ∃ rest, text.part span.stop text.size = .ok rest ∧
            Emits (left ++ rest) between after := by
          dsimp only at emitted
          generalize (if span.start < span.stop then span.stop else span.stop + 1) = next at emitted
          by_cases within : next ≤ text.size
          · rw [if_pos within] at emitted
            exact ih emitted
          · rw [if_neg within] at emitted
            exact emitWords_rest emitted
        obtain ⟨rest, restTaken, restAdded⟩ := goesOn
        refine ⟨skipped ++ word ++ rest,
          Text.part_append (Text.part_append skippedTaken wordTaken) restTaken, ?_⟩
        have whole := wordAdded.trans restAdded
        rw [← String.append_assoc, split_] at whole
        simpa [String.append_assoc] using whole

theorem emitKeywords_emits {text : String} {state after : ScanState}
    (emitted : context.emitKeywords text state = .ok after) : Emits text state after := by
  unfold emitKeywords at emitted
  split at emitted
  · obtain rfl := Except.ok.inj emitted
    exact Emits.addText text state
  · obtain ⟨rest, taken, added⟩ := emitWords_emits context emitted
    obtain rfl := Text.part_unique taken (Text.part_whole _)
    simpa using added

/-- The groups of a match, and what stands between them, are the text of the match from where they
start. -/
theorem emitGroups_emits {found : Pattern.RuleMatch} {groups : List (Nat × Option String)}
    {position : Nat} {state after : ScanState}
    (emitted : context.emitGroups found groups position state = .ok after) :
    ∃ part, context.text.part position found.stop = .ok part ∧ Emits part state after := by
  induction groups generalizing position state with
  | nil =>
      obtain ⟨part, taken, added⟩ := bind_eq_ok.mp emitted
      exact ⟨part, taken, emitKeywords_emits context added⟩
  | cons entry rest ih =>
      obtain ⟨group, scope⟩ := entry
      unfold emitGroups at emitted
      split at emitted
      · exact ih emitted
      · rename_i span spanned
        split at emitted
        · exact ih emitted
        · obtain ⟨between, betweenTaken, emitted⟩ := bind_eq_ok.mp emitted
          obtain ⟨middle, betweenAdded, emitted⟩ := bind_eq_ok.mp emitted
          obtain ⟨lexeme, lexemeTaken, emitted⟩ := bind_eq_ok.mp emitted
          have lexemeEmits : ∃ behind, Emits lexeme middle behind ∧
              context.emitGroups found rest span.stop behind = .ok after := by
            cases scope with
            | none =>
                obtain ⟨behind, lexemeAdded, emitted⟩ := bind_eq_ok.mp emitted
                exact ⟨behind, emitKeywords_emits context lexemeAdded, emitted⟩
            | some scope => exact ⟨_, Emits.addScoped _ _ _, emitted⟩
          obtain ⟨behind, lexemeAdded, emitted⟩ := lexemeEmits
          obtain ⟨part, partTaken, partAdded⟩ := ih emitted
          exact ⟨between ++ lexeme ++ part,
            Text.part_append (Text.part_append betweenTaken lexemeTaken) partTaken,
            ((emitKeywords_emits context betweenAdded).trans lexemeAdded).trans partAdded⟩

theorem addEmbedded_sameCourse (result : ScanResult) (state : ScanState)
    (continuations : Dictionary ModeStack) :
    SameCourse state (context.addEmbedded result { state with continuations }) where
  stack := rfl
  buffer := rfl
  position := rfl
  rounds := rfl
  lastMatch := rfl
  openNames := TreeBuilder.openNames_addSubLanguage _ _ _

/-- What comes of an embedded text: it stays as it is, or its result, that of a named grammar or that
of detection, is added to a state that differs in the continuations only. -/
theorem emitEmbedded_cases {subLanguage : SubLanguage} {text : String} {state after : ScanState}
    (emitted : context.emitEmbedded subLanguage text state = .ok after) :
    Emits text state after ∨
    (∃ name grammar settings scanned continuations, subLanguage = .named name ∧
      context.catalog.find? name = some grammar ∧
      context.embedded grammar text settings (state.continuations.find? name) = .ok scanned ∧
      after = context.addEmbedded scanned.result { state with continuations }) ∨
    (∃ candidates result, subLanguage = .detected candidates ∧
      Detection.detect context.catalog context.embedded text candidates context.settings.limits =
        .ok result ∧
      after = context.addEmbedded result state) := by
  unfold emitEmbedded at emitted
  split at emitted
  · rename_i empty
    obtain rfl : text = "" := by simpa using empty
    obtain rfl := Except.ok.inj emitted
    exact Or.inl (Emits.refl state)
  · split at emitted
    · rename_i name
      split at emitted
      · obtain rfl := Except.ok.inj emitted
        exact Or.inl (Emits.addText text state)
      · rename_i grammar found
        obtain ⟨scanned, scan, emitted⟩ := bind_eq_ok.mp emitted
        obtain rfl := pure_eq_ok.mp emitted
        exact Or.inr (Or.inl ⟨name, grammar, _, scanned, _, rfl, found, scan, rfl⟩)
    · rename_i candidates
      obtain ⟨result, detected, emitted⟩ := bind_eq_ok.mp emitted
      obtain rfl := pure_eq_ok.mp emitted
      exact Or.inr (Or.inr ⟨candidates, result, rfl, detected, rfl⟩)

theorem emitEmbedded_sameCourse {subLanguage : SubLanguage} {text : String}
    {state after : ScanState}
    (emitted : context.emitEmbedded subLanguage text state = .ok after) :
    SameCourse state after := by
  rcases emitEmbedded_cases context emitted with
    plain | ⟨_, _, _, scanned, continuations, _, _, _, rfl⟩ | ⟨_, result, _, _, rfl⟩
  · exact plain.toSameCourse
  · exact addEmbedded_sameCourse context scanned.result state continuations
  · exact addEmbedded_sameCourse context result state state.continuations

theorem flush_sameCourse {state after : ScanState} (flushed : context.flush state = .ok after) :
    SameCourse { state with buffer := "" } after := by
  unfold flush at flushed
  dsimp only at flushed
  split at flushed
  · exact emitEmbedded_sameCourse context flushed
  · exact (emitKeywords_emits context flushed).toSameCourse

end ScanContext

end Highlight
