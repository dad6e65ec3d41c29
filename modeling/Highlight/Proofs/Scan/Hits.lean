import Highlight.Proofs.Scan.Emission
import Highlight.Proofs.Tree.Words

set_option autoImplicit false

/-! What is counted while text goes into the tree. A score is one thing that a scan counts: an occurrence of
a keyword, a mode that has ended, or a text scanned with another grammar. Which scores a text gives rise to
is told here by the text and the mode it belongs to, without going through the counting; what is counted is
then what the scores come to, one after another, and the keywords among them stand in the tree. -/

namespace Highlight

open Outcome
open scoped List

structure Hit where
  /-- What the word is looked up as. -/
  form : String
  word : String
  keyword : Keyword
deriving DecidableEq, Repr

inductive Score where
  | hit (hit : Hit)
  /-- The mode at a place has ended. -/
  | ended (place : Nat)
  /-- A text of the mode at a place has been scanned with another grammar. -/
  | embedded (place : Nat) (result : ScanResult)

structure Tally where
  relevance : Nat
  hits : Dictionary Nat

def ScanState.tally (state : ScanState) : Tally :=
  ⟨state.relevance, state.hits⟩

/-- The successive matches of a keyword pattern in a text, in so many rounds and from a position on. -/
def KeywordTable.spans (table : KeywordTable) (text : Text) : Nat → Nat → List Span
  | 0, _ => []
  | rounds + 1, position =>
    match table.pattern.find? text position with
    | none => []
    | some span =>
      let next := if span.start < span.stop then span.stop else span.stop + 1
      span :: if next ≤ text.size then spans table text rounds next else []

/-- The parts into which some groups split a match up, from a position on, and their scopes. -/
def Pattern.RuleMatch.segments (found : Pattern.RuleMatch) :
    List (Nat × Option String) → Nat → List (Span × Option String)
  | [], position => [(⟨position, found.stop⟩, none)]
  | (group, scope) :: rest, position =>
    match found.span? group with
    | none => segments found rest position
    | some span =>
      if span.start < position then segments found rest position
      else (⟨position, span.start⟩, none) :: (span, scope) :: segments found rest span.stop

namespace ScanContext

variable (context : ScanContext)

/-! ### The scores of a text -/

def hit? (table : KeywordTable) (word : String) : Option Hit :=
  (table.find? (context.lookupForm word)).map fun keyword =>
    { form := context.lookupForm word, word, keyword }

def hitsAt (table : KeywordTable) (text : Text) (spans : List Span) : List Score :=
  (spans.filterMap fun span =>
    context.hit? table (String.ofList (text.between span.start span.stop))).map .hit

def textScores (place : Nat) (text : String) : List Score :=
  match (context.grammar.mode place).keywords with
  | none => []
  | some table =>
    context.hitsAt table (Text.ofString text)
      (table.spans (Text.ofString text) ((Text.ofString text).size + 1) 0)

/-- The keywords in a part of a match, which are looked for only if it is given no scope. -/
def segmentScores (place : Nat) (text : String) : Option String → List Score
  | none => context.textScores place text
  | some _ => []

def groupScores (place : Nat) (found : Pattern.RuleMatch) (scopes : List (Nat × Option String))
    (position : Nat) : List Score :=
  (found.segments scopes position).flatMap fun segment =>
    context.segmentScores place (String.ofList (context.text.between segment.1.start segment.1.stop))
      segment.2

def embeddedResult? (subLanguage : SubLanguage) (text : String)
    (continuations : Dictionary ModeStack) : Option ScanResult :=
  if text.isEmpty then none
  else
    match subLanguage with
    | .named name =>
      (context.catalog.find? name).bind fun grammar =>
        (context.embedded grammar text
          { lenient := true, ignoreIllegal := true, limits := context.settings.limits }
          (continuations.find? name)).toOption.map Scanned.result
    | .detected candidates =>
      (Detection.detect context.catalog context.embedded text candidates
        context.settings.limits).toOption

def flushScores (state : ScanState) : List Score :=
  match (context.topMode state).subLanguage with
  | none => context.textScores state.stack.top state.buffer
  | some subLanguage =>
    ((context.embeddedResult? subLanguage state.buffer state.continuations).map
      (Score.embedded state.stack.top)).toList

/-! ### What the scores come to -/

def count (tally : Tally) : Score → Tally
  | .hit hit =>
    let times := (tally.hits.find? hit.form).getD 0 + 1
    { relevance :=
        if times ≤ context.settings.limits.keywordHits then
          ScanResult.addRelevance tally.relevance hit.keyword.relevance
        else tally.relevance
      hits := tally.hits.insert hit.form times }
  | .ended place =>
    let mode := context.grammar.mode place
    if mode.flags.skip || mode.subLanguage.isSome then tally
    else { tally with relevance := ScanResult.addRelevance tally.relevance mode.relevance }
  | .embedded place result =>
    if 0 < (context.grammar.mode place).relevance then
      { tally with relevance := ScanResult.addRelevance tally.relevance result.relevance }
    else tally

/-- The node of a keyword: the word in its scope, unless it is empty or its class is hidden. -/
def shown? : Score → Option (String × String)
  | .hit hit =>
    if isHidden hit.keyword.className || hit.word.isEmpty then none
    else some (context.grammar.resolveScope hit.keyword.className, hit.word)
  | _ => none

/-- What is counted has changed by some scores, and the keywords among them stand in the tree, behind all
words that were there. -/
structure Scores (scores : List Score) (before after : ScanState) : Prop where
  tally : after.tally = scores.foldl context.count before.tally
  words : before.tree.words ++ scores.filterMap context.shown? <+ after.tree.words

variable {context}

namespace Scores

theorem of_same {before after : ScanState} (tally : after.tally = before.tally)
    (words : before.tree.words <+ after.tree.words) : context.Scores [] before after :=
  ⟨tally, by simpa using words⟩

theorem refl (state : ScanState) : context.Scores [] state state :=
  of_same rfl (List.Sublist.refl _)

theorem trans {first second : List Score} {start middle last : ScanState}
    (left : context.Scores first start middle) (right : context.Scores second middle last) :
    context.Scores (first ++ second) start last := by
  refine ⟨?_, ?_⟩
  · rw [List.foldl_append, ← left.tally]
    exact right.tally
  · rw [List.filterMap_append, ← List.append_assoc]
    exact (left.words.append_right _).trans right.words

theorem congr {scores : List Score} {before start last after : ScanState}
    (scored : context.Scores scores start last) (tally : start.tally = before.tally)
    (tree : start.tree = before.tree) (lastTally : after.tally = last.tally)
    (lastTree : after.tree = last.tree) : context.Scores scores before after := by
  refine ⟨?_, ?_⟩
  · rw [lastTally, scored.tally, tally]
  · rw [lastTree, ← tree]
    exact scored.words

theorem addText (text : String) (state : ScanState) :
    context.Scores [] state (state.addText text) :=
  of_same rfl (by simp [ScanState.addText])

theorem addScoped (context : ScanContext) (text scope : String) (state : ScanState) :
    context.Scores [] state (state.addScoped text scope) :=
  of_same rfl (TreeBuilder.words_addScoped_sublist _ _ _)

end Scores

/-! ### Words and groups -/

theorem emitWord_scores (context : ScanContext) (table : KeywordTable) (word plain : String)
    (state : ScanState) :
    context.Scores ((context.hit? table word).map Score.hit).toList state
      (context.emitWord table word plain state).2 := by
  unfold emitWord hit?
  dsimp only
  cases found : table.find? (context.lookupForm word) with
  | none => exact Scores.refl state
  | some keyword =>
      dsimp only [Option.map_some, Option.toList_some]
      by_cases hidden : isHidden keyword.className = true
      · rw [if_pos hidden]
        refine ⟨rfl, ?_⟩
        simp [shown?, hidden, ScanState.countHit, ScanState.addText]
      · rw [if_neg hidden]
        refine ⟨rfl, ?_⟩
        cases empty : word.isEmpty with
        | true =>
            have same := TreeBuilder.words_addScoped_sublist (state.tree.addText plain) word
              (context.grammar.resolveScope keyword.className)
            simpa [shown?, empty, ScanState.countHit, ScanState.addText, ScanState.addScoped] using same
        | false =>
            have added := TreeBuilder.words_addScoped (state.tree.addText plain) empty
              (context.grammar.resolveScope keyword.className)
            simp [shown?, empty, hidden, ScanState.countHit, ScanState.addText, ScanState.addScoped,
              added]

private theorem emitWords_rest_scores {text : Text} {last : Nat} {plain : String}
    {state after : ScanState}
    (emitted : (do
      let rest ← text.part last text.size
      return state.addText (plain ++ rest) : Except Halt ScanState) = .ok after) :
    context.Scores [] state after := by
  obtain ⟨rest, _, emitted⟩ := bind_eq_ok.mp emitted
  obtain rfl := pure_eq_ok.mp emitted
  exact Scores.addText _ _

theorem emitWords_scores {table : KeywordTable} {text : Text} {rounds position last : Nat}
    {plain : String} {state after : ScanState}
    (emitted : context.emitWords table text rounds position last plain state = .ok after) :
    context.Scores (context.hitsAt table text (table.spans text rounds position)) state after := by
  induction rounds generalizing position last plain state with
  | zero => exact emitWords_rest_scores emitted
  | succ rounds ih =>
      unfold emitWords at emitted
      unfold KeywordTable.spans
      cases found : table.pattern.find? text position with
      | none =>
          rw [found] at emitted
          exact emitWords_rest_scores emitted
      | some span =>
          rw [found] at emitted
          obtain ⟨word, taken, emitted⟩ := bind_eq_ok.mp emitted
          obtain ⟨skipped, _, emitted⟩ := bind_eq_ok.mp emitted
          obtain ⟨_, rfl⟩ := Text.part_eq_ok_iff.mp taken
          have scored := emitWord_scores context table
            (String.ofList (text.between span.start span.stop)) (plain ++ skipped) state
          generalize context.emitWord table _ (plain ++ skipped) state = emission at scored emitted
          obtain ⟨left, middle⟩ := emission
          dsimp only at emitted scored ⊢
          generalize (if span.start < span.stop then span.stop else span.stop + 1) = next at emitted ⊢
          have onward : context.Scores (context.hitsAt table text
              (if next ≤ text.size then table.spans text rounds next else [])) middle after := by
            by_cases more : next ≤ text.size
            · rw [if_pos more] at emitted ⊢
              exact ih emitted
            · rw [if_neg more] at emitted ⊢
              exact emitWords_rest_scores emitted
          have whole := scored.trans onward
          unfold hitsAt at whole ⊢
          rw [List.filterMap_cons]
          cases hit : context.hit? table (String.ofList (text.between span.start span.stop)) with
          | none => simpa [hit] using whole
          | some found => simpa [hit] using whole

theorem emitKeywords_scores {text : String} {state after : ScanState}
    (emitted : context.emitKeywords text state = .ok after) :
    context.Scores (context.textScores state.stack.top text) state after := by
  unfold emitKeywords topMode at emitted
  unfold textScores
  cases found : (context.grammar.mode state.stack.top).keywords with
  | none =>
      rw [found] at emitted
      obtain rfl := Except.ok.inj emitted
      exact Scores.addText _ _
  | some table =>
      rw [found] at emitted
      exact emitWords_scores emitted

private theorem exists_segmentScores {lexeme : String} {state after : ScanState}
    {onward : ScanState → Except Halt ScanState} (scope : Option String)
    (emitted : (match scope with
      | some scope =>
        (Except.ok (state.addScoped lexeme (context.grammar.resolveScope scope)) : Except Halt _) >>= onward
      | none => context.emitKeywords lexeme state >>= onward) = .ok after) :
    ∃ behind, context.Scores (context.segmentScores state.stack.top lexeme scope) state behind ∧
      behind.stack = state.stack ∧ onward behind = .ok after := by
  cases scope with
  | none =>
      obtain ⟨behind, added, onward⟩ := bind_eq_ok.mp emitted
      exact ⟨behind, emitKeywords_scores added, (emitKeywords_emits context added).stack, onward⟩
  | some scope => exact ⟨_, Scores.addScoped context _ _ _, rfl, emitted⟩

theorem emitGroups_scores {found : Pattern.RuleMatch} {scopes : List (Nat × Option String)}
    {position : Nat} {state after : ScanState}
    (emitted : context.emitGroups found scopes position state = .ok after) :
    context.Scores (context.groupScores state.stack.top found scopes position) state after := by
  induction scopes generalizing position state with
  | nil =>
      obtain ⟨part, taken, emitted⟩ := bind_eq_ok.mp emitted
      obtain ⟨_, rfl⟩ := Text.part_eq_ok_iff.mp taken
      simpa [groupScores, segmentScores, Pattern.RuleMatch.segments] using emitKeywords_scores emitted
  | cons entry rest ih =>
      obtain ⟨group, scope⟩ := entry
      unfold emitGroups at emitted
      unfold groupScores Pattern.RuleMatch.segments
      cases spanned : found.span? group with
      | none =>
          rw [spanned] at emitted
          exact ih emitted
      | some span =>
          rw [spanned] at emitted
          dsimp only at emitted ⊢
          split at emitted
          · rename_i passed
            rw [if_pos passed]
            exact ih emitted
          · rename_i ahead
            rw [if_neg ahead]
            obtain ⟨between, betweenTaken, emitted⟩ := bind_eq_ok.mp emitted
            obtain ⟨middle, betweenAdded, emitted⟩ := bind_eq_ok.mp emitted
            obtain ⟨lexeme, lexemeTaken, emitted⟩ := bind_eq_ok.mp emitted
            obtain ⟨_, rfl⟩ := Text.part_eq_ok_iff.mp betweenTaken
            obtain ⟨_, rfl⟩ := Text.part_eq_ok_iff.mp lexemeTaken
            obtain ⟨behind, inside, behindStack, emitted⟩ := exists_segmentScores scope emitted
            have before := emitKeywords_scores betweenAdded
            have middleStack := (emitKeywords_emits context betweenAdded).stack
            have onward := ih emitted
            rw [behindStack, middleStack] at onward
            rw [middleStack] at inside
            simpa [groupScores, segmentScores] using before.trans (inside.trans onward)

/-! ### The buffer -/

theorem addEmbedded_scores (result : ScanResult) (state : ScanState)
    (continuations : Dictionary ModeStack) :
    context.Scores [.embedded state.stack.top result] state
      (context.addEmbedded result { state with continuations }) := by
  refine ⟨?_, ?_⟩
  · change _ = context.count state.tally (.embedded state.stack.top result)
    unfold count addEmbedded topMode ScanState.tally
    dsimp only
    split
    · rfl
    · rfl
  · simp [shown?, addEmbedded]

theorem emitEmbedded_scores {subLanguage : SubLanguage} {text : String} {state after : ScanState}
    (emitted : context.emitEmbedded subLanguage text state = .ok after) :
    context.Scores ((context.embeddedResult? subLanguage text state.continuations).map
      (Score.embedded state.stack.top)).toList state after := by
  unfold emitEmbedded at emitted
  unfold embeddedResult?
  by_cases empty : text.isEmpty = true
  · rw [if_pos empty] at emitted ⊢
    obtain rfl := Except.ok.inj emitted
    exact Scores.refl state
  · rw [if_neg empty] at emitted ⊢
    cases subLanguage with
    | named name =>
        dsimp only at emitted ⊢
        cases found : context.catalog.find? name with
        | none =>
            rw [found] at emitted
            obtain rfl := Except.ok.inj emitted
            exact Scores.addText text state
        | some grammar =>
            rw [found] at emitted
            obtain ⟨scanned, scan, emitted⟩ := bind_eq_ok.mp emitted
            obtain rfl := pure_eq_ok.mp emitted
            rw [Option.bind_some, scan]
            exact addEmbedded_scores scanned.result state _
    | detected candidates =>
        obtain ⟨result, detected, emitted⟩ := bind_eq_ok.mp emitted
        obtain rfl := pure_eq_ok.mp emitted
        dsimp only
        rw [detected]
        exact addEmbedded_scores result state state.continuations

theorem flush_scores {state after : ScanState} (flushed : context.flush state = .ok after) :
    context.Scores (context.flushScores state) state after := by
  unfold flush at flushed
  unfold flushScores
  dsimp only at flushed
  have top : context.topMode { state with buffer := "" } = context.topMode state := rfl
  rw [top] at flushed
  cases scanned : (context.topMode state).subLanguage with
  | none =>
      rw [scanned] at flushed
      exact (emitKeywords_scores flushed).congr rfl rfl rfl rfl
  | some subLanguage =>
      rw [scanned] at flushed
      exact (emitEmbedded_scores flushed).congr rfl rfl rfl rfl

end ScanContext

end Highlight
