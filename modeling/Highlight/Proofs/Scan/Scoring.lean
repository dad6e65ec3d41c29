import Highlight.Proofs.Dictionary
import Highlight.Proofs.Scan.Bounds
import Highlight.Proofs.Scan.Hits
import Highlight.Proofs.Scan.Turning
import Mathlib.Algebra.GroupWithZero.Nat
import Mathlib.Data.List.Induction

set_option autoImplicit false

/-! What a whole scan counts. Each round gives rise to the scores of the texts that it puts into the tree,
and of the modes that end in it; a round in which no mode begins or ends gives rise to none. The relevance
of a scan is the sum of what its scores are worth, up to the most that a relevance can be: a keyword is
worth its relevance while its form has not been met too often, a mode that has ended is worth its own, and
an embedded text that of its result. -/

namespace Highlight

open Outcome
open scoped List

namespace ScanContext

variable (context : ScanContext)

/-! ### The scores of a round -/

def placeBeginScores (flags : ModeFlags) (lexeme : String) (state : ScanState) : List Score :=
  if flags.skip then []
  else
    context.flushScores
      (if flags.excludeBegin then { state with buffer := state.buffer ++ lexeme } else state)

def startScores (around place : Nat) (found : Pattern.RuleMatch) : List Score :=
  match (context.grammar.mode place).beginScope with
  | some (.groups scopes) => context.groupScores around found scopes found.start
  | _ => []

def placeEndScores (mode : Mode) (found : Pattern.RuleMatch) (lexeme : String) (state : ScanState) :
    List Score :=
  match mode.endScope with
  | some (.whole _) => context.flushScores state
  | some (.groups scopes) =>
    context.flushScores state ++ context.groupScores state.stack.top found scopes found.start
  | none =>
    if mode.flags.skip then []
    else
      context.flushScores
        (if mode.flags.returnEnd || mode.flags.excludeEnd then state
          else { state with buffer := state.buffer ++ lexeme })

def endedScores (count : Nat) (frames : List Frame) : List Score :=
  (frames.take count).map fun frame => .ended frame.mode

def textBetween (start stop : Nat) : String :=
  String.ofList (context.text.between start stop)

def roundScores (state : ScanState) : List Score :=
  match context.turn state with
  | .rests => []
  | .begins place found _ =>
    context.placeBeginScores (context.grammar.mode place).flags
        (context.textBetween found.start found.stop)
        (arrive found (context.textBetween state.position found.start) state) ++
      context.startScores state.stack.top place found
  | .ends found count frames =>
    context.placeEndScores (context.topMode state) found
        (context.textBetween found.start found.stop)
        { arrive found (context.textBetween state.position found.start) state with
          stack := ⟨frames⟩ } ++
      endedScores count frames ++
      (context.outermost count frames).starts.toList.flatMap fun next =>
        context.startScores (⟨frames.drop count⟩ : ModeStack).top next found

variable {context} {state after : ScanState} {found : Pattern.RuleMatch}

theorem placeBeginLexeme_scores {flags : ModeFlags} {lexeme : String}
    (placed : context.placeBeginLexeme flags lexeme state = .ok after) :
    context.Scores (context.placeBeginScores flags lexeme state) state after := by
  unfold placeBeginScores
  cases placeBeginLexeme_cases placed with
  | skipped skip =>
      rw [if_pos skip]
      exact Scores.of_same rfl (List.Sublist.refl _)
  | excluded skip exclude flushes =>
      rw [if_neg (by simp [skip]), if_pos exclude]
      exact (flush_scores flushes).congr rfl rfl rfl rfl
  | returned skip exclude _ flushes =>
      rw [if_neg (by simp [skip]), if_neg (by simp [exclude])]
      exact flush_scores flushes
  | kept skip exclude _ flushes =>
      rw [if_neg (by simp [skip]), if_neg (by simp [exclude])]
      exact (flush_scores flushes).congr rfl rfl rfl rfl

theorem startMode_scores {place : Nat} {data : HookData}
    (started : context.startMode place found data state = .ok after) :
    context.Scores (context.startScores state.stack.top place found) state after := by
  unfold startMode at started
  unfold startScores
  extract_lets mode opened at started
  have opens : context.Scores [] state opened := by
    dsimp only [opened]
    split
    · exact Scores.of_same rfl (by simp)
    · exact Scores.refl state
  have stack : opened.stack = state.stack := by
    dsimp only [opened]
    split
    · rfl
    · rfl
  split at started
  · rename_i scope shape
    obtain rfl := pure_eq_ok.mp started
    rw [shape]
    exact (opens.trans (Scores.addScoped _ _ _ _)).congr rfl rfl rfl rfl
  · rename_i scopes shape
    obtain ⟨inner, emitted, started⟩ := bind_eq_ok.mp started
    obtain rfl := pure_eq_ok.mp started
    have grouped := emitGroups_scores emitted
    rw [stack] at grouped
    rw [shape]
    exact (opens.trans grouped).congr rfl rfl rfl rfl
  · rename_i shape
    obtain rfl := pure_eq_ok.mp started
    rw [shape]
    exact opens.congr rfl rfl rfl rfl

theorem placeEndLexeme_scores {mode : Mode} {lexeme : String}
    (placed : context.placeEndLexeme mode found lexeme state = .ok after) :
    context.Scores (context.placeEndScores mode found lexeme state) state after := by
  unfold placeEndScores
  cases placeEndLexeme_cases placed with
  | whole shape flushes =>
      rw [shape]
      simpa using (flush_scores flushes).trans (Scores.addScoped _ _ _ _)
  | groups shape flushes emitted =>
      have grouped := emitGroups_scores emitted
      rw [(flush_sameCourse context flushes).stack] at grouped
      rw [shape]
      exact (flush_scores flushes).trans grouped
  | skipped shape skip =>
      simp only [shape, if_pos skip]
      exact Scores.of_same rfl (List.Sublist.refl _)
  | excluded shape skip exclude flushes =>
      simp only [shape, skip, exclude, Bool.or_true, Bool.false_eq_true, if_true, if_false]
      exact (flush_scores flushes).congr rfl rfl rfl rfl
  | returned shape skip exclude returns flushes =>
      simp only [shape, skip, returns, Bool.true_or, Bool.false_eq_true, if_true, if_false]
      exact flush_scores flushes
  | kept shape skip exclude returns flushes =>
      simp only [shape, skip, exclude, returns, Bool.or_false, Bool.false_eq_true, if_false]
      exact (flush_scores flushes).congr rfl rfl rfl rfl

theorem leaveModes_scores (context : ScanContext) {state : ScanState} {count : Nat}
    {frames : List Frame} (nested : state.stack.nested = frames) (within : count ≤ frames.length) :
    context.Scores (endedScores count frames) state (context.leaveModes count state) := by
  induction count generalizing state frames with
  | zero => exact Scores.refl state
  | succ count ih =>
      cases frames with
      | nil => simp at within
      | cons frame outer =>
          have top : context.topMode state = context.grammar.mode frame.mode := by
            simp [topMode, ModeStack.top, nested]
          have left : context.Scores [.ended frame.mode] state (context.leaveMode state) := by
            refine ⟨?_, ?_⟩
            · change _ = context.count state.tally (.ended frame.mode)
              unfold ScanContext.count leaveMode ScanState.tally
              dsimp only
              rw [top]
              split
              · rfl
              · rfl
            · change state.tree.words ++ [] <+ _
              rw [List.append_nil]
              unfold leaveMode
              dsimp only
              split
              · exact TreeBuilder.words_closeScope _
              · exact List.Sublist.refl _
          have popped : (context.leaveMode state).stack.nested = outer := by
            simp [leaveMode, ModeStack.pop, nested]
          exact left.trans (ih popped (Nat.le_of_succ_le_succ within))

theorem startNext_scores {next : Option Nat}
    (started : context.startNext next found state = .ok after) :
    context.Scores (next.toList.flatMap fun next => context.startScores state.stack.top next found)
      state after := by
  cases next with
  | none =>
      obtain rfl := Except.ok.inj started
      exact Scores.refl _
  | some next => simpa using startMode_scores started

theorem BeginsMode.scores {place : Nat} {data : HookData}
    (begins : context.BeginsMode state found place data) {progress : Progress}
    (stepped : context.step state = .ok progress) :
    context.Scores (context.roundScores state) state progress.state := by
  rw [begins.step] at stepped
  obtain ⟨skipped, before, stepped⟩ := bind_eq_ok.mp stepped
  obtain ⟨lexeme, matched, stepped⟩ := bind_eq_ok.mp stepped
  obtain ⟨placed, places, stepped⟩ := bind_eq_ok.mp stepped
  obtain ⟨started, starts, stepped⟩ := bind_eq_ok.mp stepped
  obtain rfl := pure_eq_ok.mp stepped
  obtain ⟨_, rfl⟩ := Text.part_eq_ok_iff.mp before
  obtain ⟨_, rfl⟩ := Text.part_eq_ok_iff.mp matched
  have first := placeBeginLexeme_scores places
  have second := startMode_scores starts
  rw [(placeBeginLexeme_course places).1] at second
  unfold roundScores
  rw [turn_eq_begins.mpr begins]
  exact (first.trans second).congr rfl rfl rfl rfl

theorem EndsModes.scores {count : Nat} {frames : List Frame}
    (ends : context.EndsModes state found count frames) {progress : Progress}
    (stepped : context.step state = .ok progress) :
    context.Scores (context.roundScores state) state progress.state := by
  rw [ends.step] at stepped
  obtain ⟨skipped, before, stepped⟩ := bind_eq_ok.mp stepped
  obtain ⟨lexeme, matched, stepped⟩ := bind_eq_ok.mp stepped
  obtain ⟨placed, places, stepped⟩ := bind_eq_ok.mp stepped
  obtain ⟨started, starts, stepped⟩ := bind_eq_ok.mp stepped
  obtain rfl := pure_eq_ok.mp stepped
  obtain ⟨_, rfl⟩ := Text.part_eq_ok_iff.mp before
  obtain ⟨_, rfl⟩ := Text.part_eq_ok_iff.mp matched
  have within : count ≤ frames.length := by
    have bounds := endingModes_count (congrArg Prod.fst ends.accepted)
    have modes := endingModes_modes context.grammar (context.hookMatch found) state.stack.nested
    rw [ends.accepted] at modes
    have same := congrArg List.length modes
    rw [List.length_map, List.length_map] at same
    dsimp only at same
    omega
  have stack : placed.stack = ⟨frames⟩ := (placeEndLexeme_course places).1
  have first := placeEndLexeme_scores places
  have second := leaveModes_scores context (congrArg ModeStack.nested stack) within
  have third := startNext_scores starts
  rw [leaveModes_stack, stack] at third
  unfold roundScores
  rw [turn_eq_ends.mpr ends]
  exact ((first.trans second).trans third).congr rfl rfl rfl rfl

theorem step_scores {progress : Progress} (stepped : context.step state = .ok progress) :
    context.Scores (context.roundScores state) state progress.state := by
  cases turns : context.turn state with
  | rests =>
      have rested := rested_of_turn turns stepped
      unfold roundScores
      rw [turns]
      apply Scores.of_same
      · unfold ScanState.tally
        rw [rested.relevance, rested.hits]
      · rw [rested.tree]
  | begins place found data => exact (turn_eq_begins.mp turns).scores stepped
  | ends found count frames => exact (turn_eq_ends.mp turns).scores stepped

/-! ### The scores of a scan -/

def scoresOfRounds (context : ScanContext) : Nat → ScanState → List Score
  | 0, _ => []
  | rounds + 1, state =>
    context.roundScores state ++
      match context.step state with
      | .ok (.advance next) => scoresOfRounds context rounds next
      | _ => []

/-- The scores of a scan: those of its rounds, and those of the text behind the last match. -/
def scanScores (context : ScanContext) (stack : Option ModeStack) : List Score :=
  let rounds := context.settings.limits.mostRounds context.text.byteSize
  let last := (context.runRounds rounds (context.start stack)).state
  context.scoresOfRounds rounds (context.start stack) ++
    context.flushScores
      { last with buffer := last.buffer ++ context.textBetween last.position context.text.size }

theorem runRounds_scores {rounds : Nat} (ended : (context.runRounds rounds state).halt = none) :
    context.Scores (context.scoresOfRounds rounds state) state
      (context.runRounds rounds state).state := by
  induction rounds generalizing state with
  | zero => cases ended
  | succ rounds ih =>
      unfold runRounds at ended ⊢
      unfold scoresOfRounds
      cases stepped : context.step state with
      | error halt =>
          rw [stepped] at ended
          cases ended
      | ok progress =>
          have scored := step_scores stepped
          rw [stepped] at ended
          cases progress with
          | advance next => exact scored.trans (ih ended)
          | finish last =>
              dsimp only
              rw [List.append_nil]
              exact scored

theorem run_scores {stack : Option ModeStack} (ended : (context.run stack).halt = none) :
    context.Scores (context.scanScores stack) (context.start stack) (context.run stack).state := by
  unfold run at ended ⊢
  unfold scanScores
  dsimp only at ended ⊢
  have scored : (context.runRounds (context.settings.limits.mostRounds context.text.byteSize)
      (context.start stack)).halt = none → _ := runRounds_scores
  generalize context.runRounds _ (context.start stack) = rounded at ended scored ⊢
  split at ended
  · rename_i halted
    rw [halted] at ended
    cases ended
  · rename_i finished
    split at ended
    · rename_i last taken
      obtain ⟨rest, part, flushed⟩ := bind_eq_ok.mp taken
      obtain ⟨_, rfl⟩ := Text.part_eq_ok_iff.mp part
      exact (scored finished).trans ((flush_scores flushed).congr rfl rfl rfl rfl)
    · cases ended

/-! ### What the scores are worth -/

end ScanContext

def Score.hit? : Score → Option Hit
  | .hit found => some found
  | _ => none

/-- What keywords are worth, the latest of them first: each its relevance if its form stands among those
before it less often than that. -/
def keywordRelevance (most : Nat) : List Hit → Nat
  | [] => 0
  | hit :: earlier =>
    (if (earlier.countP fun other => other.form == hit.form) < most then hit.keyword.relevance else 0) +
      keywordRelevance most earlier

namespace ScanContext

/-- What the end of a mode is worth: its relevance, unless its text was taken as that of the mode around it
or scanned with another grammar. -/
def endedRelevance (context : ScanContext) : Score → Nat
  | .ended place =>
    let mode := context.grammar.mode place
    if mode.flags.skip || mode.subLanguage.isSome then 0 else mode.relevance
  | _ => 0

/-- What an embedded text is worth: the relevance of its result, if the mode around it has any. -/
def embeddedRelevance (context : ScanContext) : Score → Nat
  | .embedded place result =>
    if 0 < (context.grammar.mode place).relevance then result.relevance else 0
  | _ => 0

def worth (context : ScanContext) (scores : List Score) : Nat :=
  keywordRelevance context.settings.limits.keywordHits (scores.filterMap Score.hit?).reverse +
    (scores.map context.endedRelevance).sum + (scores.map context.embeddedRelevance).sum

variable {context : ScanContext} {scores : List Score}

theorem worth_hit (hit : Hit) :
    context.worth (scores ++ [.hit hit]) = context.worth scores +
      if (scores.filterMap Score.hit?).countP (fun other => other.form == hit.form) <
          context.settings.limits.keywordHits then hit.keyword.relevance else 0 := by
  have keywords : ((scores ++ [Score.hit hit]).filterMap Score.hit?).reverse =
      hit :: (scores.filterMap Score.hit?).reverse := by
    simp [Score.hit?]
  unfold worth
  rw [keywords, keywordRelevance, List.countP_reverse]
  simp only [List.map_append, List.map_cons, List.map_nil, List.sum_append, List.sum_cons, List.sum_nil,
    endedRelevance, embeddedRelevance]
  omega

theorem worth_other {score : Score} (other : score.hit? = none) :
    context.worth (scores ++ [score]) =
      context.worth scores + (context.endedRelevance score + context.embeddedRelevance score) := by
  have keywords : (scores ++ [score]).filterMap Score.hit? = scores.filterMap Score.hit? := by
    simp [other]
  unfold worth
  rw [keywords]
  simp only [List.map_append, List.map_cons, List.map_nil, List.sum_append, List.sum_cons, List.sum_nil]
  omega

theorem addRelevance_min (relevance more : Nat) :
    ScanResult.addRelevance (min ScanResult.mostRelevant relevance) more =
      min ScanResult.mostRelevant (relevance + more) := by
  unfold ScanResult.addRelevance
  omega

/-- What scores have been counted to: what they are worth, up to the most that a relevance can be, and how
often each form stands among them. -/
structure Tallies (context : ScanContext) (scores : List Score) (tally : Tally) : Prop where
  relevance : tally.relevance = min ScanResult.mostRelevant (context.worth scores)
  hits : ∀ form, (tally.hits.find? form).getD 0 =
    (scores.filterMap Score.hit?).countP fun hit => hit.form == form

/-- Whether the next keyword counts depends on how often its form was met, so both go together. -/
theorem Tallies.hit {tally : Tally} (tallies : context.Tallies scores tally) (hit : Hit) :
    context.Tallies (scores ++ [.hit hit]) (context.count tally (.hit hit)) := by
  have times := tallies.hits hit.form
  refine ⟨?_, fun form => ?_⟩
  · rw [worth_hit]
    simp only [count, times, Nat.lt_iff_add_one_le]
    split
    · rw [tallies.relevance, addRelevance_min]
    · exact tallies.relevance
  · simp only [count, Dictionary.find?_insert, List.filterMap_append, List.countP_append]
    by_cases same : form = hit.form
    · subst same
      simp [times, Score.hit?]
    · have apart : (hit.form == form) = false := beq_eq_false_iff_ne.mpr (Ne.symm same)
      simp [same, tallies.hits form, Score.hit?, apart]

theorem Tallies.other {tally : Tally} (tallies : context.Tallies scores tally) {score : Score}
    (other : score.hit? = none) :
    context.Tallies (scores ++ [score]) (context.count tally score) := by
  have hits : (scores ++ [score]).filterMap Score.hit? = scores.filterMap Score.hit? := by
    simp [other]
  cases score with
  | hit hit => cases other
  | ended place =>
      unfold count
      dsimp only
      split
      · rename_i within
        refine ⟨?_, hits ▸ tallies.hits⟩
        rw [worth_other other]
        simp only [endedRelevance, embeddedRelevance, if_pos within]
        exact tallies.relevance
      · rename_i counts
        refine ⟨?_, hits ▸ tallies.hits⟩
        rw [worth_other other, tallies.relevance, addRelevance_min]
        simp only [endedRelevance, embeddedRelevance, if_neg counts, Nat.add_zero]
  | embedded place result =>
      unfold count
      dsimp only
      split
      · rename_i counts
        refine ⟨?_, hits ▸ tallies.hits⟩
        rw [worth_other other, tallies.relevance, addRelevance_min]
        simp only [endedRelevance, embeddedRelevance, if_pos counts, Nat.zero_add]
      · rename_i within
        refine ⟨?_, hits ▸ tallies.hits⟩
        rw [worth_other other]
        simp only [endedRelevance, embeddedRelevance, if_neg within]
        exact tallies.relevance

theorem tallies_foldl (context : ScanContext) (scores : List Score) :
    context.Tallies scores (scores.foldl context.count ⟨0, {}⟩) := by
  induction scores using List.reverseRecOn with
  | nil => exact ⟨rfl, fun form => rfl⟩
  | append_singleton scores score ih =>
      rw [List.foldl_append, List.foldl_cons, List.foldl_nil]
      cases hit : score.hit? with
      | none => exact ih.other hit
      | some found =>
          cases score with
          | hit found => exact ih.hit found
          | ended place => cases hit
          | embedded place result => cases hit

theorem run_of_scan {stack : Option ModeStack} {scanned : Scanned}
    (scan : context.scan stack = .ok scanned) (belongs : scanned.result.illegal = false)
    (sound : scanned.result.failed = false) :
    (context.run stack).halt = none ∧
      scanned.result.relevance = (context.run stack).state.relevance ∧
      scanned.result.tree = (context.run stack).state.tree.finish := by
  unfold ScanContext.scan result at scan
  split at scan
  · rename_i ended
    obtain rfl := Except.ok.inj scan
    exact ⟨ended, rfl, rfl⟩
  · rename_i error halted
    split at scan
    · obtain rfl := Except.ok.inj scan
      have illegal : error.isIllegal = false := belongs
      have failed : (!error.isIllegal) = false := sound
      rw [illegal] at failed
      cases failed
    · cases scan
  · cases scan

/-- The relevance of a scan that has not given up is what its scores are worth: what its keywords are worth,
each counted while its form has not been met too often, and what the modes that have ended and the embedded
texts are. All keywords that are to be seen stand in the tree in their order, also those that do not count
any more. -/
theorem scan_relevance {stack : Option ModeStack} {scanned : Scanned}
    (scan : context.scan stack = .ok scanned) (belongs : scanned.result.illegal = false)
    (sound : scanned.result.failed = false) :
    scanned.result.relevance = min ScanResult.mostRelevant
        (keywordRelevance context.settings.limits.keywordHits
            ((context.scanScores stack).filterMap Score.hit?).reverse +
          ((context.scanScores stack).map context.endedRelevance).sum +
          ((context.scanScores stack).map context.embeddedRelevance).sum) ∧
      (context.scanScores stack).filterMap context.shown? <+ scanned.result.tree.words := by
  obtain ⟨ended, relevance, tree⟩ := run_of_scan scan belongs sound
  have scored := run_scores ended
  constructor
  · have tally : (context.run stack).state.tally =
        (context.scanScores stack).foldl context.count ⟨0, {}⟩ := scored.tally
    rw [relevance]
    change (context.run stack).state.tally.relevance = _
    rw [tally]
    exact (tallies_foldl context (context.scanScores stack)).relevance
  · rw [tree]
    have shown := (List.sublist_append_right _ _).trans scored.words
    exact shown.trans (TreeBuilder.words_finish _)

/-- A grammar in which a word weighs more between brackets, and what stands between angles is scanned with
the grammar itself. -/
def weighted : GrammarDefinition where
  root := {
    keywords := some (.words "if|2 for|3")
    contains := [
      .inline {
        begins := some (.one "\\(")
        ends := some (.one "\\)")
        relevance := some 5
        keywords := some (.words "if|7") },
      .inline {
        begins := some (.one "<")
        ends := some (.one ">")
        relevance := some 4
        flags := { excludeBegin := true, excludeEnd := true }
        subLanguage := some (.one "a") }] }

def weightedScan (grammar : Grammar) : ScanContext :=
  (Catalog.put {} grammar).nestedContext 1 grammar "if (if) for if <if>"
    { limits := { keywordHits := 2 } }

/-- Two words of the three that are the same count, each with its own weight; a word and a pair of brackets
count as well, and so does the text between the angles, but not the angles. -/
theorem scan_relevance_weighted : ∃ grammar scanned,
    Grammar.compile Pattern.engine "a" weighted = .ok grammar ∧
      (weightedScan grammar).scan none = .ok scanned ∧
      scanned.result.relevance = (2 + 7 + 3) + 5 + 2 ∧
      keywordRelevance 2 (((weightedScan grammar).scanScores none).filterMap Score.hit?).reverse +
          (((weightedScan grammar).scanScores none).map (weightedScan grammar).endedRelevance).sum +
          (((weightedScan grammar).scanScores none).map (weightedScan grammar).embeddedRelevance).sum =
        (2 + 7 + 3) + 5 + 2 ∧
      [("keyword", "if"), ("keyword", "if"), ("keyword", "for"), ("keyword", "if")] <+
        scanned.result.tree.words := by
  have answers : (Grammar.compile Pattern.engine "a" weighted).toOption.any (fun grammar =>
      decide (∃ scanned ∈ ((weightedScan grammar).scan none).toOption,
        scanned.result.illegal = false ∧ scanned.result.failed = false ∧
        scanned.result.relevance = (2 + 7 + 3) + 5 + 2 ∧
        ((weightedScan grammar).scanScores none).filterMap (weightedScan grammar).shown? =
          [("keyword", "if"), ("keyword", "if"), ("keyword", "for"), ("keyword", "if")])) = true := by
    decide +kernel
  obtain ⟨grammar, compiled, scanned, scan, belongs, sound, relevance, shown⟩ := exists_of_any answers
  have scan := eq_ok_of_toOption scan
  obtain ⟨worth, words⟩ := scan_relevance scan belongs sound
  refine ⟨grammar, scanned, compiled, scan, relevance, ?_, shown ▸ words⟩
  rw [relevance] at worth
  change _ = min (Nat.pow 2 32 - 1) _ at worth
  have bound : Nat.pow 2 32 - 1 = 4294967295 := by decide
  change keywordRelevance (weightedScan grammar).settings.limits.keywordHits _ + _ + _ = _
  omega

end ScanContext

end Highlight
