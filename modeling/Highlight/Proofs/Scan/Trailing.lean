import Highlight.Proofs.Scan.Standing

set_option autoImplicit false

/-! What is in the buffer of a scan. If no mode gives back a match that it also puts somewhere, the
buffer holds the last part of the text gone through, and the text before that part has been put away.
Some has been put away for sure once an embedded scan has left a stack behind, and while a mode is on
whose begin matches take up text and are not part of it. -/

namespace Highlight

open Outcome

namespace Grammar

structure TakesOnce (grammar : Grammar) : Prop where
  returnBegin : ∀ mode ∈ grammar.modes, mode.flags.returnBegin = true →
    mode.flags.skip = false ∧ mode.flags.excludeBegin = false
  returnEnd : ∀ mode ∈ grammar.modes, mode.flags.returnEnd = true → mode.endScope = none →
    mode.flags.skip = false ∧ mode.flags.excludeEnd = false

/-- Where a round of a scan that has begun afresh begins in the mode, some of the text before has been
put away. -/
def SetsApart (grammar : Grammar) (place : Nat) : Prop :=
  ∀ (context : ScanContext) (state : ScanState), context.grammar = grammar →
    context.RoundStart none state → state.stack.top = place →
    state.buffer.toList.length < state.position

/-- A mode whose begin matches take up text that is put away before it. -/
structure Excludes (grammar : Grammar) (place : Nat) : Prop where
  skip : (grammar.mode place).flags.skip = false
  exclude : (grammar.mode place).flags.excludeBegin = true
  unstarted : ∀ outer, (grammar.mode outer).starts ≠ some place
  takes : ∀ below set text position found, grammar.matcher below = .ok set →
    set.find? text position = some found → found.rule = .begins place → found.start < found.stop

end Grammar

theorem Text.length_of_part {text : Text} {start stop : Nat} {part : String}
    (taken : text.part start stop = .ok part) : start + part.toList.length = stop := by
  obtain ⟨⟨order, within⟩, rfl⟩ := part_eq_ok_iff.mp taken
  have size : stop ≤ text.chars.size := within
  simp only [String.toList_ofList, between, Array.length_toList, Array.size_extract]
  omega

namespace ScanContext

/-! ### What is in the buffer -/

section

variable {context : ScanContext} {apart : Prop}

/-- The buffer holds the last part of the text before a position. Something stands before that part if
an embedded scan has left a stack behind, and also if the part is known to be set apart. -/
def TrailsTo (context : ScanContext) (apart : Prop) (state : ScanState) (stop : Nat) : Prop :=
  ∃ start, context.text.part start stop = .ok state.buffer ∧
    (state.continuations.entries ≠ [] ∨ apart → 0 < start)

theorem TrailsTo.of_same {before after : ScanState} {stop : Nat}
    (trails : context.TrailsTo apart before stop) (buffer : after.buffer = before.buffer)
    (continuations : after.continuations = before.continuations) :
    context.TrailsTo apart after stop := by
  unfold TrailsTo
  rw [buffer, continuations]
  exact trails

theorem TrailsTo.append {before after : ScanState} {stop later : Nat} {more : String}
    (trails : context.TrailsTo apart before stop) (taken : context.text.part stop later = .ok more)
    (buffer : after.buffer = before.buffer ++ more)
    (continuations : after.continuations = before.continuations) :
    context.TrailsTo apart after later := by
  obtain ⟨start, part, ahead⟩ := trails
  refine ⟨start, ?_, ?_⟩
  · rw [buffer]
    exact Text.part_append part taken
  · rw [continuations]
    exact ahead

theorem TrailsTo.renew {before after : ScanState} {stop middle later : Nat}
    (trails : context.TrailsTo apart before stop)
    (kept : after.continuations.entries ≠ [] → before.continuations.entries ≠ [] ∨ before.buffer ≠ "")
    (order : stop ≤ middle) (taken : context.text.part middle later = .ok after.buffer) :
    context.TrailsTo apart after later := by
  obtain ⟨start, part, ahead⟩ := trails
  have length := Text.length_of_part part
  refine ⟨middle, taken, fun cause => ?_⟩
  rcases cause with some_ | apart
  · rcases kept some_ with earlier | filled
    · have positive := ahead (.inl earlier)
      omega
    · have nonempty : before.buffer.toList ≠ [] := by simpa using filled
      have positive := List.length_pos_iff.mpr nonempty
      omega
  · have positive := ahead (.inr apart)
    omega

theorem TrailsTo.empty {state : ScanState} {stop : Nat} (trails : context.TrailsTo apart state stop)
    {after : ScanState} (buffer : after.buffer = "")
    (continuations : after.continuations = state.continuations) :
    context.TrailsTo apart after stop := by
  refine trails.renew (fun some_ => .inl (continuations ▸ some_)) (Nat.le_refl _) ?_
  obtain ⟨_, part, _⟩ := trails
  rw [buffer]
  exact Text.part_self (Text.part_eq_ok_iff.mp part).1.2

/-- An embedded scan leaves a stack behind only for a text that is not empty. -/
theorem flush_continuations {state after : ScanState} (flushed : context.flush state = .ok after)
    (some_ : after.continuations.entries ≠ []) :
    state.continuations.entries ≠ [] ∨ state.buffer ≠ "" := by
  by_cases empty : state.buffer = ""
  · refine Or.inl ?_
    have same : after.continuations = state.continuations := by
      unfold flush at flushed
      dsimp only at flushed
      split at flushed
      · unfold emitEmbedded at flushed
        rw [if_pos (by simp [empty])] at flushed
        obtain rfl := Except.ok.inj flushed
        rfl
      · exact (emitKeywords_emits context flushed).continuations
    rwa [same] at some_
  · exact Or.inr empty

/-- After the buffer has been emptied into the tree, it may hold any text from there on. -/
theorem TrailsTo.flush {before flushed after : ScanState} {stop middle later : Nat}
    (trails : context.TrailsTo apart before stop) (flushes : context.flush before = .ok flushed)
    (continuations : after.continuations = flushed.continuations) (order : stop ≤ middle)
    (taken : context.text.part middle later = .ok after.buffer) :
    context.TrailsTo apart after later :=
  trails.renew (fun some_ => flush_continuations flushes (continuations ▸ some_)) order taken

theorem Arrival.trails {state arrived : ScanState} {found : Pattern.RuleMatch} {lexeme : String}
    (arrival : context.Arrival state found lexeme arrived)
    (trails : context.TrailsTo apart state state.position) :
    context.TrailsTo apart arrived found.start := by
  obtain ⟨skipped, _, taken, rfl⟩ := arrival.reaches
  exact trails.append taken rfl rfl

theorem startMode_trails {place : Nat} {found : Pattern.RuleMatch} {data : HookData}
    {state after : ScanState} {stop : Nat} (trails : context.TrailsTo apart state stop)
    (started : context.startMode place found data state = .ok after) :
    context.TrailsTo apart after stop := by
  obtain ⟨opened, opens, outcome⟩ := startMode_cases started
  have openedTrails : context.TrailsTo apart opened stop := by
    rw [opens.others]
    exact trails.of_same rfl rfl
  rcases outcome with ⟨_, rfl⟩ | ⟨_, scope, _, rfl⟩ | ⟨scopes, inner, _, emitted, rfl⟩
  · exact openedTrails.of_same rfl rfl
  · exact openedTrails.empty rfl rfl
  · obtain ⟨_, _, emits⟩ := emitGroups_emits context emitted
    exact openedTrails.empty rfl emits.continuations

theorem leaveModes_trails {state : ScanState} {stop : Nat} (count : Nat)
    (trails : context.TrailsTo apart state stop) :
    context.TrailsTo apart (context.leaveModes count state) stop := by
  induction count generalizing state with
  | zero => exact trails
  | succ count ih => exact ih (trails.of_same rfl rfl)

/-- Where the text of a match is taken up to, if it may be given back. -/
private theorem part_behind {start stop : Nat} {lexeme : String}
    (matched : context.text.part start stop = .ok lexeme) :
    context.text.part start start = .ok "" ∧ context.text.part stop stop = .ok "" := by
  obtain ⟨⟨order, within⟩, _⟩ := Text.part_eq_ok_iff.mp matched
  exact ⟨Text.part_self (Nat.le_trans order within), Text.part_self within⟩

theorem placeBeginLexeme_trails {flags : ModeFlags} {lexeme : String} {start stop : Nat}
    {state after : ScanState} (trails : context.TrailsTo apart state start)
    (matched : context.text.part start stop = .ok lexeme)
    (placed : context.placeBeginLexeme flags lexeme state = .ok after)
    (once : flags.returnBegin = true → flags.skip = false ∧ flags.excludeBegin = false) :
    context.TrailsTo apart after (if flags.returnBegin then start else stop) := by
  obtain ⟨atStart, atStop⟩ := part_behind matched
  -- the match goes behind what is in the buffer
  have whole : context.TrailsTo apart { state with buffer := state.buffer ++ lexeme } stop :=
    trails.append matched rfl rfl
  cases placeBeginLexeme_cases placed with
  | skipped skip =>
      rw [if_neg fun returned => by simp [once returned] at skip]
      exact whole
  | excluded _ exclude flushes =>
      rw [if_neg fun returned => by simp [once returned] at exclude]
      exact whole.flush flushes rfl (Nat.le_refl _) ((flush_buffer flushes).symm ▸ atStop)
  | returned _ _ returns flushes =>
      rw [if_pos returns]
      exact trails.flush flushes rfl (Nat.le_refl _) ((flush_buffer flushes).symm ▸ atStart)
  | kept _ _ returns flushes =>
      rw [if_neg (by simp [returns])]
      exact trails.flush flushes rfl (Nat.le_refl _) matched

theorem placeEndLexeme_trails {mode : Mode} {found : Pattern.RuleMatch} {lexeme : String}
    {state after : ScanState} (trails : context.TrailsTo apart state found.start)
    (matched : context.text.part found.start found.stop = .ok lexeme)
    (placed : context.placeEndLexeme mode found lexeme state = .ok after)
    (once : mode.flags.returnEnd = true → mode.endScope = none →
      mode.flags.skip = false ∧ mode.flags.excludeEnd = false) :
    context.TrailsTo apart after (if mode.flags.returnEnd then found.start else found.stop) := by
  obtain ⟨atStart, atStop⟩ := part_behind matched
  have order := (Text.part_eq_ok_iff.mp matched).1.1
  -- the match goes into the tree behind what was in the buffer, or is given back
  have away : ∀ {flushed after : ScanState}, context.flush state = .ok flushed →
      after.buffer = "" → after.continuations = flushed.continuations →
      context.TrailsTo apart after (if mode.flags.returnEnd then found.start else found.stop) := by
    intro flushed after flushes buffer continuations
    cases mode.flags.returnEnd with
    | true => exact trails.flush flushes continuations (Nat.le_refl _) (buffer.symm ▸ atStart)
    | false => exact trails.flush flushes continuations order (buffer.symm ▸ atStop)
  have whole : context.TrailsTo apart { state with buffer := state.buffer ++ lexeme } found.stop :=
    trails.append matched rfl rfl
  cases placeEndLexeme_cases placed with
  | whole _ flushes =>
      have buffer := flush_buffer flushes
      exact away flushes buffer rfl
  | groups _ flushes emitted =>
      obtain ⟨_, _, emits⟩ := emitGroups_emits context emitted
      exact away flushes (emits.buffer.trans (flush_buffer flushes)) emits.continuations
  | skipped shape skip =>
      rw [if_neg fun returned => by simp [once returned shape] at skip]
      exact whole
  | excluded shape _ exclude flushes =>
      rw [if_neg fun returned => by simp [once returned shape] at exclude]
      exact trails.flush flushes rfl (Nat.le_refl _) matched
  | returned _ _ _ returns flushes =>
      rw [if_pos returns]
      exact trails.flush flushes rfl (Nat.le_refl _) ((flush_buffer flushes).symm ▸ atStart)
  | kept _ _ _ returns flushes =>
      rw [if_neg (by simp [returns])]
      exact whole.flush flushes rfl (Nat.le_refl _) ((flush_buffer flushes).symm ▸ atStop)

theorem takeChar_trails {position : Nat} {state : ScanState}
    (trails : context.TrailsTo apart state position) :
    context.TrailsTo apart (context.takeChar position state).state
      (context.takeChar position state).state.position := by
  unfold takeChar
  cases found : context.text.charAt? position with
  | none =>
      obtain ⟨_, part, _⟩ := id trails
      have last := Text.eq_size_of_charAt?_none (Text.part_eq_ok_iff.mp part).1.2 found
      rw [last] at trails
      exact trails.of_same rfl rfl
  | some c => exact trails.append (Text.part_char found) (String.push_eq_append c) rfl

theorem Round.trails {state : ScanState} {progress : Progress} (once : context.grammar.TakesOnce)
    (trails : context.TrailsTo apart state state.position) (round : context.Round state progress) :
    context.TrailsTo apart progress.state progress.state.position := by
  have onceBegun := Grammar.mode_induction once.returnBegin (by simp)
  have onceEnded := Grammar.mode_induction once.returnEnd (by simp)
  cases round with
  | exhausted => exact trails.of_same rfl rfl
  | char arrival => exact takeChar_trails (arrival.trails trails)
  | ignored arrival => exact (arrival.trails trails).append arrival.lexeme rfl rfl
  | refused arrival asks => exact (arrival.trails trails).append arrival.lexeme rfl rfl
  | @begins found lexeme arrived placed started place data arrival rule places starts =>
      have placedTrails :=
        placeBeginLexeme_trails (arrival.trails trails) arrival.lexeme places (onceBegun place)
      exact (startMode_trails placedTrails starts).of_same rfl rfl
  | @ends found lexeme arrived placed count frames arrival asks places =>
      have framed : context.TrailsTo apart { arrived with stack := ⟨frames⟩ } found.start :=
        (arrival.trails trails).of_same rfl rfl
      have placedTrails := placeEndLexeme_trails framed arrival.lexeme places (onceEnded _)
      exact (leaveModes_trails count placedTrails).of_same rfl rfl
  | @continues found lexeme arrived placed started count next frames outer arrival asks places
      outermost follows starts =>
      have framed : context.TrailsTo apart { arrived with stack := ⟨frames⟩ } found.start :=
        (arrival.trails trails).of_same rfl rfl
      have placedTrails := placeEndLexeme_trails framed arrival.lexeme places (onceEnded _)
      exact (startMode_trails (leaveModes_trails count placedTrails) starts).of_same rfl rfl

/-- A round that is the last one leaves the innermost mode on, and the buffer as far back. -/
theorem Round.last {state last : ScanState} (round : context.Round state (.finish last)) :
    last.stack.top = state.stack.top ∧ (context.TrailsTo apart state state.position →
      context.TrailsTo apart last last.position) := by
  generalize same : Progress.finish last = progress at round
  cases round with
  | exhausted =>
      obtain rfl := Progress.finish.inj same
      exact ⟨rfl, fun trails => trails.of_same rfl rfl⟩
  | @char found lexeme arrived arrival =>
      have state : last = (context.takeChar found.start arrived).state := congrArg Progress.state same
      subst state
      refine ⟨?_, fun trails => takeChar_trails (arrival.trails trails)⟩
      obtain ⟨_, _, _, rfl⟩ := arrival.reaches
      unfold takeChar
      split
      · rfl
      · rfl
  | ignored => cases same
  | begins => cases same
  | refused => cases same
  | ends => cases same
  | continues => cases same

theorem TrailsTo.mono {other : Prop} {state : ScanState} {stop : Nat}
    (trails : context.TrailsTo apart state stop) (weaker : other → apart) :
    context.TrailsTo other state stop := by
  obtain ⟨start, part, ahead⟩ := trails
  exact ⟨start, part, fun cause => ahead (cause.imp_right weaker)⟩

theorem startMode_buffer {place : Nat} {found : Pattern.RuleMatch} {data : HookData}
    {state after : ScanState} (started : context.startMode place found data state = .ok after)
    (empty : state.buffer = "") : after.buffer = "" := by
  obtain ⟨opened, opens, outcome⟩ := startMode_cases started
  rcases outcome with ⟨_, rfl⟩ | ⟨_, scope, _, rfl⟩ | ⟨scopes, inner, _, _, rfl⟩
  · rw [opens.others]
    exact empty
  · rfl
  · rfl

theorem placeBeginLexeme_excluded {flags : ModeFlags} {lexeme : String} {state after : ScanState}
    (placed : context.placeBeginLexeme flags lexeme state = .ok after) (skip : flags.skip = false)
    (exclude : flags.excludeBegin = true) : after.buffer = "" := by
  cases placeBeginLexeme_cases placed with
  | skipped skipped => simp [skip] at skipped
  | excluded _ _ flushes => exact flush_buffer flushes
  | returned _ kept => simp [exclude] at kept
  | kept _ kept => simp [exclude] at kept

/-- While a mode is on whose begin matches are put away before it, some of the text has been. -/
theorem Round.excluded {state : ScanState} {progress : Progress} {place : Nat}
    (once : context.grammar.TakesOnce) (excludes : context.grammar.Excludes place)
    (trails : context.TrailsTo (place ∈ state.stack.nested.map Frame.mode) state state.position)
    (round : context.Round state progress) :
    context.TrailsTo (place ∈ progress.state.stack.nested.map Frame.mode) progress.state
      progress.state.position := by
  have kept := round.trails once trails
  cases round with
  | exhausted => exact kept
  | @char found lexeme arrived arrival =>
      refine kept.mono fun on => ?_
      obtain ⟨_, _, _, rfl⟩ := arrival.reaches
      unfold takeChar at on
      split at on
      · exact on
      · exact on
  | ignored arrival =>
      refine kept.mono fun on => ?_
      obtain ⟨_, _, _, rfl⟩ := arrival.reaches
      exact on
  | refused arrival asks =>
      refine kept.mono fun on => ?_
      obtain ⟨_, _, _, rfl⟩ := arrival.reaches
      exact modes_of_endingModes asks ▸ on
  | @begins found lexeme arrived placed started child data arrival rule places starts =>
      by_cases same : child = place
      · subst same
        have buffer := startMode_buffer starts
          (placeBeginLexeme_excluded places excludes.skip excludes.exclude)
        obtain ⟨matcher, compiled, sighted⟩ := arrival.sights
        have takes := excludes.takes _ _ _ _ _ compiled sighted rule
        have returned : (context.grammar.mode child).flags.returnBegin = false :=
          Bool.eq_false_iff.mpr fun returned => by
            have single := Grammar.mode_induction once.returnBegin (by simp) child returned
            simp [excludes.exclude] at single
        refine ⟨found.stop, ?_, fun _ => by omega⟩
        simp only [Progress.state, returned, Bool.false_eq_true, if_false, buffer]
        exact Text.part_self (Text.part_eq_ok_iff.mp arrival.lexeme).1.2
      · refine kept.mono fun on => ?_
        have stack := (startMode_course starts).1
        rw [(placeBeginLexeme_course places).1] at stack
        obtain ⟨_, _, _, rfl⟩ := arrival.reaches
        simp only [Progress.state, stack, ModeStack.push, List.map_cons, List.mem_cons] at on
        exact on.resolve_left fun equal => same equal.symm
  | @ends found lexeme arrived placed count frames arrival asks places =>
      refine kept.mono fun on => ?_
      have modes := modes_of_endingModes asks
      obtain ⟨_, _, _, rfl⟩ := arrival.reaches
      simp only [Progress.state, leaveModes_stack, (placeEndLexeme_course places).1] at on
      rw [List.map_drop, modes] at on
      exact List.mem_of_mem_drop on
  | @continues found lexeme arrived placed started count next frames outer arrival asks places
      outermost follows starts =>
      refine kept.mono fun on => ?_
      have modes := modes_of_endingModes asks
      have stack := (startMode_course starts).1
      obtain ⟨_, _, _, rfl⟩ := arrival.reaches
      simp only [Progress.state, stack, ModeStack.push, leaveModes_stack,
        (placeEndLexeme_course places).1, List.map_cons, List.mem_cons] at on
      rcases on with rfl | below
      · exact absurd follows (excludes.unstarted outer.mode)
      · rw [List.map_drop, modes] at below
        exact List.mem_of_mem_drop below

theorem setsApart_of_excludes {grammar : Grammar} {place : Nat}
    (once : grammar.TakesOnce) (nested : place ≠ Mode.root) (excludes : grammar.Excludes place) :
    grammar.SetsApart place := by
  rintro context state rfl reached top
  have trails : context.TrailsTo (place ∈ state.stack.nested.map Frame.mode) state
      state.position := by
    clear top
    induction reached with
    | first =>
        exact ⟨0, Text.part_self (Nat.zero_le _),
          by simp [start, Dictionary.empty, EmptyCollection.emptyCollection]⟩
    | next _ stepped ih => exact (round_of_step context stepped).excluded once excludes ih
  have on : place ∈ state.stack.nested.map Frame.mode := by
    unfold ModeStack.top at top
    split at top
    · rename_i frame outer shape
      simp [shape, top]
    · exact absurd top.symm nested
  obtain ⟨start, part, ahead⟩ := trails
  have positive := ahead (.inr on)
  have length := Text.length_of_part part
  omega

theorem RoundStart.trails {stack : Option ModeStack} {state : ScanState}
    (reached : context.RoundStart stack state)
    (trails : context.TrailsTo False state state.position) :
    context.TrailsTo (stack = none ∧ context.grammar.SetsApart state.stack.top) state
      state.position := by
  obtain ⟨start, part, ahead⟩ := trails
  refine ⟨start, part, fun cause => ?_⟩
  rcases cause with some_ | ⟨rfl, apart⟩
  · exact ahead (.inl some_)
  · have shorter := apart context state rfl reached rfl
    have length := Text.length_of_part part
    omega

end

end ScanContext

end Highlight
