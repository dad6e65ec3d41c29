import Highlight.Proofs.Grammar.Terminators

set_option autoImplicit false

/-! What a mode inherits from the one for which it was compiled. The source of all patterns that end a
mode is put together when its own part is put in place. That of the mode around it is final by then,
whatever is shared and whatever extensions have done: only a place that is still waiting is filled in, and
no mode is compiled for the one in such a place. -/

namespace Highlight

open Outcome

namespace Compilation

namespace Arena

variable {arena before middle after : Arena} {used : List Nat}

/-- An arena that has grown out of another one, in which some places have been used and the others that
were waiting still wait. -/
structure Uses (used : List Nat) (before after : Arena) : Prop where
  ended : after.Ended
  awaits : ∀ place, place ∉ used → before.Awaits place → after.Awaits place

theorem Uses.refl (used : List Nat) (ended : arena.Ended) : Uses used arena arena :=
  ⟨ended, fun _ _ awaits => awaits⟩

theorem Uses.trans (early : Uses used before middle) (late : Uses used middle after) :
    Uses used before after :=
  ⟨late.ended, fun place unused awaits => late.awaits place unused (early.awaits place unused awaits)⟩

end Arena

/-! ### The steps of the compilation -/

def IntoUses (into : Into) : Prop :=
  ∀ pending place definition parent before done after, before.Ended → before.Awaits place →
    (∀ around, parent = some around → around < before.modes.size ∧ around ≠ place) →
    (into pending place definition parent).run before = .ok (done, after) →
    Arena.Uses (place :: parent.toList) before after ∧ (after.mode place).parent = parent

section

variable {context : Context} {into : Into} {pending : List Pending} {before after : Arena}

theorem compileNew_uses (intoUses : IntoUses into) {definition : ModeDefinition}
    {parent : Option Nat} {place : Nat} (ended : before.Ended)
    (around : ∀ around, parent = some around → around < before.modes.size)
    (ran : (compileNew context into pending definition parent).run before = .ok (place, after)) :
    Arena.Uses parent.toList before after := by
  obtain ⟨rfl, filling⟩ := compileNew_eq_ok ran
  obtain ⟨uses, _⟩ := intoUses _ _ _ _ _ _ _ (ended.grown 1)
    (ended.awaits_grown (Nat.le_refl _) (Nat.lt_succ_self _))
    (fun above same => by
      have taken := around above same
      exact ⟨by rw [Arena.size_grown]; omega, by omega⟩) filling
  refine ⟨uses.ended, fun place unused awaits => uses.awaits place ?_ (awaits.grown 1)⟩
  intro among
  rcases List.mem_cons.mp among with rfl | above
  · exact Nat.lt_irrefl _ awaits.taken
  · exact unused above

/-- The places of a shared mode wait until a definition has been compiled into them for the mode
around. -/
theorem compileShared_uses (intoFills : IntoFills into) (intoUses : IntoUses into) {parent : Nat}
    {name : String} {places : List Nat} (ended : before.Ended) (taken : parent < before.modes.size)
    (ran : (compileShared context into pending parent name).run before = .ok (places, after)) :
    Arena.Uses [parent] before after := by
  obtain ⟨definition, _, ⟨_, rfl⟩ | ⟨_, expands⟩⟩ := compileShared_eq_ok ran
  · exact Arena.Uses.refl _ ended
  let count := definition.expanded.length
  refine (@Expands.induction _ _ _ _ _ _ _ _ intoFills expands (fun _ arena =>
    Arena.Uses [parent] before arena ∧ ∀ item ∈ sharedItems definition before,
      (arena.mode item.1).parent = some parent ∨ arena.Awaits item.1) ⟨⟨?_, ?_⟩, ?_⟩ ?_).1.1
  · exact ⟨(ended.grown count).terminator, (ended.grown count).parents⟩
  · intro place _ awaits
    exact ⟨(awaits.grown count).taken, (awaits.grown count).unused⟩
  · intro item member
    obtain ⟨first, last⟩ := sharedItems_range member
    have awaits := @Arena.Ended.awaits_grown before item.1 ended count first last
    exact .inr ⟨awaits.taken, awaits.unused⟩
  · rintro _ item middle next member ⟨early, shared⟩ extends_ placeTaken empty stepped
    obtain ⟨first, _⟩ := sharedItems_range member
    have awaits := (shared item member).resolve_left fun made => by
      rw [empty] at made
      cases made
    obtain ⟨late, made⟩ := intoUses _ _ _ _ _ _ _ early.ended awaits
      (fun around same => by
        obtain rfl := Option.some.inj same
        exact ⟨Nat.lt_of_lt_of_le taken extends_.size, by omega⟩) stepped
    have fills := intoFills _ _ _ _ _ _ _ stepped
    refine ⟨⟨late.ended, fun place unused waits => ?_⟩, fun other among => ?_⟩
    · have old := waits.taken
      refine late.awaits place ?_ (early.awaits place unused waits)
      rw [List.mem_cons, not_or]
      exact ⟨by omega, unused⟩
    · by_cases equal : other.1 = item.1
      · rw [equal]
        exact .inl made
      obtain ⟨behind, _⟩ := sharedItems_range among
      rcases shared other among with compiled | waits
      · rw [fills.modes other.1 (Arena.taken_of_parent compiled) equal]
        exact .inl compiled
      · refine .inr (late.awaits other.1 ?_ waits)
        simp only [Option.toList_some, List.mem_cons, List.not_mem_nil, or_false, not_or]
        exact ⟨equal, by omega⟩

theorem compileEntry_uses (intoFills : IntoFills into) (intoUses : IntoUses into) {place : Nat}
    {entry : ContainsEntry ModeDefinition} {places : List Nat} (ended : before.Ended)
    (taken : place < before.modes.size)
    (ran : (compileEntry context into pending place entry).run before = .ok (places, after)) :
    Arena.Uses [place] before after := by
  cases entry with
  | itself =>
      obtain ⟨_, rfl⟩ := run_pure_eq_ok.mp ran
      exact Arena.Uses.refl _ ended
  | shared name => exact compileShared_uses intoFills intoUses ended taken ran
  | inline definition =>
      refine (@mapM_induction _ _ _ _ _ (fun _ _ arena =>
        Arena.Uses [place] before arena ∧ place < arena.modes.size) _ _ ran
        ⟨Arena.Uses.refl _ ended, taken⟩ ?_).1
      rintro _ _ _ _ middle _ last - ⟨early, stillTaken⟩ stepped
      have late := compileNew_uses intoUses early.ended
        (fun around same => Option.some.inj same ▸ stillTaken) stepped
      have grows := (compileNew_extends intoFills stepped place).size
      exact ⟨early.trans late, Nat.lt_of_lt_of_le stillTaken grows⟩

theorem compileWith_uses (sources : context.engine.KeepsSources) (intoFills : IntoFills into)
    (intoUses : IntoUses into) : IntoUses (compileWith context into) := by
  intro pending place definition parent before done after ended awaits around ran
  obtain ⟨normal, _, own, contains, filled, starts, started, steps⟩ := compileWith_eq_ok ran
  obtain ⟨ownParent, _, ownEnds⟩ := ownPart_ends sources steps.made fun outermost => by
    rw [outermost]
    rfl
  obtain ⟨filledExtends, startedExtends⟩ := steps.extends_ intoFills
  -- the own part
  have placedTaken : place < (before.put place own).modes.size := by
    rw [Arena.size_put]
    exact awaits.taken
  have placed : Arena.Uses (place :: parent.toList) before (before.put place own) := by
    refine ⟨ended.put awaits (fun above same => around above (ownParent.symm.trans same))
      (ownParent ▸ ownEnds), fun other unused waits => waits.put awaits.taken ?_⟩
    rw [ownParent]
    rintro rfl
    exact unused (List.mem_cons_of_mem _ (List.mem_singleton_self _))
  -- the modes within it
  have filledUses : Arena.Uses [place] (before.put place own) filled := by
    refine (@mapM_induction _ _ _ _ _ (fun _ _ arena =>
      Arena.Uses [place] (before.put place own) arena ∧ place < arena.modes.size) _ _ steps.filling
      ⟨Arena.Uses.refl _ placed.ended, placedTaken⟩ ?_).1
    rintro _ _ _ _ middle _ last - ⟨early, stillTaken⟩ stepped
    have late := compileEntry_uses intoFills intoUses early.ended stillTaken stepped
    have grows := (compileEntry_extends intoFills stepped).size
    exact ⟨early.trans late, Nat.lt_of_lt_of_le stillTaken grows⟩
  have filledTaken := Nat.lt_of_lt_of_le placedTaken filledExtends.size
  -- the mode that it starts
  have startedUses : Arena.Uses parent.toList filled started := by
    rcases steps.starting with ⟨_, _, rfl⟩ | ⟨_, _, _, _, starting⟩
    · exact Arena.Uses.refl _ filledUses.ended
    · refine compileNew_uses intoUses filledUses.ended (fun above same => ?_) starting
      have taken := (around above same).1
      rw [← Arena.size_put before place own] at taken
      exact Nat.lt_of_lt_of_le taken filledExtends.size
  have startedTaken := Nat.lt_of_lt_of_le filledTaken startedExtends.size
  obtain rfl := steps.linked
  refine ⟨⟨startedUses.ended.link startedTaken _ _, fun other unused waits => ?_⟩, ?_⟩
  · have apart := unused
    rw [List.mem_cons, not_or] at apart
    have waitsPlaced := placed.awaits other unused waits
    have waitsFilled := filledUses.awaits other (by simpa using apart.1) waitsPlaced
    exact (startedUses.awaits other apart.2 waitsFilled).link _ _
  · rw [Arena.parent_link, startedExtends.modes place filledTaken,
      filledExtends.modes place placedTaken, Arena.mode_put_self awaits.taken, ownParent]

theorem compileInto_uses (sources : context.engine.KeepsSources) (depth : Nat) :
    IntoUses (compileInto context depth) := by
  induction depth with
  | zero =>
      intro _ _ _ _ _ _ _ _ _ _ ran
      cases ran
  | succ depth ih => exact compileWith_uses sources (compileInto_fills depth) ih

theorem compileModes_ended (sources : context.engine.KeepsSources) {root : ModeDefinition}
    {modes : Array Mode} (compiled : compileModes context root = .ok modes) :
    ∃ arena : Arena, arena.Ended ∧ arena.modes = modes := by
  obtain ⟨arena, filling, rfl⟩ := compileModes_eq_ok compiled
  have nothing : Arena.Ended {} := by
    constructor <;> simp [Arena.mode]
  obtain ⟨uses, _⟩ := compileInto_uses sources context.places [] 0 root none _ _ _
    (nothing.grown 1) (nothing.awaits_grown (Nat.le_refl _) (Nat.lt_succ_self _))
    (by simp) filling
  exact ⟨arena, uses.ended, rfl⟩

end

end Compilation

namespace Grammar

variable {name : String} {definition : GrammarDefinition} {grammar : Grammar}

/-- A mode that ends with the mode around it is ended by its own end or by what ends the mode for which
it was compiled, as it is when that has been compiled. -/
theorem terminator_of_compile {engine : Pattern.Engine} (sources : engine.KeepsSources)
    (compiled : compile engine name definition = .ok grammar) {place : Nat}
    (dependent : (grammar.mode place).flags.endsWithParent = true) :
    (grammar.mode place).terminator =
      Compilation.joinedEnds ((grammar.mode place).ends.map (·.source))
        (grammar.terminatorAround place) := by
  obtain ⟨_, made, _, _⟩ := compile_eq_ok compiled
  obtain ⟨arena, ended, same⟩ := Compilation.compileModes_ended sources made
  have modes : ∀ place, arena.mode place = grammar.mode place := by
    intro place
    unfold Compilation.Arena.mode mode
    rw [same]
  have own := ended.terminator place (by rwa [modes])
  simp only [modes, Compilation.Arena.terminatorOf_eq] at own
  exact own

theorem ends_of_compile {engine : Pattern.Engine} (sources : engine.KeepsSources)
    (compiled : compile engine name definition = .ok grammar) {place : Nat} {own : Pattern.Regex}
    (ends : (grammar.mode place).ends = some own) :
    engine (patternFlags definition) own.source = .ok own := by
  have suits : Compilation.Suits (compilation engine definition) fun mode =>
      ∀ own, mode.ends = some own → engine (patternFlags definition) own.source = .ok own := by
    constructor
    · intro own impossible
      cases impossible
    · intro definition parent around mode made own ends
      rcases optionMapM_eq_ok (Compilation.ownPart_eq_ok made).ends with
        ⟨_, none_⟩ | ⟨source, regex, _, same, accepted⟩
      · cases ends.symm.trans none_
      · obtain rfl := Option.some.inj (ends.symm.trans same)
        rw [Compilation.Context.regex_source _ sources accepted]
        exact mapError_eq_ok accepted
    · exact fun _ _ _ suit => suit
  have all := (closed_of_sound compiled suits (Nat.zero_le 1) fun positive =>
    absurd positive (Nat.lt_irrefl 0)).2
  exact mode_induction all (by simp) place own ends

theorem matcher_of_compile {engine : Pattern.Engine}
    (compiled : compile engine name definition = .ok grammar) {place : Nat}
    (taken : place < grammar.modes.size) :
    grammar.matcher place = Pattern.RuleSet.compile engine (patternFlags definition)
      ((grammar.mode place).rules grammar.modes) := by
  obtain ⟨_, _, matchers, _⟩ := compile_eq_ok compiled
  unfold matcher mode
  rw [matchers, Array.getElem?_map, Array.getElem?_eq_getElem taken]
  rfl

end Grammar

end Highlight
