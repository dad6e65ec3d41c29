import Highlight.Proofs.Grammar.Places
import Highlight.Proofs.Grammar.Recording

set_option autoImplicit false

/-! How the modes of a compiled grammar are arranged. A mode is compiled for the one around it before that
refers to it, so only at the end does each mode stand on the one for which it was compiled: that contains
it, or a mode that it continues. Until then what was compiled within a mode is kept in the lists that it
is about to refer to. -/

namespace Highlight

open Outcome

namespace Compilation

namespace Arena

/-- A mode is reached from another one by going on with the modes that are started. -/
def Continues (arena : Arena) : Nat → Nat → Prop :=
  Relation.ReflTransGen fun place next => (arena.mode place).starts = some next

/-- A mode is contained in another one, or continues a mode that is. -/
def StandsOn (arena : Arena) (below above : Nat) : Prop :=
  ∃ child ∈ (arena.mode below).contains, arena.Continues child above

structure Blank (arena : Arena) (place : Nat) : Prop where
  contains : (arena.mode place).contains = []
  starts : (arena.mode place).starts = none

structure Keeps (before after : Arena) : Prop where
  contains : ∀ place, ∀ child ∈ (before.mode place).contains, child ∈ (after.mode place).contains
  starts : ∀ place next, (before.mode place).starts = some next → (after.mode place).starts = some next

variable {before middle after : Arena} {place : Nat}

theorem Keeps.trans (early : Keeps before middle) (late : Keeps middle after) : Keeps before after where
  contains other child within := late.contains other child (early.contains other child within)
  starts other next follows := late.starts other next (early.starts other next follows)

theorem Keeps.continues (keeps : Keeps before after) {child inner : Nat}
    (continues : before.Continues child inner) : after.Continues child inner :=
  Relation.ReflTransGen.mono (fun other next follows => keeps.starts other next follows) _ _ continues

theorem Keeps.standsOn (keeps : Keeps before after) {below above : Nat}
    (stands : before.StandsOn below above) : after.StandsOn below above := by
  obtain ⟨child, within, continues⟩ := stands
  exact ⟨child, keeps.contains below child within, keeps.continues continues⟩

theorem Keeps.of_modes (same : ∀ other, before.Blank other ∨ after.mode other = before.mode other) :
    Keeps before after where
  contains other child within := by
    rcases same other with blank | unchanged
    · rw [blank.contains] at within
      cases within
    · rw [unchanged]
      exact within
  starts other next follows := by
    rcases same other with blank | unchanged
    · rw [blank.starts] at follows
      cases follows
    · rw [unchanged]
      exact follows

theorem blank_missing (missing : before.modes.size ≤ place) : before.Blank place := by
  constructor
  · rw [mode_missing missing]
  · rw [mode_missing missing]

theorem Extends.keeps (extends_ : Extends place before after) : Keeps before after := by
  apply Keeps.of_modes
  intro other
  by_cases taken : other < before.modes.size
  · exact .inr (extends_.modes other taken)
  · exact .inl (blank_missing (Nat.le_of_not_lt taken))

theorem Fills.keeps (fills : Fills place before after) (blank : before.Blank place) :
    Keeps before after := by
  apply Keeps.of_modes
  intro other
  by_cases same : other = place
  · exact .inl (same ▸ blank)
  by_cases taken : other < before.modes.size
  · exact .inr (fills.modes other taken same)
  · exact .inl (blank_missing (Nat.le_of_not_lt taken))

theorem keeps_link (blank : before.Blank place) (contains : List Nat) (starts : Option Nat) :
    Keeps before (before.link place contains starts) := by
  apply Keeps.of_modes
  intro other
  by_cases same : other = place
  · exact .inl (same ▸ blank)
  · exact .inr (mode_link_other same contains starts)

/-- The modes from a place on stand on those for which they were compiled, but for some that were
compiled for the mode around: these are among the modes that have been found for it, or continue them. -/
def Settled (arena : Arena) (least : Nat) (around : Option Nat) (found : List Nat) : Prop :=
  ∀ place, least ≤ place → ∀ parent, (arena.mode place).parent = some parent →
    arena.StandsOn parent place ∨ around = some parent ∧ ∃ child ∈ found, arena.Continues child place

variable {least : Nat} {around : Option Nat} {found more : List Nat}

/-- Modes that have settled stay so while others are added that settle for the same mode around. -/
theorem Settled.append (early : before.Settled least around found) (keeps : Keeps before after)
    (same : ∀ place, least ≤ place → place < before.modes.size →
      (after.mode place).parent = (before.mode place).parent)
    (late : after.Settled before.modes.size around more) :
    after.Settled least around (found ++ more) := by
  intro place first parent made
  by_cases taken : place < before.modes.size
  · rw [same place first taken] at made
    rcases early place first parent made with stands | ⟨own, child, member, continues⟩
    · exact .inl (keeps.standsOn stands)
    · exact .inr ⟨own, child, List.mem_append_left _ member, keeps.continues continues⟩
  · rcases late place (Nat.le_of_not_lt taken) parent made with stands | ⟨own, child, member, continues⟩
    · exact .inl stands
    · exact .inr ⟨own, child, List.mem_append_right _ member, continues⟩

theorem Settled.extend (early : before.Settled least around found) {own : Nat}
    (extends_ : Extends own before after) (late : after.Settled before.modes.size around more) :
    after.Settled least around (found ++ more) := by
  refine early.append extends_.keeps ?_ late
  intro place _ taken
  rw [extends_.modes place taken]

theorem Settled.mono (settled : before.Settled least around found) (among : found ⊆ more) :
    before.Settled least around more := by
  intro place first parent made
  rcases settled place first parent made with stands | ⟨own, child, member, continues⟩
  · exact .inl stands
  · exact .inr ⟨own, child, among member, continues⟩

theorem settled_size (arena : Arena) (around : Option Nat) (found : List Nat) :
    arena.Settled arena.modes.size around found := by
  intro place first parent made
  rw [mode_missing first] at made
  cases made

end Arena

section

variable {context : Context} {into : Into} {pending : List Pending} {before after : Arena}

/-- A mode is one that its definition makes of it for the mode around it, but for the modes that it
refers to. -/
def MadeFor (context : Context) (parent : Option Nat) (mode : Mode) : Prop :=
  ∃ definition terminator own contains starts,
    ownPart context definition parent terminator = .ok own ∧ mode = { own with contains, starts }

/-- A mode that was made for none has no begin and no end, and any other one has both, unless it ends
with the one around it. -/
theorem ownPart_edges {definition : ModeDefinition} {parent : Option Nat} {terminator : String}
    {own : Mode} (made : ownPart context definition parent terminator = .ok own) :
    own.parent = parent ∧
      (parent = none → own.begins = none ∧ own.ends = none ∧ own.terminator = "") ∧
      (parent ≠ none → own.begins.isSome ∧ (own.ends.isSome ∨ own.flags.endsWithParent = true)) := by
  have made := ownPart_eq_ok made
  refine ⟨made.parent, ?_, ?_⟩
  · rintro rfl
    rcases optionMapM_eq_ok made.begins with ⟨_, begins⟩ | ⟨_, _, impossible, _⟩
    · rcases optionMapM_eq_ok made.ends with ⟨_, ends⟩ | ⟨_, _, impossible, _⟩
      · exact ⟨begins, ends, made.terminator⟩
      · cases impossible
    · cases impossible
  · intro around
    rcases optionMapM_eq_ok made.begins with ⟨alone, _⟩ | ⟨place, _, rfl, begins, _⟩
    · exact absurd alone around
    rcases optionMapM_eq_ok made.ends with ⟨none_, _⟩ | ⟨_, _, _, ends, _⟩
    · -- without a source for its end it ends with the mode around it
      rw [Option.bind_some] at none_
      unfold endSource? at none_
      split at none_
      · cases none_
      · split at none_
        · rw [begins, made.flags]
          exact ⟨rfl, .inr (by assumption)⟩
        · cases none_
    · rw [begins, ends]
      exact ⟨rfl, .inl rfl⟩

def IntoSettles (context : Context) (into : Into) : Prop :=
  ∀ pending place definition parent before done after, place < before.modes.size →
    before.Blank place → (into pending place definition parent).run before = .ok (done, after) →
      MadeFor context parent (after.mode place) ∧
        after.Settled before.modes.size parent [place]

theorem MadeFor.parent {parent : Option Nat} {mode : Mode} (made : MadeFor context parent mode) :
    mode.parent = parent := by
  obtain ⟨_, _, _, _, _, made, rfl⟩ := made
  exact (ownPart_edges made).1

theorem compileNew_settles (intoSettles : IntoSettles context into) {definition : ModeDefinition}
    {parent : Option Nat} {place : Nat}
    (ran : (compileNew context into pending definition parent).run before = .ok (place, after)) :
    after.Settled before.modes.size parent [place] := by
  obtain ⟨rfl, filling⟩ := compileNew_eq_ok ran
  have blank : (before.grown 1).Blank before.modes.size := by
    constructor <;> rw [Arena.mode_grown, Arena.mode_missing (Nat.le_refl _)]
  obtain ⟨made, settled⟩ := intoSettles _ _ _ _ _ _ _ (by simp) blank filling
  intro place first parent' its
  rcases Nat.lt_or_eq_of_le first with later | rfl
  · exact settled place (by rwa [Arena.size_grown]) parent' its
  · exact .inr ⟨made.parent.symm.trans its, _, List.mem_singleton_self _, .refl⟩

theorem compileShared_settles (intoFills : IntoFills into) (intoSettles : IntoSettles context into)
    {parent : Nat} {name : String} {places : List Nat}
    (ran : (compileShared context into pending parent name).run before = .ok (places, after)) :
    after.Settled before.modes.size (some parent) places := by
  obtain ⟨definition, _, ⟨_, rfl⟩ | ⟨rfl, expands⟩⟩ := compileShared_eq_ok ran
  · exact Arena.settled_size after _ _
  let count := definition.expanded.length
  let places := List.range' before.modes.size count
  have kept : after.Settled (before.modes.size + count) (some parent) places ∧
      ∀ item ∈ sharedItems definition before, (after.mode item.1).parent = some parent := by
    refine (@Expands.induction _ _ _ _ _ _ _ _ intoFills expands (fun done arena =>
      arena.Settled (before.modes.size + count) (some parent) places ∧
        ∀ item ∈ done, (arena.mode item.1).parent = some parent) ⟨?_, by simp⟩ ?_).1
    · have size : (before.referring (referenceTo definition name parent) count).modes.size =
          before.modes.size + count := Arena.size_grown
      rw [← size]
      exact Arena.settled_size _ _ _
    · rintro done item middle next member ⟨settled, made⟩ _ taken empty ran
      have fills := intoFills _ _ _ _ _ _ _ ran
      have blank : middle.Blank item.1 := by
        constructor <;> rw [empty]
      obtain ⟨itemMade, itemSettled⟩ := intoSettles _ _ _ _ _ _ _ taken blank ran
      obtain ⟨first, last⟩ := sharedItems_range member
      constructor
      · refine (settled.append (fills.keeps blank) ?_ itemSettled).mono ?_
        · intro place behind placeTaken
          rw [fills.modes place placeTaken]
          rintro rfl
          exact Nat.lt_irrefl _ (Nat.lt_of_lt_of_le last behind)
        · refine List.append_subset.mpr ⟨List.Subset.refl _, ?_⟩
          exact List.cons_subset.mpr ⟨List.mem_range'_1.mpr ⟨first, last⟩, List.nil_subset _⟩
      · intro other among
        by_cases same : other.1 = item.1
        · rw [same]
          exact itemMade.parent
        · have earlier : other ∈ done := by
            refine (List.mem_append.mp among).resolve_right fun new => same ?_
            rw [List.mem_singleton.mp new]
          rw [fills.modes other.1 (Arena.taken_of_parent (made other earlier)) same]
          exact made other earlier
  -- the places that were taken at once are for the mode around
  intro place first parent' its
  by_cases shared : place < before.modes.size + count
  · have listed : place ∈ (sharedItems definition before).map Prod.fst := by
      rw [sharedItems_places]
      exact List.mem_range'_1.mpr ⟨first, shared⟩
    obtain ⟨item, member, rfl⟩ := List.mem_map.mp listed
    exact .inr ⟨(kept.2 item member).symm.trans its, _, List.mem_range'_1.mpr ⟨first, shared⟩, .refl⟩
  · exact kept.1 place (Nat.le_of_not_lt shared) parent' its

theorem compileEntry_settles (intoFills : IntoFills into) (intoSettles : IntoSettles context into)
    {place : Nat} {entry : ContainsEntry ModeDefinition} {places : List Nat}
    (ran : (compileEntry context into pending place entry).run before = .ok (places, after)) :
    after.Settled before.modes.size (some place) places := by
  cases entry with
  | itself =>
      obtain ⟨_, rfl⟩ := run_pure_eq_ok.mp ran
      exact Arena.settled_size _ _ _
  | shared name => exact compileShared_settles intoFills intoSettles ran
  | inline definition =>
      refine (@mapM_induction _ _ _ _ _ (fun _ found arena =>
        arena.Settled before.modes.size (some place) found ∧ Arena.Extends place before arena) _ _ ran
        ⟨Arena.settled_size _ _ _, Arena.Extends.refl _ _⟩ ?_).1
      rintro _ _ _ found middle new last - ⟨settled, early⟩ stepped
      have late := compileNew_extends intoFills stepped place
      exact ⟨settled.extend late (compileNew_settles intoSettles stepped), early.trans late⟩

theorem compileWith_settles (intoFills : IntoFills into) (intoSettles : IntoSettles context into) :
    IntoSettles context (compileWith context into) := by
  intro pending place definition parent before done after taken blank ran
  obtain ⟨normal, _, own, contains, filled, starts, started, steps⟩ := compileWith_eq_ok ran
  have made := ownPart_eq_ok steps.made
  obtain ⟨filledExtends, startedExtends⟩ := steps.extends_ intoFills
  have placedTaken : place < (before.put place own).modes.size := by rwa [Arena.size_put]
  have filledTaken := Nat.lt_of_lt_of_le placedTaken filledExtends.size
  have startedTaken := Nat.lt_of_lt_of_le filledTaken startedExtends.size
  have self : started.mode place = own := by
    rw [startedExtends.modes place filledTaken, filledExtends.modes place placedTaken,
      Arena.mode_put_self taken]
  have filledSettled : filled.Settled before.modes.size (some place) contains.flatten := by
    have kept := @mapM_induction _ _ _ _ _ (fun _ found arena =>
      arena.Settled (before.put place own).modes.size (some place) found.flatten ∧
        Arena.Extends place (before.put place own) arena) _ _ steps.filling
      ⟨Arena.settled_size _ _ _, Arena.Extends.refl _ _⟩ ?_
    · rw [← Arena.size_put before place own]
      exact kept.1
    · rintro _ _ _ found middle places last - ⟨settled, early⟩ stepped
      have late := compileEntry_extends intoFills stepped
      rw [List.flatten_append, List.flatten_singleton]
      exact ⟨settled.extend late (compileEntry_settles intoFills intoSettles stepped),
        early.trans late⟩
  have startedSettled : started.Settled filled.modes.size parent starts.toList := by
    rcases steps.starting with ⟨_, rfl, rfl⟩ | ⟨next, nextPlace, _, rfl, starting⟩
    · exact Arena.settled_size _ _ _
    · exact compileNew_settles intoSettles starting
  have linkKeeps : Arena.Keeps started (started.link place contains.flatten starts) :=
    Arena.keeps_link ⟨by rw [self, made.contains], by rw [self, made.starts]⟩ _ _
  have linked := Arena.mode_link_self startedTaken contains.flatten starts
  rw [self] at linked
  obtain rfl := steps.linked
  refine ⟨⟨_, _, own, _, _, steps.made, linked⟩, ?_⟩
  intro other first parent' its
  have made : (started.mode other).parent = some parent' := by
    rwa [Arena.parent_link] at its
  by_cases earlier : other < filled.modes.size
  · rw [startedExtends.modes other earlier] at made
    rcases filledSettled other first parent' made with stands | ⟨same, child, member, continues⟩
    · exact .inl (linkKeeps.standsOn (startedExtends.keeps.standsOn stands))
    · obtain rfl := Option.some.inj same
      refine .inl ⟨child, ?_, linkKeeps.continues (startedExtends.keeps.continues continues)⟩
      rw [linked]
      exact member
  · rcases startedSettled other (Nat.le_of_not_lt earlier) parent' made with
      stands | ⟨same, child, member, continues⟩
    · exact .inl (linkKeeps.standsOn stands)
    · refine .inr ⟨same, place, List.mem_singleton_self _, ?_⟩
      refine Relation.ReflTransGen.head ?_ (linkKeeps.continues continues)
      rw [linked]
      simpa using member

theorem compileInto_settles (depth : Nat) : IntoSettles context (compileInto context depth) := by
  induction depth with
  | zero =>
      intro _ _ _ _ _ _ _ _ _ ran
      cases ran
  | succ depth ih => exact compileWith_settles (compileInto_fills depth) ih

theorem compileModes_settled {root : ModeDefinition} {modes : Array Mode}
    (compiled : compileModes context root = .ok modes) :
    ∃ arena : Arena, arena.modes = modes ∧ MadeFor context none (arena.mode 0) ∧
      ∀ place parent, (arena.mode place).parent = some parent → arena.StandsOn parent place := by
  obtain ⟨arena, filling, rfl⟩ := compileModes_eq_ok compiled
  have blank : (Arena.grown {} 1).Blank 0 := by
    constructor <;> rfl
  obtain ⟨made, settled⟩ := compileInto_settles context.places _ _ _ _ _ _ _ (by simp) blank filling
  refine ⟨arena, rfl, made, fun place parent its => ?_⟩
  rcases place with _ | place
  · rw [made.parent] at its
    cases its
  · refine (settled (place + 1) (by simp) parent its).resolve_right fun ⟨same, _⟩ => ?_
    cases same

end

end Compilation

namespace Grammar

variable {engine : Pattern.Engine} {name : String} {definition : GrammarDefinition}
  {grammar : Grammar}

/-- How the modes of a grammar are arranged: the root first, each of the others on the mode for which it
was compiled, and nothing but what has been put there once at any place. -/
structure WellFormed (engine : Pattern.Engine) (grammar : Grammar) : Prop where
  size : 0 < grammar.modes.size ∧ grammar.modes.size ≤ 65536
  root : (grammar.mode Mode.root).parent = none ∧ (grammar.mode Mode.root).begins = none ∧
    (grammar.mode Mode.root).ends = none ∧ (grammar.mode Mode.root).terminator = ""
  contains : ∀ place, ∀ child ∈ (grammar.mode place).contains,
    child ≠ Mode.root ∧ child < grammar.modes.size
  starts : ∀ place next, (grammar.mode place).starts = some next →
    next ≠ Mode.root ∧ next < grammar.modes.size
  parents : ∀ place parent, (grammar.mode place).parent = some parent →
    parent < grammar.modes.size ∧ (grammar.mode place).begins.isSome ∧
      ((grammar.mode place).ends.isSome ∨ (grammar.mode place).flags.endsWithParent = true) ∧
      grammar.StandsOn parent place
  filled : ∃ record,
    Compilation.Recording.compileModes (compilation engine grammar.definition)
      grammar.definition.root = .ok (grammar.modes, record) ∧
    (record.map Prod.fst).Perm (List.range grammar.modes.size) ∧
    ∀ entry ∈ record, { grammar.mode entry.1 with contains := [], starts := none } = entry.2

theorem edges_of_compile (compiled : compile engine name definition = .ok grammar)
    (plain : definition.extensions = []) {place : Nat} (made : (grammar.mode place).parent ≠ none) :
    (grammar.mode place).begins.isSome ∧
      ((grammar.mode place).ends.isSome ∨ (grammar.mode place).flags.endsWithParent = true) := by
  have suits : Compilation.Suits (compilation engine definition) fun mode => mode.parent ≠ none →
      mode.begins.isSome ∧ (mode.ends.isSome ∨ mode.flags.endsWithParent = true) := by
    constructor
    · exact fun made => absurd rfl made
    · intro definition parent terminator own made around
      obtain ⟨same, _, edges⟩ := Compilation.ownPart_edges made
      exact edges (same ▸ around)
    · exact fun _ _ _ suit => suit
  have all := (closed_of_sound compiled suits (Nat.le_refl 1) fun _ => plain).2
  exact mode_induction all (fun made => absurd rfl made) place made

/-- The root is made for no mode, so nothing begins or ends it. -/
theorem root_of_compile (compiled : compile engine name definition = .ok grammar) :
    (grammar.mode Mode.root).parent = none ∧ (grammar.mode Mode.root).begins = none ∧
      (grammar.mode Mode.root).ends = none ∧ (grammar.mode Mode.root).terminator = "" := by
  obtain ⟨_, made, _, _⟩ := compile_eq_ok compiled
  obtain ⟨arena, same, root, _⟩ := Compilation.compileModes_settled made
  have rooted : arena.mode 0 = grammar.mode Mode.root := by
    unfold Compilation.Arena.mode mode
    rw [same]
    rfl
  rw [rooted] at root
  obtain ⟨_, _, own, _, _, part, shape⟩ := root
  obtain ⟨parent, edges, _⟩ := Compilation.ownPart_edges part
  obtain ⟨begins, ends, terminator⟩ := edges rfl
  rw [shape]
  exact ⟨parent, begins, ends, terminator⟩

/-- What is compiled from a definition without extensions is well-formed. -/
theorem wellFormed_of_compile (compiled : compile engine name definition = .ok grammar)
    (plain : definition.extensions = []) : grammar.WellFormed engine := by
  have closed := closed_of_compile compiled plain
  obtain ⟨_, made, _, given⟩ := compile_eq_ok compiled
  obtain ⟨arena, same, _, standing⟩ := Compilation.compileModes_settled made
  obtain ⟨record, last, recorded, accounts, sameLast⟩ :=
    Compilation.Recording.compileModes_accounts made
  have modes : ∀ place, arena.mode place = grammar.mode place := by
    intro place
    unfold Compilation.Arena.mode mode
    rw [same]
  have lastModes : ∀ place, last.mode place = grammar.mode place := by
    intro place
    unfold Compilation.Arena.mode mode
    rw [sameLast]
  constructor
  case size =>
    have most := accounts.size
    rw [sameLast] at most
    exact ⟨closed.root, most⟩
  case root => exact root_of_compile compiled
  case contains =>
    intro place child within
    obtain ⟨behind, taken⟩ := closed.contains place child within
    exact ⟨Nat.ne_of_gt behind, taken⟩
  case starts =>
    intro place next follows
    obtain ⟨behind, taken⟩ := closed.starts place next follows
    exact ⟨Nat.ne_of_gt behind, taken⟩
  case parents =>
    intro place parent its
    have above : (grammar.mode place).parent ≠ none := by simp [its]
    obtain ⟨begins, ends⟩ := edges_of_compile compiled plain above
    have stands : grammar.StandsOn parent place := by
      obtain ⟨child, within, continues⟩ := standing place parent ((modes place).symm ▸ its)
      refine ⟨child, modes parent ▸ within, ?_⟩
      exact Relation.ReflTransGen.mono (fun other next follows => modes other ▸ follows) _ _ continues
    have around : parent < grammar.modes.size := by
      obtain ⟨child, within, _⟩ := stands
      refine Nat.lt_of_not_le fun missing => ?_
      unfold mode at within
      rw [Array.getElem?_eq_none missing] at within
      cases within
    exact ⟨around, begins, ends, stands⟩
  case filled =>
    have places := accounts.places
    rw [List.append_nil, sameLast] at places
    refine ⟨record, by rw [given]; exact recorded, places, ?_⟩
    intro entry member
    rw [← lastModes]
    exact accounts.kept entry member

/-- A grammar of lists, which hold lists or numbers, and go on behind a comma. -/
def listed : GrammarDefinition where
  root := { contains := [.shared "list"] }
  repository := ⟨[("list", {
    begins := some (.one "\\[")
    ends := some (.one "\\]")
    contains := [.itself, .inline { matching := some (.one "[0-9]") }]
    starts := some { begins := some (.one ","), flags := { endsWithParent := true } } })],
    List.pairwise_singleton _ _⟩

theorem wellFormed_of_compile_listed : ∃ grammar,
    compile Pattern.engine "listed" listed = .ok grammar ∧ listed.extensions = [] ∧
      grammar.modes.size = 4 ∧ grammar.WellFormed Pattern.engine := by
  have size : (compile Pattern.engine "listed" listed).toOption.map (·.modes.size) = some 4 := by
    decide +kernel
  obtain ⟨grammar, compiled, size⟩ := Option.map_eq_some_iff.mp size
  have compiled := eq_ok_of_toOption compiled
  exact ⟨grammar, compiled, rfl, size, wellFormed_of_compile compiled rfl⟩

end Grammar

end Highlight
