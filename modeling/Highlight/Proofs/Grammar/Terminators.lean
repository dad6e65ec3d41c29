import Highlight.Proofs.Grammar.Places

set_option autoImplicit false

/-! What ends a mode that ends with the mode around it. The sources of its ends are fixed when it is
compiled, after those of the mode for which it is compiled, so they are right only where it is not
shared by several modes. A shared mode is compiled for each mode that contains it if its own definition
depends on that mode; whether a variant of it does is not looked at. The places of shared modes that are
compiled once are the free ones: as long as no variant depends on the mode around it while the shared
mode does not, a free mode does not end with the mode around it, nor do the modes that it starts. -/

namespace Highlight

open Outcome

/-- An engine whose patterns know what they were made from. -/
def Pattern.Engine.KeepsSources (engine : Pattern.Engine) : Prop :=
  ∀ flags source regex, engine flags source = .ok regex → regex.source = source

theorem Pattern.engine_keepsSources : Pattern.engine.KeepsSources := by
  intro flags source regex made
  obtain ⟨parsed, _, made⟩ := bind_eq_ok.mp made
  obtain ⟨plan, _, made⟩ := bind_eq_ok.mp made
  obtain rfl := pure_eq_ok.mp made
  rfl

namespace ModeDefinition

variable {mode after : ModeDefinition} {contained : Bool}

theorem dependsOnParent_eq_false : mode.dependsOnParent = false ↔
    mode.flags.endsWithParent = false ∧
      ∀ next, mode.starts = some next → next.dependsOnParent = false := by
  cases mode with
  | mk _ _ _ _ _ _ _ _ _ _ _ _ _ starts =>
      cases starts <;> simp [dependsOnParent]

/-- A mode that does not depend on the mode around it does not without shorthand either. -/
theorem independent_of_normalize (normalized : mode.normalize contained [] = .ok after)
    (independent : mode.dependsOnParent = false) : after.dependsOnParent = false := by
  rw [dependsOnParent_eq_false] at independent ⊢
  rcases normalize_cases normalized with ⟨same, _⟩ | behind
  · rw [same.flags, same.starts]
    exact independent
  · obtain ⟨inner, starts, _⟩ := behind.starts
    refine ⟨by rw [behind.flags], fun next follows => ?_⟩
    obtain rfl := Option.some.inj (starts.symm.trans follows)
    rfl

end ModeDefinition

namespace Compilation

/-- What a mode that ends with the mode around it is ended by: its own end, if it has one, or what ends
the mode around it. -/
def joinedEnds (own : Option String) (parent : String) : String :=
  "|".intercalate (own.toList ++ if parent.isEmpty then [] else [parent])

theorem terminator_eq_joinedEnds (own : Option String) (parent : String) :
    terminator own true parent = joinedEnds own parent := by
  unfold terminator joinedEnds
  cases empty : parent.isEmpty <;> cases own <;> simp [String.intercalate_cons_cons]

theorem Context.regex_source (context : Context) (sources : context.engine.KeepsSources)
    {source : String} {regex : Pattern.Regex} (compiled : context.regex source = .ok regex) :
    regex.source = source :=
  sources _ _ _ (mapError_eq_ok compiled)

theorem ownPart_ends {context : Context} {definition : ModeDefinition} {parent : Option Nat}
    {around : String} {own : Mode} (sources : context.engine.KeepsSources)
    (made : ownPart context definition parent around = .ok own)
    (outermost : parent = none → around = "") :
    own.parent = parent ∧ own.flags = definition.flags ∧
      (own.flags.endsWithParent = true →
        own.terminator = joinedEnds (own.ends.map (·.source)) around) := by
  have made := ownPart_eq_ok made
  refine ⟨made.parent, made.flags, fun dependent => ?_⟩
  rw [made.flags] at dependent
  have terminator := made.terminator
  rw [dependent] at terminator
  cases parent with
  | none =>
      rcases optionMapM_eq_ok made.ends with ⟨_, ends⟩ | ⟨_, _, impossible, _⟩
      · rw [terminator, ends, outermost rfl]
        rfl
      · cases impossible
  | some place =>
      rw [Option.map_some, Option.getD_some, terminator_eq_joinedEnds] at terminator
      rcases optionMapM_eq_ok made.ends with ⟨none_, ends⟩ | ⟨source, regex, own, ends, compiled⟩
      · rw [Option.bind_some] at none_
        rw [terminator, ends, none_]
        rfl
      · rw [Option.bind_some] at own
        rw [terminator, ends, own, Option.map_some, context.regex_source sources compiled]

namespace Arena

/-- Each mode that ends with the mode around it is ended by its own end or by what ends the mode for
which it was compiled. -/
structure Ended (arena : Arena) : Prop where
  terminator : ∀ place, (arena.mode place).flags.endsWithParent = true →
    (arena.mode place).terminator = joinedEnds ((arena.mode place).ends.map (·.source))
      (arena.terminatorOf (arena.mode place).parent)
  parents : ∀ place parent, (arena.mode place).parent = some parent → parent < arena.modes.size

/-- A place that is taken and for which no mode has been compiled yet. -/
structure Awaits (arena : Arena) (place : Nat) : Prop where
  taken : place < arena.modes.size
  unused : ∀ other, (arena.mode other).parent ≠ some place

section

variable {arena : Arena} {place other : Nat}

theorem terminatorOf_put {parent : Option Nat} (different : parent ≠ some place) (own : Mode) :
    (arena.put place own).terminatorOf parent = arena.terminatorOf parent := by
  cases parent with
  | none => rfl
  | some other =>
      have apart : other ≠ place := fun equal => different (equal ▸ rfl)
      simp only [terminatorOf_eq, Option.map_some, mode_put_other apart]

theorem terminatorOf_link (taken : place < arena.modes.size) (contains : List Nat)
    (starts parent : Option Nat) :
    (arena.link place contains starts).terminatorOf parent = arena.terminatorOf parent := by
  cases parent with
  | none => rfl
  | some other =>
      simp only [terminatorOf_eq, Option.map_some]
      by_cases equal : other = place
      · rw [equal, mode_link_self taken]
      · rw [mode_link_other equal]

theorem Ended.awaits_grown (ended : arena.Ended) {count : Nat} (first : arena.modes.size ≤ place)
    (last : place < arena.modes.size + count) : (arena.grown count).Awaits place where
  taken := by rwa [size_grown]
  unused other made := by
    rw [mode_grown] at made
    exact Nat.not_lt.mpr first (ended.parents other place made)

theorem Ended.grown (ended : arena.Ended) (count : Nat) : (arena.grown count).Ended where
  terminator place dependent := by
    simp only [mode_grown, terminatorOf_eq] at dependent ⊢
    rw [ended.terminator place dependent, terminatorOf_eq]
  parents place parent made := by
    rw [mode_grown] at made
    rw [size_grown]
    exact Nat.lt_add_right count (ended.parents place parent made)

/-- No mode was compiled for the one in the place, so what ends the others stays as it is. -/
theorem Ended.put (ended : arena.Ended) (awaits : arena.Awaits place) {own : Mode}
    (around : ∀ parent, own.parent = some parent → parent < arena.modes.size ∧ parent ≠ place)
    (terminator : own.flags.endsWithParent = true →
      own.terminator = joinedEnds (own.ends.map (·.source)) (arena.terminatorOf own.parent)) :
    (arena.put place own).Ended := by
  have self : (arena.put place own).mode place = own := mode_put_self awaits.taken own
  have same : ∀ other, other ≠ place → (arena.put place own).mode other = arena.mode other :=
    fun other different => mode_put_other different own
  constructor
  · intro other dependent
    by_cases equal : other = place
    · subst equal
      rw [self] at dependent ⊢
      rw [terminatorOf_put fun itself => (around _ itself).2 rfl]
      exact terminator dependent
    · rw [same other equal] at dependent ⊢
      rw [terminatorOf_put (awaits.unused other)]
      exact ended.terminator other dependent
  · intro other parent made
    rw [size_put]
    by_cases equal : other = place
    · subst equal
      rw [self] at made
      exact (around parent made).1
    · rw [same other equal] at made
      exact ended.parents other parent made

theorem Ended.link (ended : arena.Ended) (taken : place < arena.modes.size) (contains : List Nat)
    (starts : Option Nat) : (arena.link place contains starts).Ended := by
  constructor
  · intro other dependent
    rw [parent_link, terminatorOf_link taken]
    by_cases equal : other = place
    · subst equal
      rw [mode_link_self taken] at dependent ⊢
      exact ended.terminator other dependent
    · rw [mode_link_other equal] at dependent ⊢
      exact ended.terminator other dependent
  · intro other parent made
    rw [size_link]
    rw [parent_link] at made
    exact ended.parents other parent made

theorem Awaits.grown (awaits : arena.Awaits place) (count : Nat) :
    (arena.grown count).Awaits place where
  taken := by
    rw [size_grown]
    exact Nat.lt_add_right count awaits.taken
  unused other := by
    rw [mode_grown]
    exact awaits.unused other

theorem Awaits.put (awaits : arena.Awaits other) (taken : place < arena.modes.size) {own : Mode}
    (parent : own.parent ≠ some other) : (arena.put place own).Awaits other where
  taken := by
    rw [size_put]
    exact awaits.taken
  unused third := by
    by_cases equal : third = place
    · rw [equal, mode_put_self taken]
      exact parent
    · rw [mode_put_other equal]
      exact awaits.unused third

theorem Awaits.link (awaits : arena.Awaits other) (contains : List Nat) (starts : Option Nat) :
    (arena.link place contains starts).Awaits other where
  taken := by
    rw [size_link]
    exact awaits.taken
  unused third := by
    rw [parent_link]
    exact awaits.unused third

end

/-- A place that is taken but has not been filled in, and to which nothing refers yet. -/
structure Fresh (place : Nat) (arena : Arena) : Prop where
  taken : place < arena.modes.size
  empty : arena.mode place = {}
  parents : ∀ other, (arena.mode other).parent ≠ some place
  starts : ∀ other, (arena.mode other).starts ≠ some place
  references : ∀ entry ∈ arena.references, entry.1.parent ≠ some place

/-- The modes end with those for which they were compiled. Modes within a mode were compiled for it, but
for the mode itself and for the free ones, and so were those that these start; free modes do not end
with the modes around them. -/
structure Inherits (free : Nat → Prop) (arena : Arena) : Prop where
  terminator : ∀ place, (arena.mode place).flags.endsWithParent = true →
    (arena.mode place).terminator = joinedEnds ((arena.mode place).ends.map (·.source))
      (arena.terminatorOf (arena.mode place).parent)
  parents : ∀ place parent, (arena.mode place).parent = some parent → parent < arena.modes.size
  starts : ∀ place next, (arena.mode place).starts = some next →
    next < arena.modes.size ∧ (arena.mode next).parent = (arena.mode place).parent
  contains : ∀ place, ∀ child ∈ (arena.mode place).contains,
    child = place ∨ free child ∨ (arena.mode child).parent = some place
  references : ∀ entry ∈ arena.references,
    (entry.1.parent = none → ∀ place ∈ entry.2, free place) ∧
      ∀ parent, entry.1.parent = some parent → parent < arena.modes.size
  free : ∀ place, free place → place < arena.modes.size ∧
    (arena.mode place).flags.endsWithParent = false ∧
      ∀ next, (arena.mode place).starts = some next → free next

variable {arena : Arena} {free : Nat → Prop} {place other count : Nat}

theorem Fresh.awaits (fresh : arena.Fresh place) : arena.Awaits place :=
  ⟨fresh.taken, fresh.parents⟩

theorem Inherits.ended (inherits : arena.Inherits free) : arena.Ended :=
  ⟨inherits.terminator, inherits.parents⟩

theorem Inherits.fresh_grown (inherits : arena.Inherits free) (first : arena.modes.size ≤ place)
    (last : place < arena.modes.size + count) : (arena.grown count).Fresh place where
  taken := by simpa using last
  empty := by rw [mode_grown, mode_missing first]
  parents := (inherits.ended.awaits_grown first last).unused
  starts other within := by
    have := (inherits.starts other place (by simpa using within)).1
    omega
  references entry member within := by
    have := (inherits.references entry member).2 place within
    omega

/-- A mode that is reached by going on was compiled for the same mode, and is free if that is. -/
theorem Inherits.continues (inherits : arena.Inherits free) {child inner : Nat}
    (continues : Relation.ReflTransGen (fun place next => (arena.mode place).starts = some next)
      child inner) :
    (arena.mode inner).parent = (arena.mode child).parent ∧ (free child → free inner) := by
  induction continues with
  | refl => exact ⟨rfl, id⟩
  | tail _ follows ih =>
      exact ⟨(inherits.starts _ _ follows).2.trans ih.1,
        fun known => (inherits.free _ (ih.2 known)).2.2 _ follows⟩

theorem Inherits.grown (inherits : arena.Inherits free) (count : Nat) {more : Nat → Prop}
    (new : ∀ place, more place → arena.modes.size ≤ place ∧ place < arena.modes.size + count) :
    (arena.grown count).Inherits fun place => free place ∨ more place where
  terminator := (inherits.ended.grown count).terminator
  parents := (inherits.ended.grown count).parents
  starts := by
    intro place next follows
    have := inherits.starts place next (by simpa using follows)
    simpa using ⟨by omega, this.2⟩
  contains := by
    intro place child within
    rcases inherits.contains place child (by simpa using within) with self | known | own
    · exact Or.inl self
    · exact Or.inr (Or.inl (Or.inl known))
    · exact Or.inr (Or.inr (by simpa using own))
  references := by
    intro entry member
    obtain ⟨known, keyed⟩ := inherits.references entry member
    refine ⟨fun none_ place within => Or.inl (known none_ place within), fun parent same => ?_⟩
    have := keyed parent same
    simp only [size_grown]
    omega
  free := by
    rintro place (known | added)
    · obtain ⟨taken, ends, follows⟩ := inherits.free place known
      simp only [size_grown, mode_grown]
      exact ⟨by omega, ends, fun next starts => Or.inl (follows next starts)⟩
    · obtain ⟨first, last⟩ := new place added
      simp only [size_grown, mode_grown, mode_missing first]
      exact ⟨last, trivial, by simp⟩

theorem Inherits.put (inherits : arena.Inherits free) (fresh : arena.Fresh place) {own : Mode}
    (contains : own.contains = []) (starts : own.starts = none)
    (parent : ∀ parent, own.parent = some parent → parent < arena.modes.size ∧ parent ≠ place)
    (terminator : own.flags.endsWithParent = true →
      own.terminator = joinedEnds (own.ends.map (·.source)) (arena.terminatorOf own.parent))
    (onItsOwn : free place → own.flags.endsWithParent = false) :
    (arena.put place own).Inherits free := by
  have same : ∀ other, other ≠ place → (arena.put place own).mode other = arena.mode other :=
    fun other different => mode_put_other different own
  have self : (arena.put place own).mode place = own := mode_put_self fresh.taken own
  have ended := inherits.ended.put fresh.awaits parent terminator
  refine ⟨ended.terminator, ended.parents, ?_, ?_, ?_, ?_⟩
  · intro other next follows
    rw [size_put]
    by_cases equal : other = place
    · subst equal
      rw [self, starts] at follows
      cases follows
    · rw [same other equal] at follows ⊢
      rw [same next fun itself => fresh.starts other (itself ▸ follows)]
      exact inherits.starts other next follows
  · intro other child within
    by_cases equal : other = place
    · subst equal
      rw [self, contains] at within
      cases within
    · rw [same other equal] at within
      rcases inherits.contains other child within with itself | known | made
      · exact Or.inl itself
      · exact Or.inr (Or.inl known)
      · refine Or.inr (Or.inr ?_)
        rw [same child ?_]
        · exact made
        · rintro rfl
          simp [fresh.empty] at made
  · intro entry member
    rw [size_put]
    exact inherits.references entry member
  · intro other known
    rw [size_put]
    by_cases equal : other = place
    · subst equal
      rw [self]
      exact ⟨fresh.taken, onItsOwn known, by simp [starts]⟩
    · rw [same other equal]
      exact inherits.free other known

theorem Inherits.link (inherits : arena.Inherits free) (taken : place < arena.modes.size)
    {contains : List Nat} {starts : Option Nat}
    (within : ∀ child ∈ contains,
      child = place ∨ free child ∨ (arena.mode child).parent = some place)
    (follows : ∀ next, starts = some next → next < arena.modes.size ∧
      (arena.mode next).parent = (arena.mode place).parent ∧ (free place → free next)) :
    (arena.link place contains starts).Inherits free := by
  have self := mode_link_self taken contains starts
  have same : ∀ other, other ≠ place →
      (arena.link place contains starts).mode other = arena.mode other :=
    fun other different => mode_link_other different contains starts
  have parents : ∀ other, ((arena.link place contains starts).mode other).parent =
      (arena.mode other).parent := parent_link arena place contains starts
  have ended := inherits.ended.link taken contains starts
  refine ⟨ended.terminator, ended.parents, ?_, ?_, ?_, ?_⟩
  · intro other next goesOn
    rw [parents, parents, size_link]
    by_cases equal : other = place
    · subst equal
      rw [self] at goesOn
      exact ⟨(follows next goesOn).1, (follows next goesOn).2.1⟩
    · rw [same other equal] at goesOn
      exact inherits.starts other next goesOn
  · intro other child member
    rw [parents]
    by_cases equal : other = place
    · subst equal
      rw [self] at member
      exact within child member
    · rw [same other equal] at member
      exact inherits.contains other child member
  · intro entry member
    rw [size_link]
    exact inherits.references entry (List.mem_filter.mp member).1
  · intro other known
    rw [size_link]
    by_cases equal : other = place
    · subst equal
      rw [self]
      obtain ⟨_, ends, _⟩ := inherits.free other known
      exact ⟨taken, ends, fun next goesOn => (follows next goesOn).2.2 known⟩
    · rw [same other equal]
      exact inherits.free other known

theorem Inherits.referring (inherits : (arena.grown count).Inherits free) {reference : Reference}
    (onItsOwn : reference.parent = none →
      ∀ place ∈ List.range' arena.modes.size count, free place)
    (parent : ∀ parent, reference.parent = some parent → parent < arena.modes.size) :
    (arena.referring reference count).Inherits free where
  terminator := inherits.terminator
  parents := inherits.parents
  starts := inherits.starts
  contains := inherits.contains
  references := by
    intro entry member
    rcases List.mem_cons.mp member with rfl | old
    · refine ⟨onItsOwn, fun above same => Nat.lt_of_lt_of_le (parent above same) ?_⟩
      simp [Arena.referring]
    · exact inherits.references entry old
  free := inherits.free

theorem Fresh.grown (fresh : arena.Fresh place) (count : Nat) : (arena.grown count).Fresh place where
  taken := (fresh.awaits.grown count).taken
  empty := by simpa using fresh.empty
  parents := (fresh.awaits.grown count).unused
  starts := by simpa using fresh.starts
  references := fresh.references

theorem Fresh.referring (fresh : (arena.grown count).Fresh place) {reference : Reference}
    (other : reference.parent ≠ some place) : (arena.referring reference count).Fresh place where
  taken := fresh.taken
  empty := fresh.empty
  parents := fresh.parents
  starts := fresh.starts
  references := by
    intro entry member
    rcases List.mem_cons.mp member with rfl | old
    · exact other
    · exact fresh.references entry old

theorem Fresh.put (fresh : arena.Fresh other) (different : other ≠ place) {own : Mode}
    (parent : own.parent ≠ some other) (starts : own.starts = none)
    (taken : place < arena.modes.size) : (arena.put place own).Fresh other := by
  have self : (arena.put place own).mode place = own := mode_put_self taken own
  have same : ∀ third, third ≠ place → (arena.put place own).mode third = arena.mode third :=
    fun third apart => mode_put_other apart own
  have awaits := fresh.awaits.put taken parent
  refine ⟨awaits.taken, (same other different).trans fresh.empty, awaits.unused, fun third => ?_,
    fresh.references⟩
  by_cases equal : third = place
  · rw [equal, self, starts]
    simp
  · rw [same third equal]
    exact fresh.starts third

theorem Fresh.link (fresh : arena.Fresh other) (different : other ≠ place)
    (taken : place < arena.modes.size) (contains : List Nat) {starts : Option Nat}
    (apart : starts ≠ some other) : (arena.link place contains starts).Fresh other := by
  have self := mode_link_self taken contains starts
  have same : ∀ third, third ≠ place →
      (arena.link place contains starts).mode third = arena.mode third :=
    fun third apart => mode_link_other apart contains starts
  have awaits : (arena.link place contains starts).Awaits other :=
    fresh.awaits.link contains starts
  refine ⟨awaits.taken, (same other different).trans fresh.empty, awaits.unused, fun third => ?_,
    fun entry member => fresh.references entry (List.mem_filter.mp member).1⟩
  by_cases equal : third = place
  · rw [equal, self]
    exact apart
  · rw [same third equal]
    exact fresh.starts third

/-- An arena that has grown out of another one. The places that were there are free if they were, and
fresh if they were, but for some that have been used. -/
structure Develops (used : List Nat) (before after : Arena) (free more : Nat → Prop) : Prop where
  size : before.modes.size ≤ after.modes.size
  inherits : after.Inherits more
  free : ∀ place, place < before.modes.size → (more place ↔ free place)
  fresh : ∀ place, place ∉ used → before.Fresh place → after.Fresh place

def Suited (arena : Arena) (free : Nat → Prop) (place child : Nat) : Prop :=
  child = place ∨ free child ∨ (arena.mode child).parent = some place

def Files (arena : Arena) (place : Nat) : Prop :=
  ∀ entry ∈ arena.references, entry.1.parent = some place →
    ∀ shared ∈ entry.2, (arena.mode shared).parent = some place

variable {before middle after : Arena} {more most : Nat → Prop} {used : List Nat}

theorem Develops.refl (used : List Nat) (inherits : arena.Inherits free) :
    Develops used arena arena free free :=
  ⟨Nat.le_refl _, inherits, fun _ _ => Iff.rfl, fun _ _ fresh => fresh⟩

theorem Develops.trans (early : Develops used before middle free more)
    (late : Develops used middle after more most) : Develops used before after free most where
  size := Nat.le_trans early.size late.size
  inherits := late.inherits
  free place taken :=
    (late.free place (Nat.lt_of_lt_of_le taken early.size)).trans (early.free place taken)
  fresh place other fresh := late.fresh place other (early.fresh place other fresh)

/-- The own part of a mode makes use of its place, and of the mode for which it is compiled. -/
theorem Develops.put (inherits : before.Inherits free) (fresh : before.Fresh place) {own : Mode}
    (contains : own.contains = []) (starts : own.starts = none)
    (parent : ∀ parent, own.parent = some parent → parent < before.modes.size ∧ parent ≠ place)
    (terminator : own.flags.endsWithParent = true →
      own.terminator = joinedEnds (own.ends.map (·.source)) (before.terminatorOf own.parent))
    (onItsOwn : free place → own.flags.endsWithParent = false) :
    Develops (place :: own.parent.toList) before (before.put place own) free free where
  size := by simp
  inherits := inherits.put fresh contains starts parent terminator onItsOwn
  free _ _ := Iff.rfl
  fresh other unused freshBefore := by
    simp only [List.mem_cons, not_or] at unused
    refine freshBefore.put unused.1 ?_ starts fresh.taken
    exact fun same => unused.2 (by simp [same])

theorem Suited.develops {child : Nat} (suited : before.Suited free place child)
    (inherits : before.Inherits free) (extends_ : Extends other before after)
    (develops : Develops used before after free more) : after.Suited more place child := by
  rcases suited with itself | known | made
  · exact Or.inl itself
  · exact Or.inr (Or.inl ((develops.free child (inherits.free child known).1).mpr known))
  · refine Or.inr (Or.inr ?_)
    rw [extends_.modes child (taken_of_parent made)]
    exact made

/-- What is compiled within another mode is not kept for this one. -/
theorem Files.extends_ (files : before.Files place) (extends_ : Extends other before after)
    (different : other ≠ place) : after.Files place := by
  intro entry member own shared among
  rcases extends_.references entry member with old | none_ | others
  · have made := files entry old own shared among
    rw [extends_.modes shared (taken_of_parent made)]
    exact made
  · simp [none_] at own
  · exact absurd (Option.some.inj (others.symm.trans own)) different

end Arena

/-! ### The steps of the compilation -/

def IntoInherits (into : Into) : Prop :=
  ∀ pending place definition parent before done after free,
    Arena.Inherits free before → before.Fresh place →
    (∀ around, parent = some around → around < before.modes.size ∧ around ≠ place) →
    (free place → definition.dependsOnParent = false) →
    (into pending place definition parent).run before = .ok (done, after) →
    ∃ more, Arena.Develops (place :: parent.toList) before after free more ∧
      (after.mode place).parent = parent

section

variable {context : Context} {into : Into} {pending : List Pending} {before after : Arena}
  {free : Nat → Prop}

/-- A mode of its own is free if that is wanted, which takes that it does not depend on the mode around
it. -/
theorem compileNew_inherits (intoInherits : IntoInherits into) {definition : ModeDefinition}
    {parent : Option Nat} {place : Nat} (wanted : Prop) (inherits : before.Inherits free)
    (around : ∀ around, parent = some around → around < before.modes.size)
    (onItsOwn : wanted → definition.dependsOnParent = false)
    (ran : (compileNew context into pending definition parent).run before = .ok (place, after)) :
    ∃ more, Arena.Develops parent.toList before after free more ∧
      (after.mode place).parent = parent ∧ (wanted → more place) := by
  obtain ⟨rfl, filling⟩ := compileNew_eq_ok ran
  have grown := @Arena.Inherits.grown before free inherits 1
    (fun place => wanted ∧ place = before.modes.size) (by omega)
  have outer : ¬free before.modes.size := fun known =>
    Nat.lt_irrefl _ (inherits.free _ known).1
  obtain ⟨more, develops, made⟩ := intoInherits _ _ _ _ _ _ _ _ grown
    (inherits.fresh_grown (Nat.le_refl _) (by omega))
    (fun above same => by
      have := around above same
      exact ⟨by simp; omega, by omega⟩)
    (fun known => onItsOwn (known.resolve_left outer).1) filling
  have size := develops.size
  simp only [Arena.size_grown] at size
  refine ⟨more, ⟨by omega, develops.inherits, fun place taken => ?_, fun place other fresh => ?_⟩,
    made, fun wants => (develops.free _ (by simp)).mpr (Or.inr ⟨wants, rfl⟩)⟩
  · rw [develops.free place (by simp; omega)]
    exact or_iff_left fun new => by omega
  · refine develops.fresh place ?_ (fresh.grown 1)
    have := fresh.taken
    simp only [List.mem_cons, not_or]
    exact ⟨by omega, other⟩

/-- A shared mode of which a variant depends on the mode around it depends on that itself. -/
def ShowsDependence (repository : Dictionary ModeDefinition) : Prop :=
  ∀ entry ∈ repository.entries, ∀ variant ∈ entry.2.expanded,
    variant.dependsOnParent = true → entry.2.dependsOnParent = true

/-- The definitions of a shared mode are being compiled for the mode around it. Their places are free
unless the shared mode depends on that one; those still to be filled in are fresh. -/
structure Sharing (before : Arena) (free : Nat → Prop) (parent : Nat) (definition : ModeDefinition)
    (done : List (Nat × ModeDefinition)) (arena : Arena) (more : Nat → Prop) : Prop where
  develops : Arena.Develops [parent] before arena free more
  references : ∀ entry ∈ arena.references, entry.1.parent = some parent →
    entry ∈ before.references ∨ entry.2 = (sharedItems definition before).map Prod.fst
  free : ∀ item ∈ sharedItems definition before, more item.1 ↔ definition.dependsOnParent = false
  fresh : ∀ item ∈ sharedItems definition before,
    (arena.mode item.1).parent = some parent ∨ arena.Fresh item.1
  compiled : ∀ item ∈ done, (arena.mode item.1).parent = some parent

theorem referenceTo_parent {definition : ModeDefinition} {name : String} {parent : Nat} :
    (referenceTo definition name parent).parent =
      if definition.dependsOnParent then some parent else none := rfl

theorem Sharing.start {parent : Nat} {definition : ModeDefinition} (name : String)
    (inherits : before.Inherits free) (taken : parent < before.modes.size) :
    Sharing before free parent definition []
      (before.referring (referenceTo definition name parent) definition.expanded.length)
      fun place => free place ∨ definition.dependsOnParent = false ∧
        place ∈ (sharedItems definition before).map Prod.fst where
  develops := by
    have range : ∀ place, place ∈ (sharedItems definition before).map Prod.fst ↔
        before.modes.size ≤ place ∧ place < before.modes.size + definition.expanded.length := by
      intro place
      rw [sharedItems_places, List.mem_range'_1]
    refine ⟨by simp [Arena.referring], Arena.Inherits.referring
      (inherits.grown _ fun place new => (range place).mp new.2) ?_ ?_, ?_, ?_⟩
    · intro none_ place member
      rw [← sharedItems_places] at member
      exact Or.inr ⟨by simpa [referenceTo_parent] using none_, member⟩
    · intro above same
      rw [referenceTo_parent] at same
      split at same
      · exact Option.some.inj same ▸ taken
      · cases same
    · intro place old
      refine or_iff_left fun new => ?_
      have := (range place).mp new.2
      omega
    · intro place other fresh
      refine (fresh.grown _).referring fun same => ?_
      rw [referenceTo_parent] at same
      split at same
      · exact other (Option.some.inj same ▸ List.mem_singleton_self _)
      · cases same
  references entry member own := by
    rcases List.mem_cons.mp member with rfl | old
    · exact Or.inr (sharedItems_places definition before).symm
    · exact Or.inl old
  free item member := by
    have outer : ¬free item.1 := fun known => by
      have := (inherits.free _ known).1
      have := (sharedItems_range member).1
      omega
    have listed : item.1 ∈ (sharedItems definition before).map Prod.fst := List.mem_map_of_mem member
    exact ⟨fun known => (known.resolve_left outer).1, fun alone => Or.inr ⟨alone, listed⟩⟩
  fresh item member := by
    obtain ⟨first, last⟩ := sharedItems_range member
    refine Or.inr ((inherits.fresh_grown first last).referring fun same => ?_)
    rw [referenceTo_parent] at same
    split at same
    · have := Option.some.inj same
      omega
    · cases same
  compiled := by simp

theorem Sharing.step (intoFills : IntoFills into) (intoInherits : IntoInherits into) {parent : Nat}
    {definition : ModeDefinition}
    (shows : ∀ variant ∈ definition.expanded, variant.dependsOnParent = true →
      definition.dependsOnParent = true)
    (taken : parent < before.modes.size) {done : List (Nat × ModeDefinition)}
    {item : Nat × ModeDefinition} {middle : Arena} {more : Nat → Prop}
    (sharing : Sharing before free parent definition done middle more)
    (member : item ∈ sharedItems definition before) (empty : middle.mode item.1 = {})
    (ran : (into pending item.1 item.2 (some parent)).run middle = .ok ((), after)) :
    ∃ most, Sharing before free parent definition (done ++ [item]) after most := by
  have behind := (sharedItems_range member).1
  have fresh : middle.Fresh item.1 := (sharing.fresh item member).resolve_left (by simp [empty])
  have variant : item.2 ∈ definition.expanded := mem_expanded_of_sharedItems member
  have size := sharing.develops.size
  obtain ⟨most, develops, made⟩ := intoInherits _ _ _ _ _ _ _ _ sharing.develops.inherits fresh
    (fun above same => by
      obtain rfl := Option.some.inj same
      exact ⟨by omega, by omega⟩)
    (fun known => by
      have alone := (sharing.free item member).mp known
      cases depends : item.2.dependsOnParent with
      | false => rfl
      | true => simp [shows item.2 variant depends] at alone) ran
  have fills := intoFills _ _ _ _ _ _ _ ran
  -- what has been compiled for the mode around stays so
  have stays : ∀ place, (middle.mode place).parent = some parent →
      (after.mode place).parent = some parent := by
    intro place compiled
    by_cases equal : place = item.1
    · exact equal ▸ made
    · rw [fills.modes place (Arena.taken_of_parent compiled) equal]
      exact compiled
  refine ⟨most, ⟨by have := fills.size; omega, develops.inherits, fun place old => ?_,
    fun place other freshBefore => ?_⟩, fun entry among own => ?_, fun other among => ?_,
    fun other among => ?_, fun other among => ?_⟩
  · rw [develops.free place (by omega)]
    exact sharing.develops.free place old
  · refine develops.fresh place ?_ (sharing.develops.fresh place other freshBefore)
    have := freshBefore.taken
    have apart : place ≠ parent := by simpa using other
    simpa using ⟨by omega, apart⟩
  · rcases (fills.references entry among).2 with old | none_
    · exact sharing.references entry old own
    · simp [none_] at own
  · have otherTaken : other.1 < middle.modes.size := by
      rcases sharing.fresh other among with compiled | unfilled
      · exact Arena.taken_of_parent compiled
      · exact unfilled.taken
    rw [develops.free other.1 otherTaken]
    exact sharing.free other among
  · have otherBehind := (sharedItems_range among).1
    rcases sharing.fresh other among with compiled | unfilled
    · exact Or.inl (stays other.1 compiled)
    · by_cases equal : other.1 = item.1
      · exact Or.inl (equal ▸ made)
      · exact Or.inr (develops.fresh other.1 (by simpa using ⟨equal, by omega⟩) unfilled)
  · rcases List.mem_append.mp among with early | last
    · exact stays other.1 (sharing.compiled other early)
    · exact List.mem_singleton.mp last ▸ made

theorem compileShared_inherits (intoFills : IntoFills into) (intoInherits : IntoInherits into)
    (shows : ShowsDependence context.repository) {parent : Nat} {name : String} {places : List Nat}
    (inherits : before.Inherits free) (taken : parent < before.modes.size)
    (files : before.Files parent)
    (ran : (compileShared context into pending parent name).run before = .ok (places, after)) :
    ∃ more, Arena.Develops [parent] before after free more ∧ after.Files parent ∧
      ∀ place ∈ places, after.Suited more parent place := by
  obtain ⟨definition, found, ⟨known, rfl⟩ | ⟨rfl, expands⟩⟩ := compileShared_eq_ok ran
  · refine ⟨free, Arena.Develops.refl _ inherits, files, fun place member => Or.inr ?_⟩
    cases depends : definition.dependsOnParent with
    | false =>
        have alone : (referenceTo definition name parent).parent = none := by
          simp [referenceTo_parent, depends]
        exact Or.inl ((inherits.references _ known).1 alone place member)
    | true =>
        have own : (referenceTo definition name parent).parent = some parent := by
          simp [referenceTo_parent, depends]
        exact Or.inr (files _ known own place member)
  · obtain ⟨⟨more, sharing⟩, extends_⟩ := @Expands.induction _ _ _ _ _ _ _ _ intoFills expands
      (fun done arena => ∃ more, Sharing before free parent definition done arena more)
      ⟨_, Sharing.start name inherits taken⟩
      fun done item middle next member ⟨more, sharing⟩ _ _ empty filling =>
        sharing.step intoFills intoInherits (shows _ (Dictionary.mem_of_find? found)) taken member empty filling
    have compiled : ∀ place ∈ (sharedItems definition before).map Prod.fst,
        (after.mode place).parent = some parent := by
      intro place member
      obtain ⟨item, among, rfl⟩ := List.mem_map.mp member
      exact sharing.compiled item among
    refine ⟨more, sharing.develops, fun entry among own shared within => ?_, fun place member => ?_⟩
    · rcases sharing.references entry among own with old | new
      · have made := files entry old own shared within
        rw [extends_.modes shared (Arena.taken_of_parent made)]
        exact made
      · exact compiled shared (new ▸ within)
    · rw [← sharedItems_places] at member
      exact Or.inr (Or.inr (compiled place member))

theorem compileEntry_inherits (intoFills : IntoFills into) (intoInherits : IntoInherits into)
    (shows : ShowsDependence context.repository) {place : Nat} {entry : ContainsEntry ModeDefinition}
    {places : List Nat} (inherits : before.Inherits free) (taken : place < before.modes.size)
    (files : before.Files place)
    (ran : (compileEntry context into pending place entry).run before = .ok (places, after)) :
    ∃ more, Arena.Develops [place] before after free more ∧ after.Files place ∧
      ∀ child ∈ places, after.Suited more place child := by
  cases entry with
  | itself =>
      obtain ⟨rfl, rfl⟩ := run_pure_eq_ok.mp ran
      refine ⟨free, Arena.Develops.refl _ inherits, files, fun child member => Or.inl ?_⟩
      exact List.mem_singleton.mp member
  | shared name => exact compileShared_inherits intoFills intoInherits shows inherits taken files ran
  | inline definition =>
      refine @mapM_induction _ _ _ _ _ (fun _ found arena => ∃ more,
        Arena.Develops [place] before arena free more ∧ arena.Files place ∧
          ∀ child ∈ found, arena.Suited more place child) _ _ ran
        ⟨free, Arena.Develops.refl _ inherits, files, by simp⟩ ?_
      rintro _ variant _ found middle made last - ⟨more, develops, files, suited⟩ stepped
      have extends_ := compileNew_extends intoFills stepped (place + 1)
      obtain ⟨most, later, parent, _⟩ := compileNew_inherits intoInherits False develops.inherits
        (fun around same => Option.some.inj same ▸ Nat.lt_of_lt_of_le taken develops.size)
        (fun wanted => wanted.elim) stepped
      refine ⟨most, develops.trans later, files.extends_ extends_ (by omega), fun child member => ?_⟩
      rcases List.mem_append.mp member with early | new
      · exact (suited child early).develops develops.inherits extends_ later
      · exact Or.inr (Or.inr (List.mem_singleton.mp new ▸ parent))

/-- What a mode contains was compiled for it, unless it is the mode itself or a free one. -/
theorem mapM_compileEntry_inherits (intoFills : IntoFills into) (intoInherits : IntoInherits into)
    (shows : ShowsDependence context.repository) {place : Nat}
    {entries : List (ContainsEntry ModeDefinition)} {contains : List (List Nat)}
    (inherits : before.Inherits free) (taken : place < before.modes.size)
    (files : before.Files place)
    (ran : (entries.mapM (compileEntry context into pending place)).run before =
      .ok (contains, after)) :
    ∃ more, Arena.Develops [place] before after free more ∧
      ∀ child ∈ contains.flatten, after.Suited more place child := by
  obtain ⟨more, develops, -, suited⟩ := @mapM_induction _ _ _ _ _ (fun _ found arena => ∃ more,
      Arena.Develops [place] before arena free more ∧ arena.Files place ∧
        ∀ children ∈ found, ∀ child ∈ children, arena.Suited more place child) _ _ ran
    ⟨free, Arena.Develops.refl _ inherits, files, by simp⟩ (by
      rintro _ entry _ found middle places last - ⟨more, develops, files, suited⟩ stepped
      obtain ⟨most, later, files, new⟩ := compileEntry_inherits intoFills intoInherits shows
        develops.inherits (Nat.lt_of_lt_of_le taken develops.size) files stepped
      refine ⟨most, develops.trans later, files, fun children among child member => ?_⟩
      rcases List.mem_append.mp among with early | late
      · exact (suited children early child member).develops develops.inherits
          (compileEntry_extends intoFills stepped) later
      · exact new child (List.mem_singleton.mp late ▸ member))
  refine ⟨more, develops, fun child member => ?_⟩
  obtain ⟨children, among, within⟩ := List.mem_flatten.mp member
  exact suited children among child within

/-- The mode that a mode starts was compiled for the same mode as that one. It is free if the one that
starts it is to be. -/
theorem starting_inherits (intoFills : IntoFills into) (intoInherits : IntoInherits into)
    {parent : Option Nat} {definition : Option ModeDefinition} {starts : Option Nat} (wanted : Prop)
    (inherits : before.Inherits free)
    (around : ∀ around, parent = some around → around < before.modes.size)
    (onItsOwn : wanted → ∀ next, definition = some next → next.dependsOnParent = false)
    (starting : definition = none ∧ starts = none ∧ after = before ∨
      ∃ next place, definition = some next ∧ starts = some place ∧
        (compileNew context into pending next parent).run before = .ok (place, after)) :
    ∃ more, Arena.Develops parent.toList before after free more ∧
      ∀ next, starts = some next → before.modes.size ≤ next ∧ next < after.modes.size ∧
        (after.mode next).parent = parent ∧ (wanted → more next) := by
  rcases starting with ⟨_, rfl, rfl⟩ | ⟨next, place, follows, rfl, ran⟩
  · exact ⟨free, Arena.Develops.refl _ inherits, by simp⟩
  · obtain ⟨more, develops, made, known⟩ := compileNew_inherits intoInherits wanted inherits around
      (fun wants => onItsOwn wants next follows) ran
    refine ⟨more, develops, fun other same => ?_⟩
    obtain rfl := Option.some.inj same
    obtain ⟨rfl, filling⟩ := compileNew_eq_ok ran
    have size := (intoFills _ _ _ _ _ _ _ filling).size
    simp only [Arena.size_grown] at size
    exact ⟨Nat.le_refl _, size, made, known⟩

theorem compileWith_inherits (plain : context.extensions = []) (sources : context.engine.KeepsSources)
    (shows : ShowsDependence context.repository) (intoFills : IntoFills into)
    (intoInherits : IntoInherits into) : IntoInherits (compileWith context into) := by
  intro pending place definition parent before done after free inherits fresh around onItsOwn ran
  obtain ⟨normal, normalized, own, contains, filled, starts, started, steps⟩ := compileWith_eq_ok ran
  rw [plain] at normalized
  have made := ownPart_eq_ok steps.made
  obtain ⟨ownParent, ownFlags, ownEnds⟩ := ownPart_ends sources steps.made fun outermost => by
    rw [outermost]
    rfl
  subst ownParent
  have alone : free place → normal.flags.endsWithParent = false ∧
      ∀ next, normal.starts = some next → next.dependsOnParent = false := fun known =>
    ModeDefinition.dependsOnParent_eq_false.mp
      (ModeDefinition.independent_of_normalize normalized (onItsOwn known))
  -- the own part
  let placed := before.put place own
  have placedTaken : place < placed.modes.size := by simpa [placed] using fresh.taken
  have placedDevelops : Arena.Develops (place :: own.parent.toList) before placed free free :=
    .put inherits fresh made.contains made.starts around ownEnds fun known => by
      rw [ownFlags]
      exact (alone known).1
  -- the modes within it
  have placedFiles : placed.Files place := fun entry member keyed =>
    absurd keyed (fresh.references entry member)
  obtain ⟨filledExtends, startedExtends⟩ := steps.extends_ intoFills
  obtain ⟨more, filledDevelops, suited⟩ := mapM_compileEntry_inherits intoFills intoInherits shows
    placedDevelops.inherits placedTaken placedFiles steps.filling
  have filledTaken : place < filled.modes.size := Nat.lt_of_lt_of_le placedTaken filledDevelops.size
  -- the mode that it starts
  obtain ⟨most, startedDevelops, follows⟩ := starting_inherits intoFills intoInherits (more place)
    filledDevelops.inherits
    (fun above same => Nat.lt_of_lt_of_le (around above same).1
      (Nat.le_trans placedDevelops.size filledDevelops.size))
    (fun known => (alone ((filledDevelops.free place placedTaken).mp known)).2) steps.starting
  have startedTaken : place < started.modes.size :=
    Nat.lt_of_lt_of_le filledTaken startedDevelops.size
  have kept : (started.mode place).parent = own.parent := by
    rw [startedExtends.modes place filledTaken, filledExtends.modes place placedTaken,
      Arena.mode_put_self fresh.taken]
  obtain rfl := steps.linked
  have linked := startedDevelops.inherits.link startedTaken
    (fun child member => (suited child member).develops filledDevelops.inherits startedExtends
      startedDevelops)
    (fun next same => by
      obtain ⟨_, nextTaken, made, known⟩ := follows next same
      exact ⟨nextTaken, made.trans kept.symm,
        fun free => known ((startedDevelops.free place filledTaken).mp free)⟩)
  have early := placedDevelops.size
  have middle := filledDevelops.size
  have late := startedDevelops.size
  refine ⟨most, ⟨?_, linked, fun other old => ?_, fun other unused freshBefore => ?_⟩, ?_⟩
  · rw [Arena.size_link]
    omega
  · rw [startedDevelops.free other (by omega), filledDevelops.free other (by omega)]
  · have apart := unused
    simp only [List.mem_cons, not_or] at apart
    have freshPlaced := placedDevelops.fresh other unused freshBefore
    have freshFilled := filledDevelops.fresh other (by simpa using apart.1) freshPlaced
    have freshStarted := startedDevelops.fresh other apart.2 freshFilled
    refine freshStarted.link apart.1 startedTaken _ fun same => ?_
    -- the mode that is started was not there
    exact absurd (follows other same).1 (Nat.not_le_of_lt freshFilled.taken)
  · rw [Arena.mode_link_self startedTaken]
    exact kept

theorem compileInto_inherits (plain : context.extensions = [])
    (sources : context.engine.KeepsSources) (shows : ShowsDependence context.repository) (depth : Nat) :
    IntoInherits (compileInto context depth) := by
  induction depth with
  | zero =>
      intro _ _ _ _ _ _ _ _ _ _ _ _ ran
      cases ran
  | succ depth ih => exact compileWith_inherits plain sources shows (compileInto_fills depth) ih

theorem compileModes_inherits (plain : context.extensions = [])
    (sources : context.engine.KeepsSources) (shows : ShowsDependence context.repository) {root : ModeDefinition}
    {modes : Array Mode} (compiled : compileModes context root = .ok modes) :
    ∃ (arena : Arena) (free : Nat → Prop), arena.Inherits free ∧ arena.modes = modes := by
  obtain ⟨arena, filling, rfl⟩ := compileModes_eq_ok compiled
  have nothing : Arena.Inherits (fun _ => False) {} := by
    constructor <;> simp [Arena.mode]
  obtain ⟨more, develops, _⟩ := compileInto_inherits plain sources shows context.places [] 0 root none
    _ _ _ _ (@Arena.Inherits.grown _ _ nothing 1 (fun _ => False) fun _ new => new.elim)
    (nothing.fresh_grown (Nat.le_refl _) (by simp)) (by simp) (by simp) filling
  exact ⟨arena, more, develops.inherits, rfl⟩

end

end Compilation

namespace Grammar

variable {engine : Pattern.Engine} {name : String} {definition : GrammarDefinition}
  {grammar : Grammar}

/-- What ends the mode for which a mode was compiled; the root was compiled for none. -/
def terminatorAround (grammar : Grammar) (place : Nat) : String :=
  ((grammar.mode place).parent.map fun around => (grammar.mode around).terminator).getD ""

/-- A mode that ends with the mode around it, within another one or reached from one within it by going
on, is ended by its own end or by what ends the other one. If that mode contains itself, what it starts
is ended by what ends the mode for which it was compiled. Variants of shared modes must not depend on
the mode around them unless the shared modes do. -/
theorem terminator_of_continues (sources : engine.KeepsSources)
    (compiled : compile engine name definition = .ok grammar) (plain : definition.extensions = [])
    (shows : Compilation.ShowsDependence definition.repository) {place child inner : Nat}
    (within : child ∈ (grammar.mode place).contains) (continues : grammar.Continues child inner)
    (dependent : (grammar.mode inner).flags.endsWithParent = true) :
    (grammar.mode inner).terminator =
      Compilation.joinedEnds ((grammar.mode inner).ends.map (·.source))
        (if child = place then grammar.terminatorAround place
          else (grammar.mode place).terminator) := by
  unfold compile at compiled
  by_cases atTop : containsItself definition.root = true
  · rw [if_pos atTop] at compiled
    cases compiled
  · rw [if_neg atTop] at compiled
    obtain ⟨modes, made, compiled⟩ := bind_eq_ok.mp compiled
    obtain rfl := pure_eq_ok.mp compiled
    obtain ⟨arena, free, inherits, rfl⟩ :=
      Compilation.compileModes_inherits plain sources shows made
    obtain ⟨parent, alone⟩ := inherits.continues continues
    have ended := inherits.terminator inner dependent
    rw [parent, Compilation.Arena.terminatorOf_eq] at ended
    refine ended.trans ?_
    by_cases itself : child = place
    · rw [if_pos itself, itself]
      rfl
    · rw [if_neg itself]
      rcases inherits.contains place child within with other | known | made
      · exact absurd other itself
      · have ends := (inherits.free inner (alone known)).2.1
        exact absurd (ends.symm.trans dependent) Bool.false_ne_true
      · rw [made]
        rfl

/-- A grammar in which two modes share a value that ends with the mode around it. -/
def valued (value : ModeDefinition) : GrammarDefinition where
  root := {
    contains := [
      .inline {
        begins := some (.one "a")
        ends := some (.one "1")
        contains := [.shared "value"] },
      .inline {
        begins := some (.one "b")
        ends := some (.one "2")
        contains := [.shared "value"] }] }
  repository := ⟨[("value", value)], List.pairwise_singleton _ _⟩

/-- The shared value is compiled for each of the two. -/
theorem terminator_of_continues_valued :
    ∃ grammar, compile Pattern.engine "valued"
        (valued { begins := some (.one "="), flags := { endsWithParent := true } }) = .ok grammar ∧
      4 ∈ (grammar.mode 3).contains ∧ (grammar.mode 4).flags.endsWithParent = true ∧
      (grammar.mode 3).terminator = "2" ∧
      (grammar.mode 4).terminator =
        Compilation.joinedEnds ((grammar.mode 4).ends.map (·.source))
          (if 4 = 3 then grammar.terminatorAround 3 else (grammar.mode 3).terminator) := by
  have succeeds : (compile Pattern.engine "valued"
      (valued { begins := some (.one "="), flags := { endsWithParent := true } })).isOk = true := by
    decide +kernel
  have found : (compile Pattern.engine "valued"
      (valued { begins := some (.one "="), flags := { endsWithParent := true } })).toOption.map
        (fun grammar => (decide (4 ∈ (grammar.mode 3).contains),
          (grammar.mode 4).flags.endsWithParent, (grammar.mode 3).terminator)) =
      some (true, true, "2") := by
    decide +kernel
  obtain ⟨grammar, compiled⟩ := exists_of_isOk succeeds
  rw [compiled] at found
  obtain ⟨within, dependent, ends⟩ : 4 ∈ (grammar.mode 3).contains ∧
      (grammar.mode 4).flags.endsWithParent = true ∧ (grammar.mode 3).terminator = "2" := by
    simpa [Except.toOption] using found
  refine ⟨grammar, compiled, within, dependent, ends,
    terminator_of_continues Pattern.engine_keepsSources compiled rfl (by simp [valued, Compilation.ShowsDependence,
      ModeDefinition.expanded, ModeDefinition.dependsOnParent]) within .refl dependent⟩

/-- If only a variant of the shared value says so, the value is compiled for the first of the two, and
not ended by what ends the other one. -/
theorem terminator_of_continues_variant :
    ∃ grammar, compile Pattern.engine "valued"
        (valued { variants := [{
          begins := some (.one "="), flags := { endsWithParent := true } }] }) = .ok grammar ∧
      2 ∈ (grammar.mode 3).contains ∧ grammar.Continues 2 2 ∧ 2 ≠ 3 ∧
      (grammar.mode 2).flags.endsWithParent = true ∧
      (grammar.mode 2).terminator ≠
        Compilation.joinedEnds ((grammar.mode 2).ends.map (·.source)) (grammar.mode 3).terminator := by
  have succeeds : (compile Pattern.engine "valued" (valued { variants := [{
      begins := some (.one "="), flags := { endsWithParent := true } }] })).isOk = true := by
    decide +kernel
  have found : (compile Pattern.engine "valued" (valued { variants := [{
      begins := some (.one "="), flags := { endsWithParent := true } }] })).toOption.map
        (fun grammar => (decide (2 ∈ (grammar.mode 3).contains),
          (grammar.mode 2).flags.endsWithParent, decide ((grammar.mode 2).terminator ≠
            Compilation.joinedEnds ((grammar.mode 2).ends.map (·.source))
              (grammar.mode 3).terminator))) = some (true, true, true) := by
    decide +kernel
  obtain ⟨grammar, compiled⟩ := exists_of_isOk succeeds
  rw [compiled] at found
  obtain ⟨within, dependent, other⟩ : 2 ∈ (grammar.mode 3).contains ∧
      (grammar.mode 2).flags.endsWithParent = true ∧ (grammar.mode 2).terminator ≠
        Compilation.joinedEnds ((grammar.mode 2).ends.map (·.source)) (grammar.mode 3).terminator := by
    simpa [Except.toOption] using found
  exact ⟨grammar, compiled, within, .refl, by decide, dependent, other⟩

end Grammar

end Highlight
