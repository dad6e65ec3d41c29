import Highlight.Proofs.Definition.Settled
import Highlight.Proofs.Grammar.Places

set_option autoImplicit false

/-! The modes that a compilation has been through. Each mode that a definition leads to is compiled when the
compilation succeeds: within the mode that leads to it, or before, if it is a shared one. While modes are
being compiled, a shared mode can be one that is not done yet; so what is known all along is that whatever
has been compiled leads only to modes that have been compiled as well, or to such a shared mode. -/

namespace Highlight

open Outcome

/-- The modes to which a definition leads, as they are before shorthand is done away with, and whether another
mode contains them. A mode that stands behind another match is compiled apart from the mode for that match,
once its bounds have been settled. -/
inductive GrammarDefinition.Reaches (definition : GrammarDefinition) : Bool → ModeDefinition → Prop
  | root : Reaches definition false definition.root
  | inline {contained : Bool} {mode inner variant : ModeDefinition}
      (reached : Reaches definition contained mode) (first : mode.beforeMatch = none)
      (entry : .inline inner ∈ mode.contains) (stands : variant ∈ inner.expanded) :
      Reaches definition true variant
  | shared {contained : Bool} {mode target variant : ModeDefinition} {name : String}
      (reached : Reaches definition contained mode) (first : mode.beforeMatch = none)
      (entry : .shared name ∈ mode.contains) (found : definition.repository.find? name = some target)
      (stands : variant ∈ target.expanded) : Reaches definition true variant
  | starts {contained : Bool} {mode next : ModeDefinition}
      (reached : Reaches definition contained mode) (first : mode.beforeMatch = none)
      (follows : mode.starts = some next) : Reaches definition contained next
  | behind {contained : Bool} {mode settled variant : ModeDefinition}
      (reached : Reaches definition contained mode) (before : mode.beforeMatch.isSome = true)
      (settles : mode.settle = .ok settled) (stands : variant ∈ settled.detached.expanded) :
      Reaches definition true variant

namespace Compilation

/-- The modes that have been compiled so far, and whether another mode contains them. -/
abbrev Seen := List (Bool × ModeDefinition)

def SharedSeen (context : Context) (seen : Seen) (name : String) : Prop :=
  ∀ target, context.repository.find? name = some target →
    ∀ variant ∈ target.expanded, (true, variant) ∈ seen

/-- What an entry of what a mode contains stands for has been compiled, or will be with the shared mode
that is not done yet. -/
def EntrySeen (context : Context) (unfinished : List String) (seen : Seen) :
    ContainsEntry ModeDefinition → Prop
  | .itself => True
  | .shared name => name ∈ unfinished ∨ SharedSeen context seen name
  | .inline inner => ∀ variant ∈ inner.expanded, (true, variant) ∈ seen

/-- A mode has been compiled without a failure, and what stands within it has been or will be. -/
structure Passed (context : Context) (unfinished : List String) (seen : Seen) (contained : Bool)
    (definition normal : ModeDefinition) : Prop where
  normalized : definition.normalize contained context.extensions = .ok normal
  own : ∃ parent around own, parent.isSome = contained ∧ OwnPart context normal parent around own
  contains : ∀ entry ∈ normal.contains, EntrySeen context unfinished seen entry
  starts : ∀ next, normal.starts = some next → (contained, next) ∈ seen

structure Sees (context : Context) (unfinished : List String) (seen more : Seen) : Prop where
  kept : seen ⊆ more
  passed : ∀ contained definition, (contained, definition) ∈ more →
    (contained, definition) ∈ seen ∨
      ∃ normal, Passed context unfinished more contained definition normal

/-- The shared modes that are referred to have been compiled, or are not done yet. -/
def Covers (context : Context) (unfinished : List String) (seen : Seen) (arena : Arena) : Prop :=
  ∀ entry ∈ arena.references, entry.1.name ∈ unfinished ∨ SharedSeen context seen entry.1.name

variable {context : Context} {unfinished : List String} {seen middle more : Seen} {name : String}

theorem SharedSeen.mono (shared : SharedSeen context seen name) (kept : seen ⊆ more) :
    SharedSeen context more name :=
  fun target found variant stands => kept (shared target found variant stands)

theorem EntrySeen.mono {entry : ContainsEntry ModeDefinition}
    (entrySeen : EntrySeen context unfinished seen entry) (kept : seen ⊆ more) :
    EntrySeen context unfinished more entry := by
  cases entry with
  | itself => trivial
  | shared name => exact entrySeen.imp id fun shared => SharedSeen.mono shared kept
  | inline inner => exact fun variant stands => kept (entrySeen variant stands)

theorem EntrySeen.finish {entry : ContainsEntry ModeDefinition}
    (entrySeen : EntrySeen context (name :: unfinished) seen entry)
    (shared : SharedSeen context seen name) : EntrySeen context unfinished seen entry := by
  cases entry with
  | itself => trivial
  | shared other =>
      rcases entrySeen with among | done
      · rcases List.mem_cons.mp among with rfl | among
        · exact Or.inr shared
        · exact Or.inl among
      · exact Or.inr done
  | inline inner => exact entrySeen

theorem Passed.mono {contained : Bool} {definition normal : ModeDefinition}
    (passed : Passed context unfinished seen contained definition normal) (kept : seen ⊆ more) :
    Passed context unfinished more contained definition normal :=
  ⟨passed.normalized, passed.own, fun entry member => (passed.contains entry member).mono kept,
    fun next follows => kept (passed.starts next follows)⟩

theorem Sees.refl (context : Context) (unfinished : List String) (seen : Seen) :
    Sees context unfinished seen seen :=
  ⟨List.Subset.refl _, fun _ _ member => Or.inl member⟩

theorem Sees.trans (early : Sees context unfinished seen middle)
    (late : Sees context unfinished middle more) : Sees context unfinished seen more where
  kept := List.Subset.trans early.kept late.kept
  passed contained definition member := by
    rcases late.passed contained definition member with old | new
    · rcases early.passed contained definition old with old | ⟨normal, passed⟩
      · exact Or.inl old
      · exact Or.inr ⟨normal, passed.mono late.kept⟩
    · exact Or.inr new

theorem Sees.finish (sees : Sees context (name :: unfinished) seen more)
    (shared : SharedSeen context more name) : Sees context unfinished seen more where
  kept := sees.kept
  passed contained definition member := by
    rcases sees.passed contained definition member with old | ⟨normal, passed⟩
    · exact Or.inl old
    · exact Or.inr ⟨normal, passed.normalized, passed.own,
        fun entry within => (passed.contains entry within).finish shared, passed.starts⟩

theorem Sees.push {contained : Bool} {definition normal : ModeDefinition}
    (sees : Sees context unfinished seen more)
    (passed : Passed context unfinished more contained definition normal) :
    Sees context unfinished seen ((contained, definition) :: more) where
  kept := List.Subset.trans sees.kept (List.subset_cons_self _ _)
  passed := by
    have kept := List.subset_cons_self (contained, definition) more
    intro otherContained other member
    rcases List.mem_cons.mp member with same | old
    · obtain ⟨rfl, rfl⟩ := Prod.mk.inj same
      exact Or.inr ⟨normal, passed.mono kept⟩
    · rcases sees.passed otherContained other old with old | ⟨normal, passed⟩
      · exact Or.inl old
      · exact Or.inr ⟨normal, passed.mono kept⟩

variable {arena before after : Arena}

theorem Covers.mono (covers : Covers context unfinished seen arena) (kept : seen ⊆ more) :
    Covers context unfinished more arena :=
  fun entry member => (covers entry member).imp id fun shared => shared.mono kept

theorem Covers.finish (covers : Covers context (name :: unfinished) seen arena)
    (shared : SharedSeen context seen name) : Covers context unfinished seen arena := by
  intro entry member
  rcases covers entry member with among | done
  · rcases List.mem_cons.mp among with same | among
    · exact Or.inr (same ▸ shared)
    · exact Or.inl among
  · exact Or.inr done

/-! ### The steps of the compilation -/

def IntoSees (context : Context) (into : Into) : Prop :=
  ∀ unfinished seen pending place definition parent before done after,
    Covers context unfinished seen before →
    (into pending place definition parent).run before = .ok (done, after) →
      ∃ more, Sees context unfinished seen more ∧ (parent.isSome, definition) ∈ more ∧
        Covers context unfinished more after

/-- What has been compiled for the items of a list is known together once the last of them is done. -/
theorem mapM_sees {α β : Type} {step : α → Compile β} (known : α → Seen → Prop) {items : List α}
    {values : List β} (ran : (items.mapM step).run before = .ok (values, after))
    (covers : Covers context unfinished seen before)
    (mono : ∀ {item seen more}, known item seen → seen ⊆ more → known item more)
    (each : ∀ item {seen before value after}, Covers context unfinished seen before →
      (step item).run before = .ok (value, after) →
        ∃ more, Sees context unfinished seen more ∧ known item more ∧
          Covers context unfinished more after) :
    ∃ more, Sees context unfinished seen more ∧ (∀ item ∈ items, known item more) ∧
      Covers context unfinished more after := by
  refine @mapM_induction _ _ _ _ _ (fun done _ arena => ∃ more, Sees context unfinished seen more ∧
    (∀ item ∈ done, known item more) ∧ Covers context unfinished more arena) _ _ ran
      ⟨seen, .refl _ _ _, by simp, covers⟩ ?_
  rintro done item rest _ middle _ next - ⟨more, sees, all, covered⟩ stepped
  obtain ⟨further, later, itself, coveredNext⟩ := each item covered stepped
  refine ⟨further, sees.trans later, fun other member => ?_, coveredNext⟩
  rcases List.mem_append.mp member with early | last
  · exact mono (all other early) later.kept
  · exact List.mem_singleton.mp last ▸ itself

variable {into : Into} {pending : List Pending}

theorem compileNew_sees (intoSees : IntoSees context into) {definition : ModeDefinition}
    {parent : Option Nat} {place : Nat} (covers : Covers context unfinished seen before)
    (ran : (compileNew context into pending definition parent).run before = .ok (place, after)) :
    ∃ more, Sees context unfinished seen more ∧ (parent.isSome, definition) ∈ more ∧
      Covers context unfinished more after := by
  obtain ⟨rfl, filling⟩ := compileNew_eq_ok ran
  have grown : Covers context unfinished seen (before.grown 1) := covers
  exact intoSees _ _ _ _ _ _ _ _ _ grown filling

theorem compileShared_sees (intoSees : IntoSees context into) {parent : Nat} {places : List Nat}
    (covers : Covers context unfinished seen before)
    (ran : (compileShared context into pending parent name).run before = .ok (places, after)) :
    ∃ more, Sees context unfinished seen more ∧
      (name ∈ unfinished ∨ SharedSeen context more name) ∧ Covers context unfinished more after := by
  obtain ⟨target, found, ⟨known, rfl⟩ | ⟨rfl, expands⟩⟩ := compileShared_eq_ok ran
  · exact ⟨seen, .refl _ _ _, covers _ known, covers⟩
  · obtain ⟨units, filling⟩ := expands.filled
    -- the shared mode itself may be referred to before all of its definitions have been compiled
    have start : Covers context (name :: unfinished) seen
        (before.referring (referenceTo target name parent) target.expanded.length) := by
      intro entry member
      rcases List.mem_cons.mp member with rfl | old
      · exact Or.inl List.mem_cons_self
      · exact (covers entry old).imp (List.mem_cons_of_mem _) id
    obtain ⟨more, sees, all, covered⟩ :=
      mapM_sees (fun (item : Nat × ModeDefinition) more => (true, item.2) ∈ more) filling start
        (fun known kept => kept known)
        fun item _ _ _ _ covered stepped => intoSees _ _ _ _ _ _ _ _ _ covered stepped
    have shared : SharedSeen context more name := by
      intro other otherFound variant stands
      obtain rfl := Option.some.inj (found.symm.trans otherFound)
      rw [← sharedItems_definitions target before] at stands
      obtain ⟨item, member, rfl⟩ := List.mem_map.mp stands
      exact all item member
    exact ⟨more, sees.finish shared, Or.inr shared, covered.finish shared⟩

theorem compileEntry_sees (intoSees : IntoSees context into) {place : Nat}
    {entry : ContainsEntry ModeDefinition} {places : List Nat}
    (covers : Covers context unfinished seen before)
    (ran : (compileEntry context into pending place entry).run before = .ok (places, after)) :
    ∃ more, Sees context unfinished seen more ∧ EntrySeen context unfinished more entry ∧
      Covers context unfinished more after := by
  cases entry with
  | itself =>
      obtain ⟨_, rfl⟩ := run_pure_eq_ok.mp ran
      exact ⟨seen, .refl _ _ _, trivial, covers⟩
  | shared name => exact compileShared_sees intoSees covers ran
  | inline inner =>
      exact mapM_sees (fun variant more => (true, variant) ∈ more) ran covers
        (fun known kept => kept known) fun variant => compileNew_sees intoSees

theorem compileWith_sees (intoSees : IntoSees context into) :
    IntoSees context (compileWith context into) := by
  intro unfinished seen pending place definition parent before done after covers ran
  obtain ⟨normal, normalized, own, contains, filled, starts, started, steps⟩ := compileWith_eq_ok ran
  -- what the mode contains
  obtain ⟨within, sees, entries, covered⟩ :=
    mapM_sees (fun entry more => EntrySeen context unfinished more entry) steps.filling covers
      EntrySeen.mono fun entry => compileEntry_sees intoSees
  -- what it starts
  obtain ⟨more, later, startsSeen, coveredStarts⟩ : ∃ more, Sees context unfinished within more ∧
      (∀ next, normal.starts = some next → (parent.isSome, next) ∈ more) ∧
      Covers context unfinished more started := by
    rcases steps.starting with ⟨none_, _, rfl⟩ | ⟨next, nextPlace, follows, _, starting⟩
    · exact ⟨within, .refl _ _ _, by simp [none_], covered⟩
    · obtain ⟨more, later, itself, coveredNext⟩ := compileNew_sees intoSees covered starting
      refine ⟨more, later, fun other same => ?_, coveredNext⟩
      obtain rfl := Option.some.inj (follows.symm.trans same)
      exact itself
  have passed : Passed context unfinished more parent.isSome definition normal :=
    ⟨normalized, ⟨parent, _, own, rfl, ownPart_eq_ok steps.made⟩,
      fun entry member => (entries entry member).mono later.kept, startsSeen⟩
  obtain rfl := steps.linked
  refine ⟨_, (sees.trans later).push passed, List.mem_cons_self, fun entry member => ?_⟩
  exact coveredStarts.mono (List.subset_cons_self _ _) entry (List.mem_filter.mp member).1

theorem compileInto_sees (context : Context) (depth : Nat) :
    IntoSees context (compileInto context depth) := by
  induction depth with
  | zero =>
      intro _ _ _ _ _ _ _ _ _ _ ran
      cases ran
  | succ depth ih => exact compileWith_sees ih

theorem compileModes_sees {root : ModeDefinition} {modes : Array Mode}
    (compiled : compileModes context root = .ok modes) :
    ∃ seen, (false, root) ∈ seen ∧ ∀ contained definition, (contained, definition) ∈ seen →
      ∃ normal, Passed context [] seen contained definition normal := by
  obtain ⟨arena, filling, _⟩ := compileModes_eq_ok compiled
  have nothing : Covers context [] [] (Arena.grown {} 1) := by simp [Covers, Arena.grown]
  obtain ⟨seen, sees, itself, _⟩ :=
    compileInto_sees context context.places _ _ _ _ _ _ _ _ _ nothing filling
  exact ⟨seen, itself, fun contained definition member =>
    (sees.passed contained definition member).resolve_left (by simp)⟩

end Compilation

namespace Grammar

variable {engine : Pattern.Engine} {name : String} {definition : GrammarDefinition} {grammar : Grammar}

/-- A mode that does not stand behind another match is compiled with what stands within it. -/
theorem passed_sameWithin {context : Compilation.Context} {seen : Compilation.Seen} {contained : Bool}
    {mode normal : ModeDefinition} (plain : context.extensions = [])
    (passed : Compilation.Passed context [] seen contained mode normal)
    (first : mode.beforeMatch = none) : ModeDefinition.SameWithin mode normal := by
  have normalized := passed.normalized
  rw [plain] at normalized
  rcases ModeDefinition.normalize_cases normalized with ⟨same, _⟩ | behind
  · exact same
  · exact absurd first behind.before

/-- All modes that a definition leads to are among those that have been compiled, if the root is and
whatever these lead to. -/
theorem seen_of_reaches (plain : definition.extensions = []) {seen : Compilation.Seen}
    (root : (false, definition.root) ∈ seen)
    (all : ∀ contained mode, (contained, mode) ∈ seen → ∃ normal,
      Compilation.Passed (compilation engine definition) [] seen contained mode normal)
    {contained : Bool} {mode : ModeDefinition} (reached : definition.Reaches contained mode) :
    (contained, mode) ∈ seen := by
  induction reached with
  | root => exact root
  | @inline contained mode inner variant _ first entry stands ih =>
      obtain ⟨normal, passed⟩ := all _ _ ih
      have same := passed_sameWithin plain passed first
      have within : ∀ variant ∈ inner.expanded, (true, variant) ∈ seen :=
        passed.contains (.inline inner) (same.contains ▸ entry)
      exact within variant stands
  | @shared contained mode target variant name _ first entry found stands ih =>
      obtain ⟨normal, passed⟩ := all _ _ ih
      have same := passed_sameWithin plain passed first
      have shared : name ∈ [] ∨ Compilation.SharedSeen (compilation engine definition) seen name :=
        passed.contains (.shared name) (same.contains ▸ entry)
      exact shared.resolve_left List.not_mem_nil target found variant stands
  | @starts contained mode next _ first follows ih =>
      obtain ⟨normal, passed⟩ := all _ _ ih
      have same := passed_sameWithin plain passed first
      exact passed.starts next (same.starts.trans follows)
  | @behind contained mode settled variant _ before settles stands ih =>
      -- the mode for the match before it starts one that contains nothing but the mode
      obtain ⟨normal, passed⟩ := all _ _ ih
      have normalized := passed.normalized
      have normalizes : (compilation engine definition).extensions = [] := plain
      rw [normalizes] at normalized
      obtain ⟨⟨_, itself, starts⟩, _⟩ := ModeDefinition.normalize_of_settle_ok settles before
        (ModeDefinition.starts_of_normalize normalized before) contained
      obtain rfl := Except.ok.inj (normalized.symm.trans itself)
      obtain ⟨_, next⟩ := all _ _ (passed.starts _ starts)
      have same := passed_sameWithin plain next rfl
      have within : ∀ variant ∈ settled.detached.expanded, (true, variant) ∈ seen :=
        next.contains (.inline settled.detached) (same.contains ▸ List.mem_singleton_self _)
      exact within variant stands

/-- Each mode that a definition leads to has been compiled without a failure. -/
theorem passed_of_compile (plain : definition.extensions = [])
    (compiled : compile engine name definition = .ok grammar) {contained : Bool} {mode : ModeDefinition}
    (reached : definition.Reaches contained mode) :
    ∃ normal parent around own, mode.normalize contained [] = .ok normal ∧
      parent.isSome = contained ∧
      Compilation.OwnPart (compilation engine definition) normal parent around own := by
  obtain ⟨_, made, _⟩ := compile_eq_ok compiled
  obtain ⟨seen, root, all⟩ := Compilation.compileModes_sees made
  obtain ⟨normal, normalized, ⟨parent, around, own, same, passed⟩, _⟩ :=
    all contained mode (seen_of_reaches plain root all reached)
  have normalizes : (compilation engine definition).extensions = [] := plain
  rw [normalizes] at normalized
  exact ⟨normal, parent, around, own, normalized, same, passed⟩

end Grammar

end Highlight
