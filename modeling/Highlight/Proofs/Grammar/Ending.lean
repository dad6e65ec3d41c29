import Highlight.Proofs.Grammar.Cycles
import Highlight.Proofs.Grammar.Failures
import Highlight.Proofs.Grammar.Steps
import Highlight.Proofs.Settling

set_option autoImplicit false

/-! The compilation ends. How many modes a definition takes, and how deep they are nested, is bounded in
advance: it weighs more than the definitions within it, and shared modes that are being compiled are
`Nested`. So there is a cost for each definition, whatever else has been compiled, and with limits that
allow it they have no part in the outcome. That the shared modes stay in order all the while is proved
by comparison with a compilation that does something else as soon as they do not. -/

namespace Highlight.Compilation

open Outcome

/-- The shared modes that do not depend on the mode around them, of those that have been compiled or are
being compiled; the latest first. -/
def Arena.shared (arena : Arena) : List String :=
  (arena.references.filter fun entry => entry.1.parent == none).map (·.1.name)

/-- The shared modes that are being compiled are nested as they should be, no deeper than they can be,
and none that does not depend on the mode around it has been begun twice. -/
def Orderly (repository : Dictionary ModeDefinition) (pending : List Pending) (arena : Arena) : Prop :=
  Nested pending ∧ pending.length ≤ deepest repository ∧ arena.shared.Nodup

instance (repository : Dictionary ModeDefinition) (pending : List Pending) (arena : Arena) :
    Decidable (Orderly repository pending arena) :=
  inferInstanceAs (Decidable (_ ∧ _ ∧ _))

/-- Compiles a definition into its place as long as the shared modes are in order before, and those that
do not depend on the mode around them are still there afterwards; does something else otherwise. -/
def compileOrderly (context : Context) (otherwise : Into) : Nat → Into
  | 0 => fun _ _ _ _ => throw .tooManyModes
  | depth + 1 => fun pending place definition parent => do
    let before ← get
    if Orderly context.repository pending before then
      compileWith context (compileOrderly context otherwise depth) pending place definition parent
      let after ← get
      if before.shared <:+ after.shared then return ()
      else otherwise pending place definition parent
    else otherwise pending place definition parent

def compileModesOrderly (context : Context) (otherwise : Into) (root : ModeDefinition) :
    Except DefinitionError (Array Mode) := do
  let (_, arena) ←
    (compileNew context (compileOrderly context otherwise context.places) [] root none).run {}
  return arena.modes

namespace Context

def limited (context : Context) (places : Nat) : Context :=
  { context with places }

end Context

/-! ### Shared modes in the arena -/

namespace Arena

variable {arena : Arena} {place count : Nat}

@[simp] theorem shared_grown : (arena.grown count).shared = arena.shared := rfl

@[simp] theorem shared_put (mode : Mode) : (arena.put place mode).shared = arena.shared := rfl

@[simp] theorem shared_link (contains : List Nat) (starts : Option Nat) :
    (arena.link place contains starts).shared = arena.shared := by
  unfold shared link
  rw [List.filter_filter]
  congr 1
  refine List.filter_congr fun entry _ => ?_
  cases entry.1.parent <;> simp

theorem shared_referring (definition : ModeDefinition) (name : String) :
    (arena.referring (referenceTo definition name place) count).shared =
      if definition.dependsOnParent then arena.shared else name :: arena.shared := by
  unfold shared referring referenceTo
  cases definition.dependsOnParent <;> simp

theorem mem_shared {name : String} :
    name ∈ arena.shared ↔ ∃ places, ({ name, parent := none }, places) ∈ arena.references := by
  unfold shared
  constructor
  · intro member
    obtain ⟨⟨⟨_, parent⟩, places⟩, among, rfl⟩ := List.mem_map.mp member
    obtain ⟨among, none_⟩ := List.mem_filter.mp among
    obtain rfl : parent = none := by simpa using none_
    exact ⟨places, among⟩
  · rintro ⟨places, among⟩
    exact List.mem_map.mpr ⟨_, List.mem_filter.mpr ⟨among, rfl⟩, rfl⟩

theorem not_mem_of_lookup?_eq_none {reference : Reference} {places : List Nat}
    (missing : arena.lookup? reference = none) : (reference, places) ∉ arena.references := by
  intro member
  have none_ := List.find?_eq_none.mp (Option.map_eq_none_iff.mp missing) _ member
  simp at none_

end Arena

/-! ### Costs -/

structure Limits where
  places : Nat
  depth : Nat

def Limits.Allow (limits : Limits) (arena : Arena) (cost : Nat) : Prop :=
  arena.modes.size + cost ≤ limits.places ∧ cost ≤ limits.depth

/-- Limits that are the same, or that both have room. -/
def Comparable (left right : Limits) (arena : Arena) (cost : Nat) : Prop :=
  left = right ∨ left.Allow arena cost ∧ right.Allow arena cost

/-- A step that takes up to so many modes. It comes to the same with all limits that allow these, and
with the guarded step; it is endless only if a shared mode is cyclic, and leaves the shared modes in
order. -/
structure Costs (repository : Dictionary ModeDefinition) (cost : Nat) {α : Type}
    (guarded plain : Limits → Compile α) (before : Arena) : Prop where
  same : ∀ left right, Comparable left right before cost →
    (guarded left).run before = (plain right).run before
  outcome : ∀ limits, Satisfies
    (fun failure => (failure = .tooManyModes → ¬limits.Allow before cost) ∧
      ∀ name, failure = .endlessShared name → Cyclic repository name)
    (fun result : α × Arena => result.2.modes.size ≤ before.modes.size + cost ∧
      before.shared <:+ result.2.shared ∧ result.2.shared.Nodup)
    ((plain limits).run before)

theorem Limits.Allow.mono {limits : Limits} {arena : Arena} {cost less : Nat}
    (allow : limits.Allow arena cost) (within : less ≤ cost) : limits.Allow arena less :=
  ⟨Nat.le_trans (Nat.add_le_add_left within _) allow.1, Nat.le_trans within allow.2⟩

theorem Comparable.mono {left right : Limits} {arena : Arena} {cost less : Nat}
    (comparable : Comparable left right arena cost) (within : less ≤ cost) :
    Comparable left right arena less :=
  comparable.imp id fun both => ⟨both.1.mono within, both.2.mono within⟩

namespace Costs

variable {repository : Dictionary ModeDefinition} {α β : Type} {cost more : Nat}
  {guarded plain : Limits → Compile α} {before : Arena}

theorem mono (costs : Costs repository cost guarded plain before) (within : cost ≤ more) :
    Costs repository more guarded plain before where
  same left right comparable := costs.same left right (comparable.mono within)
  outcome limits := by
    refine ⟨fun failure failed => ?_, fun result ran => ?_⟩
    · obtain ⟨room, endless⟩ := (costs.outcome limits).fails failure failed
      exact ⟨fun many allow => room many (allow.mono within), endless⟩
    · obtain ⟨size, kept, distinct⟩ := (costs.outcome limits).gives result ran
      exact ⟨by omega, kept, distinct⟩

theorem pure {value : α} (distinct : before.shared.Nodup) :
    Costs repository 0 (fun _ => Pure.pure value) (fun _ => Pure.pure value) before :=
  ⟨fun _ _ _ => rfl, fun _ => .ok ⟨Nat.le_refl _, List.suffix_rfl, distinct⟩⟩

theorem modify {change : Arena → Arena} (size : (change before).modes.size = before.modes.size)
    (kept : before.shared <:+ (change before).shared) (distinct : (change before).shared.Nodup) :
    Costs repository 0 (fun _ => MonadState.modifyGet fun arena => (PUnit.unit, change arena))
      (fun _ => MonadState.modifyGet fun arena => (PUnit.unit, change arena)) before :=
  ⟨fun _ _ _ => rfl, fun _ => .ok ⟨Nat.le_of_eq size, kept, distinct⟩⟩

theorem get {guarded plain : Limits → Arena → Compile α}
    (costs : Costs repository cost (fun limits => guarded limits before)
      (fun limits => plain limits before) before) :
    Costs repository cost (fun limits => MonadState.get >>= guarded limits)
      (fun limits => MonadState.get >>= plain limits) before :=
  ⟨costs.same, costs.outcome⟩

theorem lift {outcome : Except DefinitionError α} (fails : FailsAlone outcome)
    (distinct : before.shared.Nodup) :
    Costs repository 0 (fun _ => liftM outcome) (fun _ => liftM outcome) before := by
  refine ⟨fun _ _ _ => rfl, fun _ => ?_⟩
  cases came : outcome with
  | error failure =>
      obtain ⟨room, endless⟩ := fails.fails failure came
      exact .error ⟨fun many => absurd many room, fun name same => absurd same (endless name)⟩
  | ok value => exact .ok ⟨Nat.le_refl _, List.suffix_rfl, distinct⟩

theorem throw {failure : DefinitionError} (room : failure ≠ .tooManyModes)
    (endless : ∀ name, failure = .endlessShared name → Cyclic repository name) :
    Costs repository 0 (fun _ => (MonadExcept.throw failure : Compile α))
      (fun _ => MonadExcept.throw failure) before :=
  ⟨fun _ _ _ => rfl, fun _ => .error ⟨fun many => absurd many room, endless⟩⟩

theorem congr {otherGuarded otherPlain : Limits → Compile α}
    (costs : Costs repository cost guarded plain before)
    (guardedSame : ∀ limits, (otherGuarded limits).run before = (guarded limits).run before)
    (plainSame : ∀ limits, (otherPlain limits).run before = (plain limits).run before) :
    Costs repository cost otherGuarded otherPlain before where
  same left right comparable := by
    rw [guardedSame, plainSame]
    exact costs.same left right comparable
  outcome limits := by
    rw [plainSame]
    exact costs.outcome limits

theorem bind {next plainNext : Limits → α → Compile β}
    (costs : Costs repository cost guarded plain before)
    (onward : ∀ value middle, (∃ limits, (plain limits).run before = .ok (value, middle)) →
      before.shared <:+ middle.shared → middle.shared.Nodup →
      Costs repository more (fun limits => next limits value)
        (fun limits => plainNext limits value) middle) :
    Costs repository (cost + more) (fun limits => guarded limits >>= next limits)
      (fun limits => plain limits >>= plainNext limits) before where
  same left right comparable := by
    rw [StateT.run_bind, StateT.run_bind, costs.same left right (comparable.mono (by omega))]
    cases ran : (plain right).run before with
    | error failure => rfl
    | ok result =>
        obtain ⟨size, kept, distinct⟩ := (costs.outcome right).gives result ran
        rw [ok_bind, ok_bind]
        refine (onward result.1 result.2 ⟨right, ran⟩ kept distinct).same left right ?_
        exact comparable.imp id fun ⟨⟨one, two⟩, three, four⟩ =>
          ⟨⟨by omega, by omega⟩, by omega, by omega⟩
  outcome limits := by
    rw [StateT.run_bind]
    cases ran : (plain limits).run before with
    | error failure =>
        obtain ⟨room, endless⟩ := (costs.outcome limits).fails failure ran
        exact .error ⟨fun many allow => room many (allow.mono (by omega)), endless⟩
    | ok result =>
        obtain ⟨size, kept, distinct⟩ := (costs.outcome limits).gives result ran
        have later := (onward result.1 result.2 ⟨limits, ran⟩ kept distinct).outcome limits
        refine ⟨fun failure failed => ?_, fun last lastRan => ?_⟩
        · obtain ⟨room, endless⟩ := later.fails failure failed
          exact ⟨fun many ⟨one, two⟩ => room many ⟨by omega, by omega⟩, endless⟩
        · obtain ⟨lastSize, lastKept, lastDistinct⟩ := later.gives last lastRan
          exact ⟨by omega, kept.trans lastKept, lastDistinct⟩

theorem mapM {γ : Type} {items : List γ} {step plainStep : Limits → γ → Compile β}
    (distinct : before.shared.Nodup)
    (each : ∀ item ∈ items, ∀ middle, before.shared <:+ middle.shared → middle.shared.Nodup →
      Costs repository cost (fun limits => step limits item)
        (fun limits => plainStep limits item) middle) :
    Costs repository (items.length * cost) (fun limits => items.mapM (step limits))
      (fun limits => items.mapM (plainStep limits)) before := by
  induction items generalizing before with
  | nil => simpa using Costs.pure distinct
  | cons item rest ih =>
      simp only [List.mapM_cons, List.length_cons, Nat.succ_mul]
      rw [Nat.add_comm]
      refine (each item List.mem_cons_self before List.suffix_rfl distinct).bind
        fun value middle _ kept distinct => ?_
      refine Costs.mono (Costs.bind (ih distinct fun other member last lastKept => ?_)
        fun values last _ _ distinct => Costs.pure distinct) (Nat.le_refl _)
      exact each other (List.mem_cons_of_mem _ member) last (kept.trans lastKept)

theorem forM {γ : Type} {items : List γ} {step plainStep : Limits → γ → Compile PUnit}
    (distinct : before.shared.Nodup)
    (each : ∀ item ∈ items, ∀ middle, before.shared <:+ middle.shared → middle.shared.Nodup →
      Costs repository cost (fun limits => step limits item)
        (fun limits => plainStep limits item) middle) :
    Costs repository (items.length * cost) (fun limits => items.forM (step limits))
      (fun limits => items.forM (plainStep limits)) before := by
  induction items generalizing before with
  | nil => simpa using Costs.pure distinct
  | cons item rest ih =>
      simp only [List.length_cons, Nat.succ_mul]
      rw [Nat.add_comm]
      refine (each item List.mem_cons_self before List.suffix_rfl distinct).bind
        fun value middle _ kept distinct => ih distinct fun other member last lastKept => ?_
      exact each other (List.mem_cons_of_mem _ member) last (kept.trans lastKept)

end Costs

/-! ### The steps of the compilation -/

/-- The shared modes that are being compiled and do not depend on the mode around them are there. -/
structure Ready (pending : List Pending) (arena : Arena) : Prop where
  distinct : arena.shared.Nodup
  begun : ∀ entry ∈ pending, entry.dependsOnParent = false → entry.name ∈ arena.shared

section

variable {context : Context} {otherwise : Into} {pending : List Pending} {before middle : Arena}
  {definition : ModeDefinition} {cost : Nat}

theorem Ready.later (ready : Ready pending before) (kept : before.shared <:+ middle.shared)
    (distinct : middle.shared.Nodup) : Ready pending middle :=
  ⟨distinct, fun entry member alone => kept.subset (ready.begun entry member alone)⟩

abbrev guardedInto (context : Context) (otherwise : Into) (limits : Limits) : Into :=
  compileOrderly (context.limited limits.places) otherwise limits.depth

abbrev plainInto (context : Context) (limits : Limits) : Into :=
  compileInto (context.limited limits.places) limits.depth

def CostsInto (context : Context) (otherwise : Into) (pending : List Pending)
    (definition : ModeDefinition) (contained : Bool) (cost : Nat) : Prop :=
  ∀ place parent before, parent.isSome = contained → Ready pending before →
    Costs context.repository cost
      (fun limits => guardedInto context otherwise limits pending place definition parent)
      (fun limits => plainInto context limits pending place definition parent) before

def CostsEntry (context : Context) (otherwise : Into) (pending : List Pending)
    (entry : ContainsEntry ModeDefinition) (cost : Nat) : Prop :=
  ∀ place before, Ready pending before →
    Costs context.repository cost
      (fun limits => compileEntry (context.limited limits.places)
        (guardedInto context otherwise limits) pending place entry)
      (fun limits => compileEntry (context.limited limits.places) (plainInto context limits) pending
        place entry) before

theorem CostsInto.mono {contained : Bool} {more : Nat} (within : cost ≤ more)
    (costs : CostsInto context otherwise pending definition contained cost) :
    CostsInto context otherwise pending definition contained more :=
  fun place parent before same ready => (costs place parent before same ready).mono within

theorem CostsEntry.mono {entry : ContainsEntry ModeDefinition} {more : Nat} (within : cost ≤ more)
    (costs : CostsEntry context otherwise pending entry cost) :
    CostsEntry context otherwise pending entry more :=
  fun place before ready => (costs place before ready).mono within

theorem reserve_run (context : Context) (before : Arena) : (reserve context).run before =
    if before.modes.size < context.places then .ok (before.modes.size, before.grown 1)
    else .error .tooManyModes := by
  by_cases room : before.modes.size < context.places
  · rw [if_pos room]
    have pushed : before.grown 1 = { before with modes := before.modes.push {} } := by
      simp [Arena.grown]
    rw [pushed]
    change (if before.modes.size < context.places then _ else _ : Compile Nat).run before = _
    rw [if_pos room]
    rfl
  · rw [if_neg room]
    change (if before.modes.size < context.places then _ else _ : Compile Nat).run before = _
    rw [if_neg room]
    rfl

theorem reserve_costs (repository : Dictionary ModeDefinition) (distinct : before.shared.Nodup) :
    Costs repository 1 (fun limits => reserve (context.limited limits.places))
      (fun limits => reserve (context.limited limits.places)) before where
  same left right comparable := by
    rw [reserve_run, reserve_run]
    rcases comparable with rfl | ⟨one, two⟩
    · rfl
    · have leftRoom : before.modes.size < (context.limited left.places).places :=
        Nat.lt_of_succ_le one.1
      have rightRoom : before.modes.size < (context.limited right.places).places :=
        Nat.lt_of_succ_le two.1
      rw [if_pos leftRoom, if_pos rightRoom]
  outcome limits := by
    rw [reserve_run]
    split
    · exact .ok ⟨by simp, List.suffix_rfl, distinct⟩
    · rename_i full
      exact .error ⟨fun _ allow => full (Nat.lt_of_succ_le allow.1), by simp⟩

theorem compileNew_costs {contained : Bool}
    (costs : CostsInto context otherwise pending definition contained cost) {parent : Option Nat}
    (same : parent.isSome = contained) (ready : Ready pending before) :
    Costs context.repository (1 + cost)
      (fun limits => compileNew (context.limited limits.places)
        (guardedInto context otherwise limits) pending definition parent)
      (fun limits => compileNew (context.limited limits.places) (plainInto context limits) pending
        definition parent) before := by
  refine (reserve_costs context.repository ready.distinct).bind fun place middle _ kept distinct => ?_
  refine Costs.mono (Costs.bind (costs place parent middle same (ready.later kept distinct))
    fun _ last _ _ distinct => Costs.pure distinct) (Nat.le_refl _)

theorem inline_costs {inner : ModeDefinition}
    (costs : ∀ variant ∈ inner.expanded, CostsInto context otherwise pending variant true cost) :
    CostsEntry context otherwise pending (.inline inner) (inner.expanded.length * (1 + cost)) := by
  intro place before ready
  exact Costs.mapM ready.distinct fun variant member middle kept distinct =>
    compileNew_costs (costs variant member) rfl (ready.later kept distinct)

theorem Ready.referring {name : String} {shared : ModeDefinition} {parent count : Nat}
    (ready : Ready pending before)
    (missing : before.lookup? (referenceTo shared name parent) = none) :
    Ready ({ name, dependsOnParent := shared.dependsOnParent } :: pending)
      (before.referring (referenceTo shared name parent) count) := by
  have after := @Arena.shared_referring before parent count shared name
  cases depends : shared.dependsOnParent with
  | true =>
      rw [depends, if_pos rfl] at after
      refine ⟨after ▸ ready.distinct, fun entry member alone => ?_⟩
      rcases List.mem_cons.mp member with rfl | old
      · cases alone
      · exact after ▸ ready.begun entry old alone
  | false =>
      rw [depends, if_neg Bool.false_ne_true] at after
      have new : name ∉ before.shared := by
        intro member
        obtain ⟨places, among⟩ := Arena.mem_shared.mp member
        rw [referenceTo, depends] at missing
        exact Arena.not_mem_of_lookup?_eq_none missing among
      refine ⟨after ▸ List.nodup_cons.mpr ⟨new, ready.distinct⟩, fun entry member alone => ?_⟩
      rcases List.mem_cons.mp member with rfl | old
      · exact after ▸ List.mem_cons_self
      · exact after ▸ List.mem_cons_of_mem _ (ready.begun entry old alone)

theorem Arena.shared_suffix_referring (arena : Arena) (definition : ModeDefinition) (name : String)
    (parent count : Nat) :
    arena.shared <:+ (arena.referring (referenceTo definition name parent) count).shared := by
  rw [Arena.shared_referring]
  split
  · exact List.suffix_rfl
  · exact List.suffix_cons _ _

theorem expand_costs {name : String} {shared : ModeDefinition} {parent : Nat}
    (costs : ∀ variant ∈ shared.expanded, CostsInto context otherwise
      ({ name, dependsOnParent := shared.dependsOnParent } :: pending) variant true cost)
    (ready : Ready pending before)
    (missing : before.lookup? (referenceTo shared name parent) = none) :
    Costs context.repository (shared.expanded.length * (1 + cost))
      (fun limits => expand (context.limited limits.places) (guardedInto context otherwise limits)
        pending name shared parent)
      (fun limits => expand (context.limited limits.places) (plainInto context limits) pending name
        shared parent) before := by
  rw [Nat.mul_add]
  refine (Costs.mapM ready.distinct fun _ _ middle _ distinct =>
    reserve_costs context.repository distinct).bind fun places middle reserved _ _ => ?_
  obtain ⟨_, reserved⟩ := reserved
  obtain ⟨rfl, rfl⟩ := reserveAll_eq_ok reserved
  have started := @Ready.referring pending before name shared parent shared.expanded.length ready missing
  rw [← Nat.zero_add (shared.expanded.length * cost)]
  refine Costs.bind (Costs.modify rfl (before.shared_suffix_referring shared name parent _)
    started.distinct) fun _ middle referred _ _ => ?_
  obtain ⟨_, referred⟩ := referred
  obtain rfl := run_modify_eq_ok.mp referred
  have filled := @Costs.forM context.repository cost _ _ (sharedItems shared before) _ _
    started.distinct fun item member middle kept distinct =>
      costs item.2 (mem_expanded_of_sharedItems member) item.1 (some parent) middle rfl
        (started.later kept distinct)
  refine Costs.mono (Costs.bind filled fun _ last _ _ distinct => Costs.pure distinct) ?_
  simp [sharedItems]

theorem Ready.lookup?_ne_none {name : String} {shared : ModeDefinition} (ready : Ready pending before)
    (known : ∀ entry ∈ pending, Known context.repository entry)
    (found : context.repository.find? name = some shared) (alone : shared.dependsOnParent = false)
    (begun : name ∈ pending.map Pending.name) (parent : Nat) :
    before.lookup? (referenceTo shared name parent) ≠ none := by
  intro missing
  obtain ⟨entry, member, rfl⟩ := List.mem_map.mp begun
  obtain ⟨definition, foundToo, depends⟩ := known entry member
  obtain rfl := Option.some.inj (found.symm.trans foundToo)
  obtain ⟨places, among⟩ :=
    Arena.mem_shared.mp (ready.begun entry member (depends.symm.trans alone))
  rw [referenceTo, alone] at missing
  exact Arena.not_mem_of_lookup?_eq_none missing among

/-- A shared mode that is mentioned costs nothing if it may not be compiled within those that are being
compiled: either it is there or its compilation would be endless. -/
theorem shared_costs {name : String} (traced : Traced context.repository pending definition)
    (mentioned : definition.Mentions name)
    (deeper : ∀ shared, context.repository.find? name = some shared →
      Nested ({ name, dependsOnParent := shared.dependsOnParent } :: pending) →
      ∀ variant ∈ shared.expanded, ∃ cost, CostsInto context otherwise
        ({ name, dependsOnParent := shared.dependsOnParent } :: pending) variant true cost) :
    ∃ cost, CostsEntry context otherwise pending (.shared name) cost := by
  cases found : context.repository.find? name with
  | none =>
      refine ⟨0, fun place before ready => ?_⟩
      have unknown (into : Limits → Into) (limits : Limits) :=
        @compileShared_unknown (context.limited limits.places) (into limits) pending before place name
          found
      exact (Costs.throw (by simp) (by simp)).congr (unknown _) (unknown _)
  | some shared =>
      -- the cost if it may be compiled here
      have bounded : ∃ cost, Nested ({ name, dependsOnParent := shared.dependsOnParent } :: pending) →
          ∀ variant ∈ shared.expanded, CostsInto context otherwise
            ({ name, dependsOnParent := shared.dependsOnParent } :: pending) variant true cost := by
        by_cases nested : Nested ({ name, dependsOnParent := shared.dependsOnParent } :: pending)
        · obtain ⟨cost, costs⟩ := @exists_bound _ _
            (fun variant => CostsInto context otherwise
              ({ name, dependsOnParent := shared.dependsOnParent } :: pending) variant true)
            (fun _ _ _ => CostsInto.mono) (deeper shared found nested)
          exact ⟨cost, fun _ => costs⟩
        · exact ⟨0, fun may => absurd may nested⟩
      obtain ⟨cost, costs⟩ := bounded
      refine ⟨shared.expanded.length * (1 + cost), fun place before ready => ?_⟩
      have opened (into : Limits → Into) (limits : Limits) :=
        @compileShared_run (context.limited limits.places) (into limits) pending before place name
          shared found
      cases lookedUp : before.lookup? (referenceTo shared name place) with
      | some places =>
          simp only [lookedUp] at opened
          exact ((Costs.pure ready.distinct).mono (Nat.zero_le _)).congr (opened _) (opened _)
      | none =>
          by_cases endless : (shared.dependsOnParent && isEndless pending name) = true
          · simp only [lookedUp, endless, if_true] at opened
            refine ((Costs.throw (by simp) fun other same => ?_).mono (Nat.zero_le _)).congr
              (opened _) (opened _)
            obtain rfl := DefinitionError.endlessShared.inj same
            exact traced.cyclic mentioned (Bool.and_eq_true_iff.mp endless).2
          · simp only [lookedUp, endless] at opened
            refine (expand_costs (costs ?_) ready lookedUp).congr (opened _) (opened _)
            have begun : shared.dependsOnParent = false → name ∉ pending.map Pending.name :=
              fun alone within => ready.lookup?_ne_none traced.known found alone within place lookedUp
            refine ⟨fun within => ?_, begun, traced.nested⟩
            obtain ⟨entry, member, same⟩ := List.mem_map.mp within
            cases depends : shared.dependsOnParent with
            | true =>
                exact endless (by
                  rw [depends, Bool.true_and]
                  exact List.any_eq_true.mpr ⟨entry, member, by simpa using same⟩)
            | false =>
                exact begun depends
                  (List.mem_map.mpr ⟨entry, List.takeWhile_subset _ member, same⟩)

structure CostsWithin (context : Context) (otherwise : Into) (pending : List Pending)
    (definition : ModeDefinition) : Prop where
  deeper : ∀ name shared, definition.Mentions name →
    context.repository.find? name = some shared →
    Nested ({ name, dependsOnParent := shared.dependsOnParent } :: pending) →
    ∀ variant ∈ shared.expanded, ∃ cost, CostsInto context otherwise
      ({ name, dependsOnParent := shared.dependsOnParent } :: pending) variant true cost
  smaller : ∀ part contained, part.weight < definition.weight →
    (∀ name, part.Mentions name → definition.Mentions name) →
    ∃ cost, CostsInto context otherwise pending part contained cost

theorem entry_costs {normal : ModeDefinition} {contained : Bool}
    (traced : Traced context.repository pending definition)
    (normalized : definition.normalize contained [] = .ok normal)
    (within : CostsWithin context otherwise pending definition)
    {entry : ContainsEntry ModeDefinition} (member : entry ∈ normal.contains) :
    ∃ cost, CostsEntry context otherwise pending entry cost := by
  cases entry with
  | itself => exact ⟨0, fun place before ready => Costs.pure ready.distinct⟩
  | shared name =>
      have mentioned := ModeDefinition.Mentions.shared normalized member
      exact shared_costs traced mentioned fun shared found =>
        within.deeper name shared mentioned found
  | inline inner =>
      obtain ⟨cost, costs⟩ := @exists_bound _ _
        (fun variant => CostsInto context otherwise pending variant true)
        (fun _ _ _ => CostsInto.mono) fun variant stands =>
          within.smaller variant true (ModeDefinition.weight_lt_of_contained normalized member stands)
            fun name => ModeDefinition.Mentions.contained normalized member stands
      exact ⟨_, inline_costs costs⟩

theorem starts_costs {contained : Bool} {starts : Option ModeDefinition}
    (costs : ∀ next, starts = some next →
      CostsInto context otherwise pending next contained cost)
    {parent : Option Nat} (same : parent.isSome = contained) (ready : Ready pending before) :
    Costs context.repository (1 + cost)
      (fun limits => starts.mapM fun next => compileNew (context.limited limits.places)
        (guardedInto context otherwise limits) pending next parent)
      (fun limits => starts.mapM fun next => compileNew (context.limited limits.places)
        (plainInto context limits) pending next parent) before := by
  cases starts with
  | none => exact (Costs.pure ready.distinct).mono (Nat.zero_le _)
  | some next =>
      simp only [Option.mapM_some, map_eq_pure_bind]
      exact (compileNew_costs (costs next rfl) same ready).bind fun _ _ _ _ distinct =>
        Costs.pure distinct

theorem normal_costs {normal : ModeDefinition} {contained : Bool} {entryCost nextCost : Nat}
    (plain : context.extensions = []) (normalized : definition.normalize contained [] = .ok normal)
    (entries : ∀ entry ∈ normal.contains, CostsEntry context otherwise pending entry entryCost)
    (next : ∀ next, normal.starts = some next →
      CostsInto context otherwise pending next contained nextCost)
    {place : Nat} {parent : Option Nat} (same : parent.isSome = contained)
    (ready : Ready pending before) :
    Costs context.repository (normal.contains.length * entryCost + (1 + nextCost))
      (fun limits => compileWith (context.limited limits.places)
        (guardedInto context otherwise limits) pending place definition parent)
      (fun limits => compileWith (context.limited limits.places) (plainInto context limits) pending
        place definition parent) before := by
  rw [← Nat.zero_add (_ + _)]
  refine Costs.bind (Costs.lift (definition.normalize_failsAlone _ _) ready.distinct)
    fun other middle normalizing _ _ => ?_
  obtain ⟨_, normalizing⟩ := normalizing
  obtain ⟨otherwiseNormalized, rfl⟩ := run_lift_eq_ok.mp normalizing
  change definition.normalize parent.isSome context.extensions = .ok other at otherwiseNormalized
  rw [same, plain, normalized] at otherwiseNormalized
  obtain rfl := Except.ok.inj otherwiseNormalized
  refine Costs.get ?_
  rw [← Nat.zero_add (_ + _)]
  refine Costs.bind (Costs.lift (ownPart_failsAlone context normal parent _) ready.distinct)
    fun own middle _ kept distinct => ?_
  rw [← Nat.zero_add (_ + _)]
  refine Costs.bind (Costs.modify (Arena.size_put middle place own) List.suffix_rfl distinct)
    fun _ placed _ placedKept distinct => ?_
  have placedReady := ready.later (kept.trans placedKept) distinct
  refine Costs.bind (Costs.mapM distinct fun entry member last lastKept distinct =>
    entries entry member place last (placedReady.later lastKept distinct))
    fun contains filled _ filledKept distinct => ?_
  rw [← Nat.add_zero (1 + nextCost)]
  refine Costs.bind (starts_costs next same (placedReady.later filledKept distinct))
    fun starts started _ _ distinct => ?_
  exact Costs.modify (Arena.size_link started place _ _)
    (by simp) (by simpa using distinct)

theorem compileOrderly_run {depth place : Nat} {parent : Option Nat}
    (orderly : Orderly context.repository pending before)
    (kept : ∀ result, (compileWith context (compileOrderly context otherwise depth) pending place
      definition parent).run before = .ok result → before.shared <:+ result.2.shared) :
    (compileOrderly context otherwise (depth + 1) pending place definition parent).run before =
      (compileWith context (compileOrderly context otherwise depth) pending place definition
        parent).run before := by
  change (if Orderly context.repository pending before then _ else _ : Compile Unit).run before = _
  rw [if_pos orderly, StateT.run_bind]
  cases ran : (compileWith context (compileOrderly context otherwise depth) pending place definition
      parent).run before with
  | error failure => rfl
  | ok result =>
      change (if before.shared <:+ result.2.shared then _ else _ : Compile Unit).run result.2 = _
      rw [if_pos (kept result ran)]
      rfl

/-- While the shared modes are in order, a guarded way to compile a definition does what the plain one
does. -/
theorem into_costs {place : Nat} {parent : Option Nat}
    (traced : Traced context.repository pending definition) (ready : Ready pending before)
    (costs : Costs context.repository cost
      (fun limits => compileWith (context.limited limits.places)
        (guardedInto context otherwise limits) pending place definition parent)
      (fun limits => compileWith (context.limited limits.places) (plainInto context limits) pending
        place definition parent) before) :
    Costs context.repository (cost + 1)
      (fun limits => guardedInto context otherwise limits pending place definition parent)
      (fun limits => plainInto context limits pending place definition parent) before where
  same left right comparable := by
    obtain ⟨leftPlaces, leftDepth⟩ := left
    obtain ⟨rightPlaces, rightDepth⟩ := right
    -- without any depth left, both limits are the same
    cases leftDepth with
    | zero =>
        rcases comparable with same | ⟨allow, _⟩
        · obtain ⟨rfl, rfl⟩ := Limits.mk.inj same
          rfl
        · exact absurd allow.2 (Nat.not_succ_le_zero _)
    | succ leftDepth =>
        cases rightDepth with
        | zero =>
            rcases comparable with same | ⟨_, allow⟩
            · cases (Limits.mk.inj same).2
            · exact absurd allow.2 (Nat.not_succ_le_zero _)
        | succ rightDepth =>
            have within : Comparable ⟨leftPlaces, leftDepth⟩ ⟨rightPlaces, rightDepth⟩ before cost := by
              rcases comparable with same | ⟨⟨one, two⟩, three, four⟩
              · obtain ⟨rfl, rfl⟩ : leftPlaces = rightPlaces ∧ leftDepth = rightDepth := by
                  simpa using same
                exact Or.inl rfl
              · exact Or.inr ⟨⟨by dsimp only at one ⊢; omega, Nat.le_of_succ_le_succ two⟩,
                  by dsimp only at three ⊢; omega, Nat.le_of_succ_le_succ four⟩
            have stepped := costs.same _ _ within
            have orderly : Orderly (context.limited leftPlaces).repository pending before :=
              ⟨traced.nested, traced.nested.length_le traced.known, ready.distinct⟩
            refine (compileOrderly_run orderly fun result ran => ?_).trans stepped
            exact ((costs.outcome ⟨rightPlaces, rightDepth⟩).gives result (stepped.symm.trans ran)).2.1
  outcome limits := by
    obtain ⟨places, depth⟩ := limits
    cases depth with
    | zero => exact .error ⟨fun _ allow => Nat.not_succ_le_zero _ allow.2, by simp⟩
    | succ depth =>
        refine ⟨fun failure failed => ?_, fun result ran => ?_⟩
        · obtain ⟨room, endless⟩ := (costs.outcome ⟨places, depth⟩).fails failure failed
          refine ⟨fun many allow => room many ⟨?_, Nat.le_of_succ_le_succ allow.2⟩, endless⟩
          exact Nat.le_trans (Nat.le_succ _) allow.1
        · obtain ⟨size, kept, distinct⟩ := (costs.outcome ⟨places, depth⟩).gives result ran
          exact ⟨by omega, kept, distinct⟩

theorem exists_costs (plain : context.extensions = [])
    (traced : Traced context.repository pending definition)
    (within : CostsWithin context otherwise pending definition) (contained : Bool) :
    ∃ cost, CostsInto context otherwise pending definition contained cost := by
  cases normalized : definition.normalize contained [] with
  | error failure =>
      refine ⟨0 + 0 + 1, fun place parent before same ready => into_costs traced ready ?_⟩
      refine Costs.bind (Costs.lift (definition.normalize_failsAlone _ _) ready.distinct)
        fun other middle normalizing _ _ => ?_
      obtain ⟨_, normalizing⟩ := normalizing
      have otherwiseNormalized : definition.normalize parent.isSome context.extensions = .ok other :=
        (run_lift_eq_ok.mp normalizing).1
      rw [same, plain, normalized] at otherwiseNormalized
      cases otherwiseNormalized
  | ok normal =>
      obtain ⟨entryCost, entries⟩ := @exists_bound _ normal.contains
        (CostsEntry context otherwise pending) (fun _ _ _ => CostsEntry.mono)
        fun entry member => entry_costs traced normalized within member
      obtain ⟨nextCost, next⟩ := @exists_bound _ normal.starts.toList
        (fun next => CostsInto context otherwise pending next contained)
        (fun _ _ _ => CostsInto.mono) fun next follows =>
          within.smaller next contained
            (ModeDefinition.weight_lt_of_started normalized (Option.mem_toList.mp follows))
            fun name => ModeDefinition.Mentions.started normalized (Option.mem_toList.mp follows)
      exact ⟨_, fun place parent before same ready => into_costs traced ready
        (normal_costs plain normalized entries
          (fun other follows => next other (Option.mem_toList.mpr follows)) same ready)⟩

/-- Each definition costs a number of modes. Shared modes that are compiled within it leave fewer that
can be; all others within it weigh less. -/
theorem costs_of_traced {pending : List Pending} {definition : ModeDefinition}
    (plain : context.extensions = []) (traced : Traced context.repository pending definition) (contained : Bool) :
    ∃ cost, CostsInto context otherwise pending definition contained cost :=
  exists_costs plain traced
    { deeper := fun _ _ mentioned found nested _ stands =>
        have pushed := traced.push mentioned found nested stands
        costs_of_traced plain pushed true
      smaller := fun _ contained _ mentions =>
        costs_of_traced plain (traced.part mentions) contained } contained
termination_by (deepest context.repository - pending.length, definition.weight)
decreasing_by
  · have room := pushed.nested.length_le pushed.known
    simp only [List.length_cons] at room ⊢
    exact Prod.Lex.left _ _ (by omega)
  · exact Prod.Lex.right _ ‹_›

theorem root_costs (plain : context.extensions = []) (otherwise : Into) (root : ModeDefinition) :
    ∃ cost, Costs context.repository cost
      (fun limits => compileNew (context.limited limits.places)
        (guardedInto context otherwise limits) [] root none)
      (fun limits => compileNew (context.limited limits.places) (plainInto context limits) [] root
        none) {} := by
  have traced : Traced context.repository [] root := ⟨by simp, trivial, .nil, by simp⟩
  obtain ⟨cost, costs⟩ := @costs_of_traced context otherwise [] root plain traced false
  exact ⟨1 + cost, compileNew_costs costs rfl ⟨List.nodup_nil, by simp⟩⟩

/-- The compilation comes to the same, and does not run out of modes, however many there can be from
some number on. -/
theorem compileModes_settles (plain : context.extensions = []) (root : ModeDefinition) :
    Settles (fun outcome => outcome ≠ .error .tooManyModes)
      fun places => compileModes (context.limited places) root := by
  obtain ⟨cost, costs⟩ := root_costs plain (fun _ _ _ _ => throw .tooManyModes) root
  have allow : ∀ places, cost ≤ places → Limits.Allow ⟨places, places⟩ {} cost :=
    fun places enough => ⟨by simpa using enough, enough⟩
  refine ⟨compileModes (context.limited cost) root, fun many => ?_, cost, fun places enough => ?_⟩
  · rcases bind_eq_error.mp many with failed | ⟨_, _, impossible⟩
    · exact ((costs.outcome ⟨cost, cost⟩).fails _ failed).1 rfl (allow cost (Nat.le_refl _))
    · cases impossible
  · have one := costs.same ⟨cost, cost⟩ ⟨cost, cost⟩ (Or.inl rfl)
    have other := costs.same ⟨cost, cost⟩ ⟨places, places⟩
      (Or.inr ⟨allow cost (Nat.le_refl _), allow places enough⟩)
    unfold compileModes
    exact congrArg (· >>= fun result => pure result.2.modes) (other.symm.trans one)

theorem compileModesOrderly_eq (plain : context.extensions = []) (otherwise : Into) (places : Nat)
    (root : ModeDefinition) : compileModesOrderly (context.limited places) otherwise root =
      compileModes (context.limited places) root := by
  obtain ⟨cost, costs⟩ := root_costs plain otherwise root
  exact congrArg (· >>= fun result => pure result.2.modes)
    (costs.same ⟨places, places⟩ ⟨places, places⟩ (Or.inl rfl))

/-- The compilation of a shared mode is given up as endless only if it is. -/
theorem cyclic_of_endless (plain : context.extensions = []) {places : Nat} {root : ModeDefinition}
    {name : String}
    (failed : compileModes (context.limited places) root = .error (.endlessShared name)) :
    Cyclic context.repository name := by
  obtain ⟨cost, costs⟩ := root_costs plain (fun _ _ _ _ => throw .tooManyModes) root
  rcases bind_eq_error.mp failed with failed | ⟨_, _, impossible⟩
  · exact ((costs.outcome ⟨places, places⟩).fails _ failed).2 name rfl
  · cases impossible

end

end Highlight.Compilation
