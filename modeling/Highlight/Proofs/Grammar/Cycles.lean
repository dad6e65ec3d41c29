import Highlight.Grammar.Compilation
import Highlight.Proofs.Definition.Within
import Mathlib.Data.List.Chain
import Mathlib.Data.List.Perm.Subperm
import Mathlib.Data.List.TakeWhile
import Mathlib.Logic.Relation

set_option autoImplicit false

/-! Shared modes that stand within each other. Those that do not depend on the mode around them are
compiled once, so no harm comes from one that stands within itself. One that does depend on it is
compiled anew wherever it stands, and so is never done with if it stands within itself and all that are
between depend on it too. While the latter is kept from happening, the shared modes that are being
compiled are `Nested`, and there cannot be more than `deepest` of them. -/

namespace Highlight.Compilation

/-! ### Which shared modes refer to which -/

/-- A shared mode is made for the mode around it. -/
def Depends (repository : Dictionary ModeDefinition) (name : String) : Prop :=
  ∃ definition, repository.find? name = some definition ∧ definition.dependsOnParent = true

def Refers (repository : Dictionary ModeDefinition) (older newer : String) : Prop :=
  ∃ definition, repository.find? older = some definition ∧
    ∃ variant ∈ definition.expanded, variant.Mentions newer

/-- A shared mode refers to itself by way of shared modes that all depend on the mode around them. -/
def Cyclic (repository : Dictionary ModeDefinition) (name : String) : Prop :=
  Relation.TransGen (fun older newer => Depends repository older ∧ Refers repository older newer)
    name name

/-- A shared mode is mentioned by a definition, or by way of other shared modes. -/
def Reached (repository : Dictionary ModeDefinition) (definition : ModeDefinition) (name : String) :
    Prop :=
  ∃ first, definition.Mentions first ∧ Relation.ReflTransGen (Refers repository) first name

/-! ### Shared modes that are being compiled -/

/-- A shared mode is not compiled within itself, unless it depends on the mode around it and one that
does not lies between. The innermost one comes first. -/
def Nested : List Pending → Prop
  | [] => True
  | entry :: rest =>
    entry.name ∉ (rest.takeWhile Pending.dependsOnParent).map Pending.name ∧
      (entry.dependsOnParent = false → entry.name ∉ rest.map Pending.name) ∧ Nested rest

def decideNested : (pending : List Pending) → Decidable (Nested pending)
  | [] => isTrue trivial
  | entry :: rest =>
    have := decideNested rest
    inferInstanceAs (Decidable (entry.name ∉ (rest.takeWhile Pending.dependsOnParent).map Pending.name ∧
      (entry.dependsOnParent = false → entry.name ∉ rest.map Pending.name) ∧ Nested rest))

instance : DecidablePred Nested :=
  decideNested

def sharedWith (repository : Dictionary ModeDefinition) (depends : Bool) : List String :=
  (repository.entries.filter fun entry => entry.2.dependsOnParent == depends).map (·.1)

/-- How many shared modes can be being compiled at once: those that do not depend on the mode around
them, and all others within each of these, and outside of all of them. -/
def deepest (repository : Dictionary ModeDefinition) : Nat :=
  (sharedWith repository false).length +
    ((sharedWith repository false).length + 1) * (sharedWith repository true).length

def Known (repository : Dictionary ModeDefinition) (entry : Pending) : Prop :=
  ∃ definition, repository.find? entry.name = some definition ∧
    definition.dependsOnParent = entry.dependsOnParent

variable {repository : Dictionary ModeDefinition} {pending : List Pending}

theorem Known.mem_sharedWith {entry : Pending} (known : Known repository entry) :
    entry.name ∈ sharedWith repository entry.dependsOnParent := by
  obtain ⟨definition, found, depends⟩ := known
  exact List.mem_map.mpr ⟨_, List.mem_filter.mpr ⟨Dictionary.mem_of_find? found, by simp [depends]⟩, rfl⟩

/-- Different names of shared modes of one kind are no more than there are such shared modes. -/
theorem length_le_sharedWith {entries : List Pending} {depends : Bool}
    (known : ∀ entry ∈ entries, Known repository entry ∧ entry.dependsOnParent = depends)
    (distinct : (entries.map Pending.name).Nodup) :
    entries.length ≤ (sharedWith repository depends).length := by
  have within : entries.map Pending.name ⊆ sharedWith repository depends := by
    intro name member
    obtain ⟨entry, among, rfl⟩ := List.mem_map.mp member
    obtain ⟨knows, same⟩ := known entry among
    exact same ▸ knows.mem_sharedWith
  simpa using (List.subperm_of_subset distinct within).length_le

/-- The innermost shared modes that depend on the modes around them are different ones. -/
theorem Nested.distinct_run (nested : Nested pending) :
    ((pending.takeWhile Pending.dependsOnParent).map Pending.name).Nodup := by
  induction pending with
  | nil => exact List.nodup_nil
  | cons entry rest ih =>
      obtain ⟨apart, _, nested⟩ := nested
      rw [List.takeWhile_cons]
      split
      · exact List.nodup_cons.mpr ⟨apart, ih nested⟩
      · exact List.nodup_nil

theorem Nested.distinct_alone (nested : Nested pending) :
    ((pending.filter fun entry => !entry.dependsOnParent).map Pending.name).Nodup := by
  induction pending with
  | nil => exact List.nodup_nil
  | cons entry rest ih =>
      obtain ⟨_, apart, nested⟩ := nested
      rw [List.filter_cons]
      split
      · rename_i alone
        refine List.nodup_cons.mpr ⟨fun member => ?_, ih nested⟩
        obtain ⟨other, among, same⟩ := List.mem_map.mp member
        exact apart (by simpa using alone)
          (List.mem_map.mpr ⟨other, (List.mem_filter.mp among).1, same⟩)
      · exact ih nested

/-- Within each shared mode that does not depend on the mode around it there are at most as many as
there are that do. -/
theorem Nested.length_le_alone (nested : Nested pending)
    (known : ∀ entry ∈ pending, Known repository entry) :
    pending.length ≤ (pending.filter fun entry => !entry.dependsOnParent).length +
      (pending.filter fun entry => !entry.dependsOnParent).length *
        (sharedWith repository true).length +
      (pending.takeWhile Pending.dependsOnParent).length := by
  induction pending with
  | nil => simp
  | cons entry rest ih =>
      have knownRest : ∀ other ∈ rest, Known repository other :=
        fun other member => known other (List.mem_cons_of_mem _ member)
      have before := ih nested.2.2 knownRest
      cases depends : entry.dependsOnParent with
      | true =>
          simp only [List.filter_cons, List.takeWhile_cons, depends, Bool.not_true,
            Bool.false_eq_true, if_false, if_true, List.length_cons]
          omega
      | false =>
          have run : (rest.takeWhile Pending.dependsOnParent).length ≤
              (sharedWith repository true).length :=
            length_le_sharedWith (fun other member =>
              ⟨knownRest other (List.takeWhile_subset _ member), List.mem_takeWhile_imp member⟩)
              nested.2.2.distinct_run
          simp only [List.filter_cons, List.takeWhile_cons, depends, Bool.not_false,
            Bool.false_eq_true, if_false, if_true, List.length_cons, List.length_nil, Nat.succ_mul]
          omega

theorem Nested.length_le (nested : Nested pending)
    (known : ∀ entry ∈ pending, Known repository entry) : pending.length ≤ deepest repository := by
  have all := nested.length_le_alone known
  have alone : (pending.filter fun entry => !entry.dependsOnParent).length ≤
      (sharedWith repository false).length :=
    length_le_sharedWith (fun entry member => ⟨known entry (List.mem_filter.mp member).1,
      by simpa using (List.mem_filter.mp member).2⟩) nested.distinct_alone
  have run : (pending.takeWhile Pending.dependsOnParent).length ≤
      (sharedWith repository true).length :=
    length_le_sharedWith (fun entry member =>
      ⟨known entry (List.takeWhile_subset _ member), List.mem_takeWhile_imp member⟩)
      nested.distinct_run
  have within := Nat.mul_le_mul_right (sharedWith repository true).length alone
  unfold deepest
  rw [Nat.succ_mul]
  omega

/-! ### Where a definition stands -/

/-- A definition is compiled within the shared modes that are being compiled: what it mentions is
mentioned by the innermost one, which is mentioned by the next one, and so on. -/
structure Traced (repository : Dictionary ModeDefinition) (pending : List Pending)
    (definition : ModeDefinition) : Prop where
  known : ∀ entry ∈ pending, Known repository entry
  nested : Nested pending
  chain : pending.IsChain fun newer older => Refers repository older.name newer.name
  mentions : ∀ entry, pending.head? = some entry → ∀ name, definition.Mentions name →
    Refers repository entry.name name

namespace Traced

variable {definition variant : ModeDefinition} {name : String}

theorem part (traced : Traced repository pending definition)
    (mentions : ∀ name, variant.Mentions name → definition.Mentions name) :
    Traced repository pending variant :=
  ⟨traced.known, traced.nested, traced.chain,
    fun entry first name mentioned => traced.mentions entry first name (mentions name mentioned)⟩

theorem push (traced : Traced repository pending definition) (mentioned : definition.Mentions name)
    {shared : ModeDefinition} (found : repository.find? name = some shared)
    (nested : Nested ({ name, dependsOnParent := shared.dependsOnParent } :: pending))
    (stands : variant ∈ shared.expanded) :
    Traced repository ({ name, dependsOnParent := shared.dependsOnParent } :: pending) variant where
  known := by
    intro entry member
    rcases List.mem_cons.mp member with rfl | old
    · exact ⟨shared, found, rfl⟩
    · exact traced.known entry old
  nested := nested
  chain := by
    refine List.isChain_cons.mpr ⟨fun entry first => ?_, traced.chain⟩
    exact traced.mentions entry first name mentioned
  mentions := by
    intro entry first other mentionedToo
    obtain rfl := Option.some.inj first
    exact ⟨shared, found, variant, stands, mentionedToo⟩

/-- Along the innermost shared modes that depend on the modes around them, each refers to what the
innermost one mentions. -/
theorem run_refers (known : ∀ entry ∈ pending, Known repository entry)
    (chain : pending.IsChain fun newer older => Refers repository older.name newer.name)
    (first : ∀ entry, pending.head? = some entry → Refers repository entry.name name) :
    ∀ entry ∈ pending.takeWhile Pending.dependsOnParent,
      Relation.TransGen (fun older newer => Depends repository older ∧ Refers repository older newer)
        entry.name name := by
  induction pending generalizing name with
  | nil => simp
  | cons head rest ih =>
      rw [List.takeWhile_cons]
      split
      · rename_i depends
        obtain ⟨definition, found, same⟩ := known head List.mem_cons_self
        have step : Depends repository head.name ∧ Refers repository head.name name :=
          ⟨⟨definition, found, same.trans depends⟩, first head rfl⟩
        intro entry member
        rcases List.mem_cons.mp member with rfl | later
        · exact .single step
        · obtain ⟨next, chain⟩ := List.isChain_cons.mp chain
          exact (ih (fun other among => known other (List.mem_cons_of_mem _ among)) chain next entry
            later).tail step
      · simp

/-- A shared mode whose compilation would never end refers to itself by way of ones that depend on the
modes around them. -/
theorem cyclic (traced : Traced repository pending definition) (mentioned : definition.Mentions name)
    (endless : isEndless pending name = true) : Cyclic repository name := by
  obtain ⟨entry, member, same⟩ := List.any_eq_true.mp endless
  obtain rfl : entry.name = name := by simpa using same
  exact run_refers traced.known traced.chain
    (fun head first => traced.mentions head first _ mentioned) entry member

end Traced

end Highlight.Compilation
