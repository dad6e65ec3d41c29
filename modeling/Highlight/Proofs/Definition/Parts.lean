import Highlight.Proofs.Definition.RoundTrip
import Highlight.Proofs.Definition.Within
import Highlight.Proofs.Settling
import Mathlib.Logic.Relation

set_option autoImplicit false

/-! Definitions by the modes that stand in them. A definition cannot be written exactly when one of these
modes has a hook without a name, and a definition that can be written is restored, however deep it is
nested, if its author has set only what is there to be set. -/

namespace Highlight

open Json Json.Decoder Outcome

namespace ModeDefinition

inductive Holds (mode : ModeDefinition) : ModeDefinition → Prop
  | contained {inner : ModeDefinition} (entry : .inline inner ∈ mode.contains) : Holds mode inner
  | variant {inner : ModeDefinition} (listed : inner ∈ mode.variants) : Holds mode inner
  | started {inner : ModeDefinition} (follows : mode.starts = some inner) : Holds mode inner

/-- A mode is another one, or stands somewhere in it. -/
def PartOf (part mode : ModeDefinition) : Prop :=
  Relation.ReflTransGen Holds mode part

def HasCustomHook (mode : ModeDefinition) : Prop :=
  ∃ run, mode.onBegin = some (.custom run) ∨ mode.onEnd = some (.custom run)

/-- A mode in which nothing is set that is only filled in later, and whose relevance is one of 32
bits. -/
structure Authored (mode : ModeDefinition) : Prop where
  relevance : ∀ value, mode.relevance = some value → value < Nat.pow 2 32
  beforeBegin : mode.beforeBegin = none
  beginGroups : mode.beginGroups = none
  endGroups : mode.endGroups = none

theorem weight_pos (mode : ModeDefinition) : 0 < mode.weight := by
  rw [weight_eq]
  omega

theorem weight_lt_of_holds {mode inner : ModeDefinition} (holds : mode.Holds inner) :
    inner.weight < mode.weight := by
  rw [weight_eq mode]
  cases holds with
  | contained entry =>
      have less := weight_le_weightOfEntries entry
      omega
  | variant listed =>
      have less := weight_le_weightOfVariants listed
      omega
  | started follows =>
      rw [follows, weightOfNext]
      omega

/-! ### Hooks -/

/-- Why a mode cannot be written: a hook somewhere in it has no name. -/
def Unwritable (mode : ModeDefinition) (failure : DataError) : Prop :=
  failure = .unwritableHook ∧ ∃ part : ModeDefinition, part.PartOf mode ∧ part.HasCustomHook

/-- The steps in which the members of a mode are written, one for each kind of part that may fail. -/
theorem modeMembers_steps (mode : ModeDefinition) :
    ∃ finish : List Json → List Json → List (String × Json) → List (String × Json) →
        List (String × Json) → List (String × Json),
      Definition.modeMembers mode = do
        let contains ← Definition.entries mode.contains
        let variants ← Definition.modes mode.variants
        let starts ← Definition.next mode.starts
        let onBegin ← Definition.hookMember "on:begin" mode.onBegin
        let onEnd ← Definition.hookMember "on:end" mode.onEnd
        return finish contains variants starts onBegin onEnd := by
  cases mode
  exact ⟨_, rfl⟩

theorem hookMember_satisfies {name : String} {hook : Option Hook} {allowed : DataError → Prop}
    (may : ∀ run, hook = some (.custom run) → allowed .unwritableHook) :
    Satisfies allowed (fun _ => True) (Definition.hookMember name hook) := by
  match hook with
  | none => exact Satisfies.ok trivial
  | some (.builtin _) => exact Satisfies.ok trivial
  | some (.custom run) => exact Satisfies.error (may run rfl)

theorem entries_satisfies {contains : List (ContainsEntry ModeDefinition)} {allowed : DataError → Prop}
    (each : ∀ inner, .inline inner ∈ contains →
      Satisfies allowed (fun _ => True) (Definition.modeMembers inner)) :
    Satisfies allowed (fun _ => True) (Definition.entries contains) := by
  induction contains with
  | nil => exact Satisfies.ok trivial
  | cons entry rest ih =>
      have others := ih fun inner listed => each inner (List.mem_cons_of_mem _ listed)
      cases entry with
      | itself | shared _ => exact others.bind fun _ _ => Satisfies.ok trivial
      | inline inner =>
          apply (each inner List.mem_cons_self).bind
          intro _ _
          exact others.bind fun _ _ => Satisfies.ok trivial

theorem modes_satisfies {variants : List ModeDefinition} {allowed : DataError → Prop}
    (each : ∀ inner ∈ variants, Satisfies allowed (fun _ => True) (Definition.modeMembers inner)) :
    Satisfies allowed (fun _ => True) (Definition.modes variants) := by
  induction variants with
  | nil => exact Satisfies.ok trivial
  | cons inner rest ih =>
      have others := ih fun other listed => each other (List.mem_cons_of_mem _ listed)
      apply (each inner List.mem_cons_self).bind
      intro _ _
      exact others.bind fun _ _ => Satisfies.ok trivial

theorem modeMembers_satisfies (mode : ModeDefinition) :
    Satisfies mode.Unwritable (fun _ => True) (Definition.modeMembers mode) := by
  have deeper : ∀ inner, mode.Holds inner →
      Satisfies mode.Unwritable (fun _ => True) (Definition.modeMembers inner) := by
    intro inner holds
    apply (modeMembers_satisfies inner).allowing
    rintro failure ⟨same, part, within, custom⟩
    exact ⟨same, part, .head holds within, custom⟩
  have contains := entries_satisfies fun inner entry => deeper inner (.contained entry)
  have variants := modes_satisfies fun inner listed => deeper inner (.variant listed)
  have starts : Satisfies mode.Unwritable (fun _ => True) (Definition.next mode.starts) := by
    cases follows : mode.starts with
    | none => exact Satisfies.ok trivial
    | some inner => exact (deeper inner (.started follows)).bind fun _ _ => Satisfies.ok trivial
  have onBegin : Satisfies mode.Unwritable (fun _ => True)
      (Definition.hookMember "on:begin" mode.onBegin) :=
    hookMember_satisfies fun run has => ⟨rfl, mode, .refl, run, .inl has⟩
  have onEnd : Satisfies mode.Unwritable (fun _ => True) (Definition.hookMember "on:end" mode.onEnd) :=
    hookMember_satisfies fun run has => ⟨rfl, mode, .refl, run, .inr has⟩
  obtain ⟨finish, steps⟩ := modeMembers_steps mode
  rw [steps]
  exact contains.bind fun _ _ => variants.bind fun _ _ => starts.bind fun _ _ =>
    onBegin.bind fun _ _ => onEnd.bind fun _ _ => Satisfies.ok trivial
termination_by mode.weight
decreasing_by exact weight_lt_of_holds holds

theorem builtin_of_hookMember {name : String} {hook : Hook} {members : List (String × Json)}
    (made : Definition.hookMember name (some hook) = .ok members) : ∃ builtin, hook = .builtin builtin := by
  cases hook with
  | builtin hook => exact ⟨hook, rfl⟩
  | custom run => cases made

theorem modeMembers_of_entries {contains : List (ContainsEntry ModeDefinition)} {items : List Json}
    {inner : ModeDefinition} (made : Definition.entries contains = .ok items)
    (entry : .inline inner ∈ contains) : ∃ members, Definition.modeMembers inner = .ok members := by
  induction contains generalizing items with
  | nil => cases entry
  | cons first rest ih =>
      cases first with
      | itself | shared _ =>
          obtain ⟨others, othersMade, _⟩ := bind_eq_ok.mp made
          rcases List.mem_cons.mp entry with same | later
          · cases same
          · exact ih othersMade later
      | inline mode =>
          obtain ⟨members, modeMade, made⟩ := bind_eq_ok.mp made
          obtain ⟨others, othersMade, _⟩ := bind_eq_ok.mp made
          rcases List.mem_cons.mp entry with same | later
          · injection same with same
            exact ⟨members, same ▸ modeMade⟩
          · exact ih othersMade later

theorem forall₂_of_modes {variants : List ModeDefinition} {items : List Json}
    (made : Definition.modes variants = .ok items) :
    List.Forall₂ (fun inner item => ∃ members, Definition.modeMembers inner = .ok members ∧
      .object members = item) variants items := by
  induction variants generalizing items with
  | nil =>
      obtain rfl := Except.ok.inj made
      exact .nil
  | cons mode rest ih =>
      obtain ⟨members, modeMade, made⟩ := bind_eq_ok.mp made
      obtain ⟨others, othersMade, made⟩ := bind_eq_ok.mp made
      obtain rfl := pure_eq_ok.mp made
      exact .cons ⟨members, modeMade, rfl⟩ (ih othersMade)

structure Written (mode : ModeDefinition) : Prop where
  holds : ∀ inner, mode.Holds inner → ∃ members, Definition.modeMembers inner = .ok members
  onBegin : ∀ hook, mode.onBegin = some hook → ∃ builtin, hook = .builtin builtin
  onEnd : ∀ hook, mode.onEnd = some hook → ∃ builtin, hook = .builtin builtin

theorem written_of_modeMembers {mode : ModeDefinition} {members : List (String × Json)}
    (made : Definition.modeMembers mode = .ok members) : mode.Written := by
  obtain ⟨finish, steps⟩ := modeMembers_steps mode
  rw [steps] at made
  obtain ⟨contains, containsMade, made⟩ := bind_eq_ok.mp made
  obtain ⟨variants, variantsMade, made⟩ := bind_eq_ok.mp made
  obtain ⟨starts, startsMade, made⟩ := bind_eq_ok.mp made
  obtain ⟨onBegin, onBeginMade, made⟩ := bind_eq_ok.mp made
  obtain ⟨onEnd, onEndMade, _⟩ := bind_eq_ok.mp made
  constructor
  case holds =>
    intro inner holds
    cases holds with
    | contained entry => exact modeMembers_of_entries containsMade entry
    | variant listed =>
        obtain ⟨_, _, members, written, _⟩ := exists_of_forall₂ (forall₂_of_modes variantsMade) listed
        exact ⟨members, written⟩
    | started follows =>
        rw [follows] at startsMade
        obtain ⟨members, written, _⟩ := bind_eq_ok.mp startsMade
        exact ⟨members, written⟩
  case onBegin =>
    intro hook has
    exact builtin_of_hookMember (has ▸ onBeginMade)
  case onEnd =>
    intro hook has
    exact builtin_of_hookMember (has ▸ onEndMade)

theorem PartOf.writes {mode part : ModeDefinition} (within : part.PartOf mode)
    {members : List (String × Json)} (made : Definition.modeMembers mode = .ok members) :
    ∃ inner, Definition.modeMembers part = .ok inner := by
  induction within using Relation.ReflTransGen.head_induction_on generalizing members with
  | refl => exact ⟨members, made⟩
  | head holds _ ih =>
      obtain ⟨inner, innerMade⟩ := (written_of_modeMembers made).holds _ holds
      exact ih innerMade

theorem Written.named {mode : ModeDefinition} (written : mode.Written) : ¬mode.HasCustomHook := by
  rintro ⟨run, has | has⟩
  · obtain ⟨builtin, same⟩ := written.onBegin _ has
    cases same
  · obtain ⟨builtin, same⟩ := written.onEnd _ has
    cases same

/-! ### Depth -/

/-- The fields of a mode that can be written fit at any depth which leaves room for all that stands in
it. -/
theorem fieldsFit_of_authored (mode : ModeDefinition) {members : List (String × Json)}
    (authored : ∀ part : ModeDefinition, part.PartOf mode → part.Authored)
    (made : Definition.modeMembers mode = .ok members) {depth : Nat} (deep : 2 * mode.weight ≤ depth) :
    mode.FieldsFit depth := by
  have own := authored mode .refl
  have written := written_of_modeMembers made
  have some := mode.weight_pos
  obtain ⟨below, rfl⟩ := Nat.exists_eq_add_of_le' (show 2 ≤ depth by omega)
  have deeper : ∀ inner, mode.Holds inner → ∀ room, below ≤ room → inner.FieldsFit room := by
    intro inner holds room enough
    obtain ⟨innerMembers, innerMade⟩ := written.holds inner holds
    have less := weight_lt_of_holds holds
    apply fieldsFit_of_authored inner _ innerMade
    · omega
    · exact fun part within => authored part (.head holds within)
  constructor
  case scope | beginScope | endScope => exact fun source _ => source.fits_succ _
  case begins | ends | matching | illegal => exact fun source _ => source.fits_succ _
  case keywords => exact fun source _ => source.fits_succ _
  case subLanguage => exact fun source _ => source.fits_succ _
  case contains =>
    refine .inr ⟨below + 1, rfl, fun inner entry => ?_⟩
    exact (deeper inner (.contained entry) below (Nat.le_refl _)).restorable
  case variants =>
    refine .inr ⟨below + 1, rfl, fun inner listed => ?_⟩
    exact (deeper inner (.variant listed) below (Nat.le_refl _)).restorable
  case starts =>
    intro inner follows
    exact (deeper inner (.started follows) (below + 1) (Nat.le_succ _)).restorable
  case relevance => exact own.relevance
  case onBegin => exact written.onBegin
  case onEnd => exact written.onEnd
  case beforeBegin => exact own.beforeBegin
  case beginGroups => exact own.beginGroups
  case endGroups => exact own.endGroups
termination_by mode.weight
decreasing_by exact weight_lt_of_holds holds

theorem Restorable.fieldsFit {mode : ModeDefinition} {depth : Nat} (restorable : mode.Restorable depth) :
    ∃ below, mode.FieldsFit below := by
  obtain ⟨members, _, fits, reads⟩ := restorable
  have depicts := Document.depicts_ofValue (Reordered.refl (.object members)) fits
  obtain ⟨below, _, fit⟩ := fieldsFit_of_modeNested (reads depth false depth (Nat.le_refl _) _ depicts)
  exact ⟨below, fit⟩

theorem FieldsFit.holds {mode inner : ModeDefinition} {depth : Nat} (fit : mode.FieldsFit depth)
    (holds : mode.Holds inner) : ∃ below, inner.FieldsFit below := by
  cases holds with
  | contained entry =>
      rcases fit.contains with empty | ⟨_, _, each⟩
      · rw [empty] at entry
        cases entry
      · exact (each inner entry).fieldsFit
  | variant listed =>
      rcases fit.variants with empty | ⟨_, _, each⟩
      · rw [empty] at listed
        cases listed
      · exact (each inner listed).fieldsFit
  | started follows => exact (fit.starts inner follows).fieldsFit

theorem FieldsFit.authored {mode part : ModeDefinition} {depth : Nat} (fit : mode.FieldsFit depth)
    (within : part.PartOf mode) : part.Authored := by
  induction within using Relation.ReflTransGen.head_induction_on generalizing depth with
  | refl => exact ⟨fit.relevance, fit.beforeBegin, fit.beginGroups, fit.endGroups⟩
  | head holds _ ih =>
      obtain ⟨below, inner⟩ := fit.holds holds
      exact ih inner

end ModeDefinition

namespace GrammarDefinition

/-- A mode stands in the root mode of a grammar, or in one that others can contain by name. -/
def HasPart (definition : GrammarDefinition) (part : ModeDefinition) : Prop :=
  part.PartOf definition.root ∨ ∃ entry ∈ definition.repository.entries, part.PartOf entry.2

def HasCustomHook (definition : GrammarDefinition) : Prop :=
  ∃ part, definition.HasPart part ∧ part.HasCustomHook

def Authored (definition : GrammarDefinition) : Prop :=
  ∀ part, definition.HasPart part → part.Authored

/-- The definition as it is written: changes to its modes are not. -/
def unextended (definition : GrammarDefinition) : GrammarDefinition :=
  { definition with extensions := [] }

theorem toJson_unextended (definition : GrammarDefinition) :
    definition.unextended.toJson = definition.toJson := rfl

theorem toJson_eq_ok {definition : GrammarDefinition} {json : Json}
    (made : definition.toJson = .ok json) :
    ∃ members root, definition.repositoryMembers = .ok members ∧
      Definition.modeMembers definition.root = .ok root ∧
      json = .object (definition.ownMembers ++ root) := by
  have whole := made
  unfold toJson at made
  obtain ⟨members, membersMade, made⟩ := bind_eq_ok.mp made
  obtain ⟨root, rootMade, _⟩ := bind_eq_ok.mp made
  rw [toJson_eq membersMade rootMade] at whole
  exact ⟨members, root, membersMade, rootMade, (Except.ok.inj whole).symm⟩

theorem modeMembers_of_repository {definition : GrammarDefinition} {members : List (String × Json)}
    (made : definition.repositoryMembers = .ok members) {entry : String × ModeDefinition}
    (listed : entry ∈ definition.repository.entries) :
    ∃ inner, Definition.modeMembers entry.2 = .ok inner := by
  obtain ⟨member, _, written⟩ := exists_of_mapM_eq_ok made listed
  obtain ⟨json, jsonMade, _⟩ := bind_eq_ok.mp written
  obtain ⟨inner, innerMade, _⟩ := bind_eq_ok.mp jsonMade
  exact ⟨inner, innerMade⟩

def Unwritable (definition : GrammarDefinition) (failure : DataError) : Prop :=
  failure = .unwritableHook ∧ definition.HasCustomHook

theorem toJson_satisfies (definition : GrammarDefinition) :
    Satisfies definition.Unwritable (fun _ => True) definition.toJson := by
  have repository : Satisfies definition.Unwritable (fun _ => True) definition.repositoryMembers := by
    apply Satisfies.mapM
    intro entry listed
    have written : Satisfies definition.Unwritable (fun _ => True) (Definition.modeMembers entry.2) := by
      apply (ModeDefinition.modeMembers_satisfies entry.2).allowing
      rintro failure ⟨same, part, within, custom⟩
      exact ⟨same, part, .inr ⟨entry, listed, within⟩, custom⟩
    have json : Satisfies definition.Unwritable (fun _ => True) entry.2.toJson :=
      written.bind fun _ _ => Satisfies.ok trivial
    exact json.bind fun _ _ => Satisfies.ok trivial
  have root : Satisfies definition.Unwritable (fun _ => True)
      (Definition.modeMembers definition.root) := by
    apply (ModeDefinition.modeMembers_satisfies definition.root).allowing
    rintro failure ⟨same, part, within, custom⟩
    exact ⟨same, part, .inl within, custom⟩
  exact repository.bind fun _ _ => root.bind fun _ _ => Satisfies.ok trivial

theorem named_of_toJson {definition : GrammarDefinition} {json : Json}
    (made : definition.toJson = .ok json) : ¬definition.HasCustomHook := by
  rintro ⟨part, has, custom⟩
  obtain ⟨members, root, membersMade, rootMade, _⟩ := toJson_eq_ok made
  have written : ∃ inner, Definition.modeMembers part = .ok inner := by
    rcases has with within | ⟨entry, listed, within⟩
    · exact within.writes rootMade
    · obtain ⟨inner, innerMade⟩ := modeMembers_of_repository membersMade listed
      exact within.writes innerMade
  obtain ⟨inner, innerMade⟩ := written
  exact (ModeDefinition.written_of_modeMembers innerMade).named custom

/-- A grammar that can be written is restored, but for changes to its modes, wherever there is room for all
that stands in it. -/
theorem restorable_of_authored {definition : GrammarDefinition} {json : Json}
    (authored : definition.Authored) (made : definition.toJson = .ok json) :
    ∃ least, ∀ depth, least ≤ depth → definition.unextended.Restorable depth := by
  obtain ⟨members, root, membersMade, rootMade, _⟩ := toJson_eq_ok made
  obtain ⟨heaviest, lighter⟩ := @exists_bound _ definition.repository.entries
    (fun entry bound => entry.2.weight ≤ bound) (fun _ _ _ within less => Nat.le_trans less within)
    fun entry _ => ⟨entry.2.weight, Nat.le_refl _⟩
  refine ⟨2 * definition.root.weight + 2 * heaviest + 3, fun depth deep => ?_⟩
  obtain ⟨below, rfl⟩ := Nat.exists_eq_add_of_le' (show 3 ≤ depth by omega)
  have rootFit : definition.root.FieldsFit (below + 2) :=
    ModeDefinition.fieldsFit_of_authored definition.root (fun part within => authored part (.inl within))
      rootMade (by omega)
  have repository : ∀ entry ∈ definition.repository.entries, entry.2.Restorable (below + 1) := by
    intro entry listed
    obtain ⟨inner, innerMade⟩ := modeMembers_of_repository membersMade listed
    have less := lighter entry listed
    exact (ModeDefinition.fieldsFit_of_authored entry.2
      (fun part within => authored part (.inr ⟨entry, listed, within⟩)) innerMade (by omega)).restorable
  have fit : definition.unextended.FieldsFit (below + 2) :=
    ⟨.inr ⟨_, rfl⟩, .inr ⟨_, rfl⟩, .inr ⟨_, rfl, repository⟩, rfl⟩
  exact fit.restorable rootFit

theorem authored_of_read {text : String} {definition : GrammarDefinition}
    (given : GrammarDefinition.read text = .ok definition) : definition.Authored := by
  obtain ⟨below, _, fit, rootFit⟩ := fieldsFit_of_grammar (run_eq_ok given)
  rintro part (within | ⟨entry, listed, within⟩)
  · exact rootFit.authored within
  · rcases fit.repository with empty | ⟨_, _, each⟩
    · rw [empty] at listed
      cases listed
    · obtain ⟨_, inner⟩ := (each entry listed).fieldsFit
      exact inner.authored within

end GrammarDefinition

end Highlight
