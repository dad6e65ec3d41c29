import Highlight.Grammar.Basic
import Highlight.Proofs.Grammar.Ending

set_option autoImplicit false

/-! What a compilation that succeeds has been through. Everything that a definition mentions has been
compiled by the time the definition has, and a shared mode that depends on the mode around it was not
compiled within itself by way of others that do. So none of the shared modes that have been reached is
cyclic: `Clear` says so of the definitions, along the shared modes that are compiled anew, down to those
that are compiled once. -/

namespace Highlight.Compilation

open Outcome

/-- Along the shared modes that depend on the modes around them, none of those that a definition leads
to comes back to one that it has been through; the others are known. -/
inductive Clear (repository : Dictionary ModeDefinition) (shared : List String) :
    List String → ModeDefinition → Prop
  | intro {run : List String} {definition : ModeDefinition}
      (alone : ∀ name target, definition.Mentions name → repository.find? name = some target →
        target.dependsOnParent = false → name ∈ shared)
      (apart : ∀ name target, definition.Mentions name → repository.find? name = some target →
        target.dependsOnParent = true → name ∉ run)
      (within : ∀ name target, definition.Mentions name → repository.find? name = some target →
        target.dependsOnParent = true →
          ∀ variant ∈ target.expanded, Clear repository shared (name :: run) variant) :
      Clear repository shared run definition

def ClearShared (repository : Dictionary ModeDefinition) (shared run : List String) (name : String) :
    Prop :=
  ∀ target, repository.find? name = some target →
    ∀ variant ∈ target.expanded, Clear repository shared run variant

variable {repository : Dictionary ModeDefinition} {shared more run : List String}
  {definition : ModeDefinition} {name : String}

theorem Clear.mono (clear : Clear repository shared run definition) (kept : shared ⊆ more) :
    Clear repository more run definition := by
  induction clear with
  | intro alone apart _ ih =>
      exact .intro (fun name target mentioned found depends =>
        kept (alone name target mentioned found depends)) apart ih

theorem ClearShared.mono (clear : ClearShared repository shared run name) (kept : shared ⊆ more) :
    ClearShared repository more run name :=
  fun target found variant stands => (clear target found variant stands).mono kept

/-- What clear definitions lead to, by way of shared modes that depend on the modes around them, has
not been gone through. -/
theorem ClearShared.apart {older newer : String} (clear : ClearShared repository shared run older)
    (refers : Relation.TransGen
      (fun older newer => Depends repository older ∧ Refers repository older newer) older newer)
    (depends : Depends repository newer) : newer ∉ run := by
  induction refers using Relation.TransGen.head_induction_on generalizing run with
  | single step =>
      obtain ⟨_, definition, found, variant, stands, mentioned⟩ := step
      obtain ⟨target, foundTarget, targetDepends⟩ := depends
      cases clear definition found variant stands with
      | intro _ apart _ => exact apart newer target mentioned foundTarget targetDepends
  | @head older middle step later ih =>
      obtain ⟨_, definition, found, variant, stands, mentioned⟩ := step
      obtain ⟨_, ⟨⟨target, foundTarget, targetDepends⟩, _⟩, _⟩ :=
        Relation.TransGen.head'_iff.mp later
      cases clear definition found variant stands with
      | intro _ _ within =>
          have further : ClearShared repository shared (middle :: run) middle := by
            intro other otherFound
            obtain rfl := Option.some.inj (foundTarget.symm.trans otherFound)
            exact within middle target mentioned foundTarget targetDepends
          exact fun member => ih further (List.mem_cons_of_mem _ member)

/-! ### What the steps have been through -/

/-- The innermost shared modes that are being compiled and depend on the modes around them. -/
def runNames (pending : List Pending) : List String :=
  (pending.takeWhile Pending.dependsOnParent).map Pending.name

/-- The shared modes that are kept for one mode are those of a mode that is there. -/
def Arena.KeysTaken (arena : Arena) : Prop :=
  ∀ entry ∈ arena.references, ∀ parent, entry.1.parent = some parent → parent < arena.modes.size

/-- The shared modes that do not depend on the mode around them and are new are clear. -/
structure Explores (repository : Dictionary ModeDefinition) (before after : Arena) : Prop where
  kept : before.shared ⊆ after.shared
  new : ∀ name ∈ after.shared,
    name ∈ before.shared ∨ ClearShared repository after.shared [] name

/-- A shared mode that depends on the mode around it is clear within itself, and is not one of those
that have been gone through. -/
def ClearWithin (repository : Dictionary ModeDefinition) (shared run : List String) (name : String) :
    Prop :=
  name ∉ run ∧ ClearShared repository shared (name :: run) name

def Arena.Explored (repository : Dictionary ModeDefinition) (run : List String) (place : Nat)
    (arena : Arena) : Prop :=
  ∀ entry ∈ arena.references, entry.1.parent = some place →
    ClearWithin repository arena.shared run entry.1.name

def ClearEntry (repository : Dictionary ModeDefinition) (shared run : List String) :
    ContainsEntry ModeDefinition → Prop
  | .itself => True
  | .shared name => ∀ target, repository.find? name = some target →
    (target.dependsOnParent = false → name ∈ shared) ∧
      (target.dependsOnParent = true → ClearWithin repository shared run name)
  | .inline inner => ∀ variant ∈ inner.expanded, Clear repository shared run variant

namespace Explores

variable {before middle after : Arena}

theorem refl (repository : Dictionary ModeDefinition) (arena : Arena) :
    Explores repository arena arena :=
  ⟨List.Subset.refl _, fun _ member => Or.inl member⟩

theorem trans (early : Explores repository before middle) (late : Explores repository middle after) :
    Explores repository before after where
  kept := List.Subset.trans early.kept late.kept
  new name member := by
    rcases late.new name member with old | clear
    · exact (early.new name old).imp id fun clear => clear.mono late.kept
    · exact Or.inr clear

end Explores

theorem ClearWithin.mono (clear : ClearWithin repository shared run name) (kept : shared ⊆ more) :
    ClearWithin repository more run name :=
  ⟨clear.1, clear.2.mono kept⟩

theorem ClearEntry.mono {entry : ContainsEntry ModeDefinition}
    (clear : ClearEntry repository shared run entry) (kept : shared ⊆ more) :
    ClearEntry repository more run entry := by
  cases entry with
  | itself => trivial
  | shared name =>
      exact fun target found => ⟨fun alone => kept ((clear target found).1 alone),
        fun depends => ((clear target found).2 depends).mono kept⟩
  | inline inner => exact fun variant stands => (clear variant stands).mono kept

theorem Clear.mentioned (clear : Clear repository shared run definition)
    (mentions : definition.Mentions name) : ClearEntry repository shared run (.shared name) := by
  intro target found
  cases clear with
  | intro alone apart within =>
      refine ⟨alone name target mentions found, fun depends =>
        ⟨apart name target mentions found depends, fun other otherFound => ?_⟩⟩
      obtain rfl := Option.some.inj (found.symm.trans otherFound)
      exact within name target mentions found depends

theorem Clear.of_normalize {normal : ModeDefinition} {contained : Bool}
    (normalized : definition.normalize contained [] = .ok normal)
    (entries : ∀ entry ∈ normal.contains, ClearEntry repository shared run entry)
    (starts : ∀ next, normal.starts = some next → Clear repository shared run next) :
    Clear repository shared run definition := by
  -- whatever is mentioned is mentioned by an entry or by the mode that is started
  have mentioned : ∀ name, definition.Mentions name →
      ClearEntry repository shared run (.shared name) := by
    intro name mentions
    rcases mentions.cases normalized with entry | ⟨inner, variant, entry, stands, within⟩ |
      ⟨next, follows, within⟩
    · exact entries _ entry
    · exact (entries _ entry variant stands).mentioned within
    · exact (starts next follows).mentioned within
  exact .intro (fun name target mentions found => (mentioned name mentions target found).1)
    (fun name target mentions found depends => ((mentioned name mentions target found).2 depends).1)
    fun name target mentions found depends =>
      ((mentioned name mentions target found).2 depends).2 target found

/-! ### The steps of the compilation -/

section

variable {context : Context} {into : Into} {pending : List Pending} {before middle after : Arena}

def IntoClears (context : Context) (into : Into) : Prop :=
  ∀ pending place definition parent before done after, before.KeysTaken →
    place < before.modes.size → (∀ entry ∈ before.references, entry.1.parent ≠ some place) →
    (into pending place definition parent).run before = .ok (done, after) →
    Explores context.repository before after ∧
      Clear context.repository after.shared (runNames pending) definition

theorem Arena.KeysTaken.extends_ {place : Nat} (keys : before.KeysTaken)
    (taken : place < before.modes.size) (extends_ : Arena.Extends place before after) :
    after.KeysTaken := by
  intro entry member parent same
  refine Nat.lt_of_lt_of_le ?_ extends_.size
  rcases extends_.references entry member with old | none_ | own
  · exact keys entry old parent same
  · simp [none_] at same
  · exact Option.some.inj (own.symm.trans same) ▸ taken

theorem Arena.Explored.extends_ {place other : Nat} (explored : before.Explored repository run place)
    (kept : before.shared ⊆ after.shared) (extends_ : Arena.Extends other before after)
    (different : other ≠ place) : after.Explored repository run place := by
  intro entry member own
  rcases extends_.references entry member with old | none_ | others
  · exact (explored entry old own).mono kept
  · simp [none_] at own
  · exact absurd (Option.some.inj (others.symm.trans own)) different

theorem compileNew_clears (intoClears : IntoClears context into) {parent : Option Nat} {place : Nat}
    (keys : before.KeysTaken)
    (ran : (compileNew context into pending definition parent).run before = .ok (place, after)) :
    Explores context.repository before after ∧
      Clear context.repository after.shared (runNames pending) definition := by
  obtain ⟨rfl, filling⟩ := compileNew_eq_ok ran
  have grownKeys : (before.grown 1).KeysTaken := fun entry member parent same =>
    Nat.lt_of_lt_of_le (keys entry member parent same) (by simp)
  obtain ⟨explores, clear⟩ := intoClears _ _ _ _ _ _ _ grownKeys (by simp)
    (fun entry member own => Nat.lt_irrefl _ (keys entry member _ own)) filling
  exact ⟨⟨explores.kept, explores.new⟩, clear⟩

theorem runNames_cons_alone (name : String) :
    runNames ({ name, dependsOnParent := false } :: pending) = [] := rfl

theorem runNames_cons_depends (name : String) :
    runNames ({ name, dependsOnParent := true } :: pending) = name :: runNames pending := rfl

theorem not_mem_runNames (ends : isEndless pending name = false) : name ∉ runNames pending := by
  intro member
  obtain ⟨entry, among, same⟩ := List.mem_map.mp member
  have endless : isEndless pending name = true :=
    List.any_eq_true.mpr ⟨entry, among, by simpa using same⟩
  simp [ends] at endless

/-- The definitions of a shared mode are being compiled: those that are done are clear, and nothing but
the shared mode itself is new and not clear yet. -/
structure Expanding (repository : Dictionary ModeDefinition) (before : Arena) (parent : Nat)
    (name : String) (target : ModeDefinition) (pending : List Pending)
    (done : List (Nat × ModeDefinition)) (arena : Arena) : Prop where
  kept : before.shared ⊆ arena.shared
  new : ∀ other ∈ arena.shared, other ∈ before.shared ∨
    other = name ∧ target.dependsOnParent = false ∨ ClearShared repository arena.shared [] other
  filed : ∀ entry ∈ arena.references, entry.1.parent = some parent →
    entry ∈ before.references ∨ entry.1.name = name ∧ target.dependsOnParent = true
  begun : target.dependsOnParent = false → name ∈ arena.shared
  clear : ∀ item ∈ done, Clear repository arena.shared
    (runNames ({ name, dependsOnParent := target.dependsOnParent } :: pending)) item.2

theorem Expanding.start (repository : Dictionary ModeDefinition) (before : Arena) (parent : Nat)
    (name : String) (target : ModeDefinition) (pending : List Pending) :
    Expanding repository before parent name target pending []
      (before.referring (referenceTo target name parent) target.expanded.length) := by
  have shared := @Arena.shared_referring before parent target.expanded.length target name
  refine ⟨(before.shared_suffix_referring target name parent _).subset, fun other member => ?_,
    fun entry member own => ?_, fun alone => ?_, by simp⟩
  · rw [shared] at member
    split at member
    · exact Or.inl member
    · rename_i alone
      rcases List.mem_cons.mp member with same | old
      · exact Or.inr (Or.inl ⟨same, by simpa using alone⟩)
      · exact Or.inl old
  · rcases List.mem_cons.mp member with rfl | old
    · refine Or.inr ⟨rfl, ?_⟩
      unfold referenceTo at own
      cases depends : target.dependsOnParent with
      | true => rfl
      | false => simp [depends] at own
    · exact Or.inl old
  · rw [shared, alone]
    exact List.mem_cons_self

theorem Expanding.step (intoFills : IntoFills into) (intoClears : IntoClears context into)
    {parent : Nat} {target : ModeDefinition} {done : List (Nat × ModeDefinition)}
    {item : Nat × ModeDefinition} (keys : before.KeysTaken) (parentTaken : parent < before.modes.size)
    (expanding : Expanding context.repository before parent name target pending done middle)
    (member : item ∈ sharedItems target before) (extends_ : Arena.Extends parent before middle)
    (taken : item.1 < middle.modes.size)
    (ran : (into ({ name, dependsOnParent := target.dependsOnParent } :: pending) item.1 item.2
      (some parent)).run middle = .ok ((), after)) :
    Expanding context.repository before parent name target pending (done ++ [item]) after := by
  have behind := (sharedItems_range member).1
  have middleKeys := keys.extends_ parentTaken extends_
  obtain ⟨explores, clear⟩ := intoClears _ _ _ _ _ _ _ middleKeys taken
    (fun entry among own => by
      rcases extends_.references entry among with old | none_ | same
      · have := keys entry old _ own
        omega
      · simp [none_] at own
      · have := Option.some.inj (same.symm.trans own)
        omega) ran
  have fills := intoFills _ _ _ _ _ _ _ ran
  refine ⟨List.Subset.trans expanding.kept explores.kept, fun other among => ?_,
    fun entry among own => ?_, fun alone => explores.kept (expanding.begun alone),
    fun other among => ?_⟩
  · rcases explores.new other among with old | cleared
    · exact (expanding.new other old).imp id (Or.imp id fun cleared => cleared.mono explores.kept)
    · exact Or.inr (Or.inr cleared)
  · rcases (fills.references entry among).2 with old | none_
    · exact expanding.filed entry old own
    · simp [none_] at own
  · rcases List.mem_append.mp among with early | last
    · exact (expanding.clear other early).mono explores.kept
    · exact List.mem_singleton.mp last ▸ clear

theorem compileShared_clears (intoFills : IntoFills into) (intoClears : IntoClears context into)
    {parent : Nat} {places : List Nat} (keys : before.KeysTaken) (taken : parent < before.modes.size)
    (explored : before.Explored context.repository (runNames pending) parent)
    (ran : (compileShared context into pending parent name).run before = .ok (places, after)) :
    Explores context.repository before after ∧
      after.Explored context.repository (runNames pending) parent ∧
      ClearEntry context.repository after.shared (runNames pending) (.shared name) := by
  obtain ⟨target, found, ⟨known, rfl⟩ | ⟨rfl, expands⟩⟩ := compileShared_eq_ok ran
  · refine ⟨Explores.refl _ _, explored, fun other otherFound => ?_⟩
    obtain rfl := Option.some.inj (found.symm.trans otherFound)
    unfold referenceTo at known
    refine ⟨fun alone => ?_, fun depends => ?_⟩
    · rw [alone] at known
      exact Arena.mem_shared.mpr ⟨places, known⟩
    · rw [depends] at known
      exact explored _ known rfl
  · obtain ⟨expanding, -⟩ := @Expands.induction _ _ _ _ _ _ _ _ intoFills expands
      (Expanding context.repository before parent name target pending)
      (Expanding.start _ _ _ _ _ _) fun done item middle next member expanding extends_ itemTaken _
        filling => expanding.step intoFills intoClears keys taken member extends_ itemTaken filling
    have clear : ClearShared context.repository after.shared
        (runNames ({ name, dependsOnParent := target.dependsOnParent } :: pending)) name := by
      intro other otherFound variant stands
      obtain rfl := Option.some.inj (found.symm.trans otherFound)
      rw [← sharedItems_definitions target before] at stands
      obtain ⟨item, member, rfl⟩ := List.mem_map.mp stands
      exact expanding.clear item member
    have within (depends : target.dependsOnParent = true) :
        ClearWithin context.repository after.shared (runNames pending) name := by
      rw [depends, runNames_cons_depends] at clear
      exact ⟨not_mem_runNames (expands.ends depends), clear⟩
    refine ⟨⟨expanding.kept, fun other member => ?_⟩, fun entry member own => ?_,
      fun other otherFound => ?_⟩
    · rcases expanding.new other member with old | ⟨rfl, alone⟩ | cleared
      · exact Or.inl old
      · rw [alone, runNames_cons_alone] at clear
        exact Or.inr clear
      · exact Or.inr cleared
    · rcases expanding.filed entry member own with old | ⟨same, depends⟩
      · exact (explored entry old own).mono expanding.kept
      · exact same ▸ within depends
    · obtain rfl := Option.some.inj (found.symm.trans otherFound)
      exact ⟨expanding.begun, within⟩

theorem compileEntry_clears (intoFills : IntoFills into) (intoClears : IntoClears context into)
    {place : Nat} {entry : ContainsEntry ModeDefinition} {places : List Nat}
    (keys : before.KeysTaken) (taken : place < before.modes.size)
    (explored : before.Explored context.repository (runNames pending) place)
    (ran : (compileEntry context into pending place entry).run before = .ok (places, after)) :
    Explores context.repository before after ∧
      after.Explored context.repository (runNames pending) place ∧
      ClearEntry context.repository after.shared (runNames pending) entry := by
  cases entry with
  | itself =>
      obtain ⟨_, rfl⟩ := run_pure_eq_ok.mp ran
      exact ⟨Explores.refl _ _, explored, trivial⟩
  | shared name => exact compileShared_clears intoFills intoClears keys taken explored ran
  | inline inner =>
      have kept := @mapM_induction _ _ _ _ _ (fun done _ arena =>
        (Explores context.repository before arena ∧
          arena.Explored context.repository (runNames pending) place ∧ arena.KeysTaken ∧
          place < arena.modes.size) ∧
          ∀ variant ∈ done, Clear context.repository arena.shared (runNames pending) variant) _ _ ran
        ⟨⟨Explores.refl _ _, explored, keys, taken⟩, by simp⟩ ?_
      · exact ⟨kept.1.1, kept.1.2.1, kept.2⟩
      · rintro done variant rest found middle made last - ⟨⟨explores, explored, keys, taken⟩, clear⟩ stepped
        obtain ⟨later, new⟩ := compileNew_clears intoClears keys stepped
        have extends_ := compileNew_extends intoFills stepped (place + 1)
        have own := compileNew_extends intoFills stepped place
        refine ⟨⟨explores.trans later, explored.extends_ later.kept extends_ (by omega),
          keys.extends_ taken own, Nat.lt_of_lt_of_le taken own.size⟩, fun other among => ?_⟩
        rcases List.mem_append.mp among with early | late
        · exact (clear other early).mono later.kept
        · exact List.mem_singleton.mp late ▸ new

theorem compileWith_clears (plain : context.extensions = []) (intoFills : IntoFills into)
    (intoClears : IntoClears context into) : IntoClears context (compileWith context into) := by
  intro pending place definition parent before done after keys taken unkept ran
  obtain ⟨normal, normalized, own, contains, filled, starts, started, steps⟩ := compileWith_eq_ok ran
  rw [plain] at normalized
  have placedTaken : place < (before.put place own).modes.size := by simpa using taken
  have placedKeys : (before.put place own).KeysTaken := by
    intro entry member parent same
    simpa using keys entry member parent same
  -- what the mode contains
  obtain ⟨⟨filledExplores, -, filledKeys, -⟩, entries⟩ := @mapM_induction _ _ _ _ _
    (fun done _ arena =>
      (Explores context.repository before arena ∧
        arena.Explored context.repository (runNames pending) place ∧ arena.KeysTaken ∧
        place < arena.modes.size) ∧
        ∀ entry ∈ done, ClearEntry context.repository arena.shared (runNames pending) entry)
    _ _ steps.filling
    ⟨⟨⟨List.Subset.refl _, fun _ member => Or.inl member⟩,
      fun entry member own => absurd own (unkept entry member), placedKeys, placedTaken⟩, by simp⟩ (by
      rintro done entry rest found middle places last - ⟨⟨explores, explored, keys, taken⟩, clear⟩
        stepped
      obtain ⟨later, explored, new⟩ :=
        compileEntry_clears intoFills intoClears keys taken explored stepped
      have extends_ := compileEntry_extends intoFills stepped
      refine ⟨⟨explores.trans later, explored, keys.extends_ taken extends_,
        Nat.lt_of_lt_of_le taken extends_.size⟩, fun other among => ?_⟩
      rcases List.mem_append.mp among with early | late
      · exact (clear other early).mono later.kept
      · exact List.mem_singleton.mp late ▸ new)
  -- what it starts
  obtain ⟨startedExplores, startsClear⟩ : Explores context.repository filled started ∧
      ∀ next, normal.starts = some next →
        Clear context.repository started.shared (runNames pending) next := by
    rcases steps.starting with ⟨none_, _, rfl⟩ | ⟨next, nextPlace, follows, _, starting⟩
    · exact ⟨Explores.refl _ _, by simp [none_]⟩
    · obtain ⟨explores, clear⟩ := compileNew_clears intoClears filledKeys starting
      refine ⟨explores, fun other same => ?_⟩
      obtain rfl := Option.some.inj (follows.symm.trans same)
      exact clear
  obtain rfl := steps.linked
  have explores := filledExplores.trans startedExplores
  refine ⟨⟨?_, ?_⟩, ?_⟩
  · rw [Arena.shared_link]
    exact explores.kept
  · rw [Arena.shared_link]
    exact explores.new
  · rw [Arena.shared_link]
    exact Clear.of_normalize normalized
      (fun entry member => (entries entry member).mono startedExplores.kept) startsClear

theorem compileInto_clears (plain : context.extensions = []) (depth : Nat) :
    IntoClears context (compileInto context depth) := by
  induction depth with
  | zero =>
      intro _ _ _ _ _ _ _ _ _ _ ran
      cases ran
  | succ depth ih => exact compileWith_clears plain (compileInto_fills depth) ih

/-- A shared mode is clear after some that have been gone through, itself among them if it depends on
the mode around it. -/
def Safe (repository : Dictionary ModeDefinition) (shared : List String) (name : String) : Prop :=
  ∀ target, repository.find? name = some target → ∃ run, ClearShared repository shared run name ∧
    (target.dependsOnParent = true → name ∈ run)

theorem ClearEntry.safe (clear : ClearEntry repository shared run (.shared name))
    (alone : ∀ other ∈ shared, ClearShared repository shared [] other) :
    Safe repository shared name := by
  intro target found
  obtain ⟨known, within⟩ := clear target found
  cases depends : target.dependsOnParent with
  | true => exact ⟨name :: run, (within depends).2, fun _ => List.mem_cons_self⟩
  | false => exact ⟨[], alone name (known depends), by simp⟩

/-- All shared modes that a clear definition leads to are safe, if those that do not depend on the modes
around them are clear. -/
theorem safe_of_reached (alone : ∀ other ∈ shared, ClearShared repository shared [] other)
    (clear : Clear repository shared run definition)
    (reached : Reached repository definition name) : Safe repository shared name := by
  obtain ⟨first, mentioned, path⟩ := reached
  induction path with
  | refl => exact (clear.mentioned mentioned).safe alone
  | tail _ refers ih =>
      obtain ⟨target, found, variant, stands, mentions⟩ := refers
      obtain ⟨_, clear, _⟩ := ih target found
      exact ((clear target found variant stands).mentioned mentions).safe alone

/-- A compilation that succeeds has reached no cyclic shared mode. -/
theorem not_cyclic_of_reached (plain : context.extensions = []) {root : ModeDefinition}
    {modes : Array Mode} (compiled : compileModes context root = .ok modes)
    (reached : Reached context.repository root name) : ¬Cyclic context.repository name := by
  obtain ⟨arena, filling, -⟩ := compileModes_eq_ok compiled
  obtain ⟨explores, clear⟩ := compileInto_clears plain context.places [] 0 root none
    (Arena.grown {} 1) () arena (by simp [Arena.KeysTaken, Arena.grown]) (by simp)
    (by simp [Arena.grown]) filling
  have alone : ∀ other ∈ arena.shared, ClearShared context.repository arena.shared [] other :=
    fun other member => (explores.new other member).resolve_left (by simp [Arena.shared, Arena.grown])
  have safe := safe_of_reached alone clear reached
  intro cyclic
  obtain ⟨_, ⟨⟨target, found, depends⟩, _⟩, _⟩ := Relation.TransGen.head'_iff.mp cyclic
  obtain ⟨run, clear, within⟩ := safe target found
  exact clear.apart cyclic ⟨target, found, depends⟩ (within depends)

end

end Highlight.Compilation

namespace Highlight.Grammar

open Outcome

/-- The compilation of a grammar without extensions ends, however many modes there can be, and its shared
modes are in order all the while: those that do not depend on the modes around them are compiled at most
once, the others within themselves only if one of those lies between, and no more of them within each
other than can be. It is given up as endless only if a shared mode is cyclic, and never succeeds if one
that it reaches is. -/
theorem compile_finishes (engine : Pattern.Engine) (definition : GrammarDefinition)
    (plain : definition.extensions = []) :
    let context := compilation engine definition
    Settles (fun outcome => outcome ≠ .error .tooManyModes)
        (fun places => Compilation.compileModes (context.limited places) definition.root) ∧
      (∀ otherwise places,
        Compilation.compileModesOrderly (context.limited places) otherwise definition.root =
          Compilation.compileModes (context.limited places) definition.root) ∧
      (∀ name shared, compile engine name definition = .error (.endlessShared shared) →
        Compilation.Cyclic definition.repository shared) ∧
      ∀ name grammar, compile engine name definition = .ok grammar →
        ∀ shared, Compilation.Reached definition.repository definition.root shared →
          ¬Compilation.Cyclic definition.repository shared := by
  refine ⟨Compilation.compileModes_settles plain definition.root,
    fun otherwise places => Compilation.compileModesOrderly_eq plain otherwise places definition.root,
    fun name shared failed => ?_, fun name grammar compiled shared reached => ?_⟩
  · unfold compile at failed
    by_cases atTop : containsItself definition.root = true
    · rw [if_pos atTop] at failed
      cases failed
    · rw [if_neg atTop] at failed
      rcases bind_eq_error.mp failed with failed | ⟨_, _, impossible⟩
      · exact @Compilation.cyclic_of_endless (compilation engine definition) plain
          Compilation.mostModes _ _ failed
      · cases impossible
  · unfold compile at compiled
    by_cases atTop : containsItself definition.root = true
    · rw [if_pos atTop] at compiled
      cases compiled
    · rw [if_neg atTop] at compiled
      obtain ⟨modes, made, _⟩ := bind_eq_ok.mp compiled
      exact Compilation.not_cyclic_of_reached plain made reached

/-- A grammar with a value that ends with the mode around it and contains a list, in which there are
values again. -/
def listing (list : ModeDefinition) : GrammarDefinition where
  root := { contains := [.shared "value"] }
  repository := ⟨[("list", list), ("value", {
    begins := some (.one "=")
    contains := [.shared "list"]
    flags := { endsWithParent := true } })],
    List.pairwise_pair.mpr (show "list" < "value" by decide)⟩

def closedList : ModeDefinition where
  begins := some (.one "\\(")
  ends := some (.one "\\)")
  contains := [.shared "value"]

def openList : ModeDefinition where
  begins := some (.one "\\(")
  contains := [.shared "value"]
  flags := { endsWithParent := true }

/-- With the first list the grammar is compiled, with the second one its compilation is endless. -/
theorem compile_finishes_listing :
    (∃ grammar, compile Pattern.engine "listing" (listing closedList) = .ok grammar) ∧
      ¬Compilation.Cyclic (listing closedList).repository "value" ∧
      compile Pattern.engine "listing" (listing openList) = .error (.endlessShared "value") ∧
      Compilation.Cyclic (listing openList).repository "value" := by
  have succeeds : (compile Pattern.engine "listing" (listing closedList)).isOk = true := by
    decide +kernel
  have fails : (match compile Pattern.engine "listing" (listing openList) with
      | .error failure => some failure
      | .ok _ => none) = some (.endlessShared "value") := by
    decide +kernel
  obtain ⟨grammar, compiled⟩ := exists_of_isOk succeeds
  have reached : Compilation.Reached (listing closedList).repository (listing closedList).root
      "value" :=
    ⟨"value", @ModeDefinition.Mentions.shared _ _ false _ rfl List.mem_cons_self, .refl⟩
  have failed : compile Pattern.engine "listing" (listing openList) =
      .error (.endlessShared "value") := by
    split at fails
    · rename_i failure came
      rw [came, Option.some.inj fails]
    · cases fails
  exact ⟨⟨grammar, compiled⟩,
    (compile_finishes Pattern.engine (listing closedList) rfl).2.2.2 _ _ compiled _ reached, failed,
    (compile_finishes Pattern.engine (listing openList) rfl).2.2.1 _ _ failed⟩

end Highlight.Grammar
