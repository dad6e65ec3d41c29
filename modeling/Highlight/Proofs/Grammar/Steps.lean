import Highlight.Grammar.Compilation
import Highlight.Proofs.Definition.Normal

set_option autoImplicit false

/-! What the steps of the compilation do to the arena when they succeed. Each of them is opened once,
here, and what the arena keeps all along is proved from that. An arena only grows: the modes that it has
are left alone, but for the one that is being compiled. -/

namespace Highlight.Compilation

open Outcome

/-! ### The mode at a place -/

namespace Arena

def mode (arena : Arena) (place : Nat) : Mode :=
  arena.modes[place]?.getD {}

def grown (arena : Arena) (count : Nat) : Arena :=
  { arena with modes := arena.modes ++ Array.replicate count {} }

def referring (arena : Arena) (reference : Reference) (count : Nat) : Arena :=
  { arena.grown count with
    references := (reference, List.range' arena.modes.size count) :: arena.references }

variable {arena : Arena} {place other count : Nat}

@[simp] theorem size_put (arena : Arena) (place : Nat) (mode : Mode) :
    (arena.put place mode).modes.size = arena.modes.size := by
  simp [put]

@[simp] theorem size_link (arena : Arena) (place : Nat) (contains : List Nat)
    (starts : Option Nat) : (arena.link place contains starts).modes.size = arena.modes.size := by
  simp [link]

@[simp] theorem size_grown : (arena.grown count).modes.size = arena.modes.size + count := by
  simp [grown]

theorem grown_succ : arena.grown (count + 1) = (arena.grown count).grown 1 := by
  simp [grown, Array.replicate_succ]

@[simp] theorem references_grown : (arena.grown count).references = arena.references := rfl

theorem mode_put_self (taken : place < arena.modes.size) (mode : Mode) :
    (arena.put place mode).mode place = mode := by
  simp [put, Arena.mode, taken]

theorem mode_put_other (different : other ≠ place) (mode : Mode) :
    (arena.put place mode).mode other = arena.mode other := by
  simp [put, Arena.mode, Ne.symm different]

theorem mode_link_self (taken : place < arena.modes.size) (contains : List Nat)
    (starts : Option Nat) : (arena.link place contains starts).mode place =
      { arena.mode place with contains, starts } := by
  simp only [link, Arena.mode, Array.getElem?_modify, if_true, Array.getElem?_eq_getElem taken]
  rfl

theorem mode_link_other (different : other ≠ place) (contains : List Nat) (starts : Option Nat) :
    (arena.link place contains starts).mode other = arena.mode other := by
  simp [link, Arena.mode, Array.getElem?_modify, Ne.symm different]

/-- A mode that has not been filled in says nothing, as if it were not there. -/
@[simp] theorem mode_grown : (arena.grown count).mode place = arena.mode place := by
  unfold grown Arena.mode
  by_cases taken : place < arena.modes.size
  · simp [Array.getElem?_append_left taken]
  · rw [Array.getElem?_append_right (Nat.le_of_not_lt taken), Array.getElem?_replicate,
      Array.getElem?_eq_none (Nat.le_of_not_lt taken)]
    split <;> rfl

theorem mode_missing (missing : arena.modes.size ≤ place) : arena.mode place = {} := by
  simp [Arena.mode, missing]

theorem taken_of_parent {parent : Nat} (made : (arena.mode place).parent = some parent) :
    place < arena.modes.size :=
  Nat.lt_of_not_le fun missing => by simp [mode_missing missing] at made

/-- Modes stay with those for which they were compiled, whatever they refer to. -/
theorem parent_link (arena : Arena) (place : Nat) (contains : List Nat) (starts : Option Nat)
    (other : Nat) : ((arena.link place contains starts).mode other).parent =
      (arena.mode other).parent := by
  by_cases same : other = place
  · rw [same]
    by_cases taken : place < arena.modes.size
    · rw [mode_link_self taken]
    · have missing := Nat.le_of_not_lt taken
      rw [mode_missing missing, mode_missing (by simpa using missing)]
  · rw [mode_link_other same]

theorem terminatorOf_eq (arena : Arena) (parent : Option Nat) :
    arena.terminatorOf parent = (parent.map fun place => (arena.mode place).terminator).getD "" := by
  unfold terminatorOf Arena.mode
  cases parent with
  | none => rfl
  | some place =>
      rw [Option.bind_some, Option.map_some]
      cases arena.modes[place]? <;> rfl

theorem lookup?_eq_some {reference : Reference} {places : List Nat}
    (found : arena.lookup? reference = some places) : (reference, places) ∈ arena.references := by
  obtain ⟨entry, first, rfl⟩ := Option.map_eq_some_iff.mp found
  obtain rfl : entry.1 = reference := by simpa using List.find?_some first
  exact List.mem_of_find?_eq_some first

end Arena

/-! ### Steps in a row -/

section

variable {α β : Type} {before after : Arena}

theorem run_bind_eq_ok {first : Compile α} {next : α → Compile β} {result : β} :
    (first >>= next).run before = .ok (result, after) ↔
      ∃ value middle, first.run before = .ok (value, middle) ∧
        (next value).run middle = .ok (result, after) := by
  rw [StateT.run_bind, bind_eq_ok, Prod.exists]

theorem run_lift_eq_ok {outcome : Except DefinitionError α} {value : α} :
    (liftM outcome : Compile α).run before = .ok (value, after) ↔
      outcome = .ok value ∧ before = after := by
  cases outcome with
  | error failure =>
      change Except.error failure = _ ↔ _
      simp
  | ok other =>
      change Except.ok (other, before) = _ ↔ _
      simp

theorem run_pure_eq_ok {value result : α} :
    (pure value : Compile α).run before = .ok (result, after) ↔ value = result ∧ before = after := by
  change Except.ok (value, before) = _ ↔ _
  simp

theorem run_get_eq_ok {arena : Arena} :
    (get : Compile Arena).run before = .ok (arena, after) ↔ before = arena ∧ before = after := by
  change Except.ok (before, before) = _ ↔ _
  simp

theorem run_modify_eq_ok {change : Arena → Arena} {done : Unit} :
    (modify change : Compile Unit).run before = .ok (done, after) ↔ change before = after := by
  change Except.ok (PUnit.unit, change before) = _ ↔ _
  simp

/-- What holds before all steps of a list and is kept by each of them holds after all of them. It may
speak of the items that are done and of what they gave. -/
theorem mapM_induction {step : α → Compile β} {held : List α → List β → Arena → Prop}
    {items : List α} {values : List β} (ran : (items.mapM step).run before = .ok (values, after))
    (start : held [] [] before)
    (each : ∀ done item rest found middle value next, items = done ++ item :: rest →
      held done found middle → (step item).run middle = .ok (value, next) →
      held (done ++ [item]) (found ++ [value]) next) : held items values after := by
  -- on the steps to come, whatever has been done
  have along : ∀ rest done found middle values, items = done ++ rest → held done found middle →
      (rest.mapM step).run middle = .ok (values, after) → held items (found ++ values) after := by
    intro rest
    induction rest with
    | nil =>
        intro done found middle values split holds ran
        rw [List.mapM_nil] at ran
        obtain ⟨rfl, rfl⟩ := run_pure_eq_ok.mp ran
        simpa [split] using holds
    | cons item rest ih =>
        intro done found middle values split holds ran
        rw [List.mapM_cons] at ran
        obtain ⟨value, next, stepped, ran⟩ := run_bind_eq_ok.mp ran
        obtain ⟨others, last, othersRan, ran⟩ := run_bind_eq_ok.mp ran
        obtain ⟨rfl, rfl⟩ := run_pure_eq_ok.mp ran
        have kept := ih (done ++ [item]) (found ++ [value]) next others (by simpa using split)
          (each done item rest found middle value next split holds stepped) othersRan
        simpa using kept
  simpa using along items [] [] before values rfl start ran

/-- Steps that give nothing are steps whose results are not asked for. -/
theorem mapM_of_forM {step : α → Compile Unit} {items : List α} {done : Unit}
    (ran : (items.forM step).run before = .ok (done, after)) :
    ∃ units, (items.mapM step).run before = .ok (units, after) := by
  induction items generalizing before with
  | nil =>
      obtain ⟨_, rfl⟩ := run_pure_eq_ok.mp ran
      exact ⟨[], rfl⟩
  | cons item rest ih =>
      obtain ⟨value, middle, stepped, ran⟩ := run_bind_eq_ok.mp ran
      obtain ⟨units, ran⟩ := ih ran
      rw [List.mapM_cons]
      exact ⟨value :: units, run_bind_eq_ok.mpr ⟨value, middle, stepped,
        run_bind_eq_ok.mpr ⟨units, after, ran, rfl⟩⟩⟩

end

/-! ### The steps of the compilation -/

section

variable {context : Context} {into : Into} {pending : List Pending} {before after : Arena}

theorem reserve_eq_ok {place : Nat} (reserved : (reserve context).run before = .ok (place, after)) :
    place = before.modes.size ∧ after = before.grown 1 := by
  unfold reserve at reserved
  obtain ⟨arena, middle, got, reserved⟩ := run_bind_eq_ok.mp reserved
  obtain ⟨rfl, rfl⟩ := run_get_eq_ok.mp got
  dsimp only at reserved
  split at reserved
  · obtain ⟨_, pushed, modified, reserved⟩ := run_bind_eq_ok.mp reserved
    obtain rfl := run_modify_eq_ok.mp modified
    obtain ⟨rfl, rfl⟩ := run_pure_eq_ok.mp reserved
    exact ⟨rfl, by simp [Arena.grown]⟩
  · cases reserved

theorem reserveAll_eq_ok {α : Type} {items : List α} {places : List Nat}
    (reserved : (items.mapM fun _ => reserve context).run before = .ok (places, after)) :
    places = List.range' before.modes.size items.length ∧ after = before.grown items.length := by
  refine @mapM_induction _ _ _ _ _ (fun done found arena =>
    found = List.range' before.modes.size done.length ∧ arena = before.grown done.length)
    _ _ reserved ⟨rfl, by simp [Arena.grown]⟩ ?_
  rintro done item rest found middle place next - ⟨rfl, rfl⟩ stepped
  obtain ⟨rfl, rfl⟩ := reserve_eq_ok stepped
  exact ⟨by simp [List.range'_concat], by rw [List.length_append]; exact Arena.grown_succ.symm⟩

theorem compileNew_eq_ok {definition : ModeDefinition} {parent : Option Nat} {place : Nat}
    (ran : (compileNew context into pending definition parent).run before = .ok (place, after)) :
    place = before.modes.size ∧
      (into pending place definition parent).run (before.grown 1) = .ok ((), after) := by
  obtain ⟨place, reserved, reserving, ran⟩ := run_bind_eq_ok.mp ran
  obtain ⟨_, filled, filling, ran⟩ := run_bind_eq_ok.mp ran
  obtain ⟨rfl, rfl⟩ := run_pure_eq_ok.mp ran
  obtain ⟨rfl, rfl⟩ := reserve_eq_ok reserving
  exact ⟨rfl, filling⟩

/-- How a shared mode is kept: with the mode around it only if it depends on that. -/
def referenceTo (definition : ModeDefinition) (name : String) (parent : Nat) : Reference :=
  { name, parent := if definition.dependsOnParent then some parent else none }

/-- A shared mode that is not there yet gets its places and is referred to, then its definitions are
compiled. -/
def expand (context : Context) (into : Into) (pending : List Pending) (name : String)
    (shared : ModeDefinition) (parent : Nat) : Compile (List Nat) := do
  let places ← shared.expanded.mapM fun _ => reserve context
  modify fun arena => { arena with
    references := (referenceTo shared name parent, places) :: arena.references }
  (places.zip shared.expanded).forM fun (place, variant) =>
    into ({ name, dependsOnParent := shared.dependsOnParent } :: pending) place variant (some parent)
  return places

theorem compileShared_run {parent : Nat} {name : String} {shared : ModeDefinition}
    (found : context.repository.find? name = some shared) :
    (compileShared context into pending parent name).run before =
      match before.lookup? (referenceTo shared name parent) with
      | some places => .ok (places, before)
      | none =>
        if shared.dependsOnParent && isEndless pending name then .error (.endlessShared name)
        else (expand context into pending name shared parent).run before := by
  unfold compileShared
  rw [found]
  change (match before.lookup? (referenceTo shared name parent) with | some _ => _ | none => _ :
    Compile (List Nat)).run before = _
  split
  · rfl
  · split <;> rfl

theorem compileShared_unknown {parent : Nat} {name : String}
    (missing : context.repository.find? name = none) :
    (compileShared context into pending parent name).run before = .error (.unknownShared name) := by
  unfold compileShared
  rw [missing]
  rfl

structure Expands (context : Context) (into : Into) (pending : List Pending) (parent : Nat)
    (name : String) (definition : ModeDefinition) (before after : Arena) : Prop where
  ends : definition.dependsOnParent = true → isEndless pending name = false
  filled : ∃ units, ((List.zip (List.range' before.modes.size definition.expanded.length)
        definition.expanded).mapM fun (place, variant) =>
      into ({ name, dependsOnParent := definition.dependsOnParent } :: pending) place variant
        (some parent)).run
    (before.referring (referenceTo definition name parent) definition.expanded.length) =
      .ok (units, after)

theorem compileShared_eq_ok {parent : Nat} {name : String} {places : List Nat}
    (ran : (compileShared context into pending parent name).run before = .ok (places, after)) :
    ∃ definition, context.repository.find? name = some definition ∧
      ((referenceTo definition name parent, places) ∈ before.references ∧ after = before ∨
        places = List.range' before.modes.size definition.expanded.length ∧
          Expands context into pending parent name definition before after) := by
  cases found : context.repository.find? name with
  | none =>
      rw [compileShared_unknown found] at ran
      cases ran
  | some definition =>
      refine ⟨definition, rfl, ?_⟩
      rw [compileShared_run found] at ran
      split at ran
      · rename_i known lookedUp
        obtain ⟨rfl, rfl⟩ := Prod.mk.inj (Except.ok.inj ran)
        exact Or.inl ⟨Arena.lookup?_eq_some lookedUp, rfl⟩
      · split at ran
        · cases ran
        · rename_i goesOn
          obtain ⟨places, reserved, reserving, ran⟩ := run_bind_eq_ok.mp ran
          obtain ⟨_, referred, referring, ran⟩ := run_bind_eq_ok.mp ran
          obtain rfl := run_modify_eq_ok.mp referring
          obtain ⟨_, filled, filling, ran⟩ := run_bind_eq_ok.mp ran
          obtain ⟨rfl, rfl⟩ := run_pure_eq_ok.mp ran
          obtain ⟨rfl, rfl⟩ := reserveAll_eq_ok reserving
          exact Or.inr ⟨rfl, by simpa using goesOn, mapM_of_forM filling⟩

/-- A definition without shorthand is compiled: its own part is put in place, then what it contains is
compiled, then what it starts, and both are linked to it. -/
structure Compiles (context : Context) (into : Into) (pending : List Pending) (place : Nat)
    (parent : Option Nat) (normal : ModeDefinition) (before after : Arena) (own : Mode)
    (contains : List (List Nat)) (filled : Arena) (starts : Option Nat) (started : Arena) : Prop where
  made : ownPart context normal parent (before.terminatorOf parent) = .ok own
  filling : (normal.contains.mapM (compileEntry context into pending place)).run
    (before.put place own) = .ok (contains, filled)
  starting : normal.starts = none ∧ starts = none ∧ started = filled ∨
    ∃ next nextPlace, normal.starts = some next ∧ starts = some nextPlace ∧
      (compileNew context into pending next parent).run filled = .ok (nextPlace, started)
  linked : after = started.link place contains.flatten starts

theorem compileWith_eq_ok {place : Nat} {definition : ModeDefinition} {parent : Option Nat}
    {done : Unit}
    (ran : (compileWith context into pending place definition parent).run before =
      .ok (done, after)) :
    ∃ normal, definition.normalize parent.isSome context.extensions = .ok normal ∧
      ∃ own contains filled starts started,
        Compiles context into pending place parent normal before after own contains filled starts
          started := by
  obtain ⟨normal, middle, normalizing, ran⟩ := run_bind_eq_ok.mp ran
  obtain ⟨normalized, rfl⟩ := run_lift_eq_ok.mp normalizing
  obtain ⟨arena, middle, got, ran⟩ := run_bind_eq_ok.mp ran
  obtain ⟨rfl, rfl⟩ := run_get_eq_ok.mp got
  obtain ⟨own, middle, making, ran⟩ := run_bind_eq_ok.mp ran
  obtain ⟨made, rfl⟩ := run_lift_eq_ok.mp making
  obtain ⟨_, placed, placing, ran⟩ := run_bind_eq_ok.mp ran
  obtain rfl := run_modify_eq_ok.mp placing
  obtain ⟨contains, filled, filling, ran⟩ := run_bind_eq_ok.mp ran
  obtain ⟨starts, started, starting, ran⟩ := run_bind_eq_ok.mp ran
  obtain rfl := run_modify_eq_ok.mp ran
  refine ⟨normal, normalized, own, contains, filled, starts, started, made, filling, ?_, rfl⟩
  cases follows : normal.starts with
  | none =>
      rw [follows] at starting
      obtain ⟨rfl, rfl⟩ := run_pure_eq_ok.mp starting
      exact Or.inl ⟨rfl, rfl, rfl⟩
  | some next =>
      rw [follows, Option.mapM_some, map_eq_pure_bind] at starting
      obtain ⟨nextPlace, last, compiling, starting⟩ := run_bind_eq_ok.mp starting
      obtain ⟨rfl, rfl⟩ := run_pure_eq_ok.mp starting
      exact Or.inr ⟨next, nextPlace, rfl, rfl, compiling⟩

theorem Compiles.run {place : Nat} {definition normal : ModeDefinition} {parent : Option Nat}
    {own : Mode} {contains : List (List Nat)} {filled started : Arena} {starts : Option Nat}
    (compiles : Compiles context into pending place parent normal before after own contains filled
      starts started)
    (normalized : definition.normalize parent.isSome context.extensions = .ok normal) :
    (compileWith context into pending place definition parent).run before = .ok ((), after) := by
  have starting : (normal.starts.mapM fun next => compileNew context into pending next parent).run
      filled = .ok (starts, started) := by
    rcases compiles.starting with ⟨none_, rfl, rfl⟩ | ⟨next, nextPlace, follows, rfl, compiling⟩
    · rw [none_]
      rfl
    · rw [follows, Option.mapM_some, map_eq_pure_bind]
      exact run_bind_eq_ok.mpr ⟨nextPlace, started, compiling, rfl⟩
  refine run_bind_eq_ok.mpr ⟨normal, before, run_lift_eq_ok.mpr ⟨normalized, rfl⟩, ?_⟩
  refine run_bind_eq_ok.mpr ⟨before, before, run_get_eq_ok.mpr ⟨rfl, rfl⟩, ?_⟩
  refine run_bind_eq_ok.mpr ⟨own, before, run_lift_eq_ok.mpr ⟨compiles.made, rfl⟩, ?_⟩
  refine run_bind_eq_ok.mpr ⟨(), before.put place own, run_modify_eq_ok.mpr rfl, ?_⟩
  refine run_bind_eq_ok.mpr ⟨contains, filled, compiles.filling, ?_⟩
  refine run_bind_eq_ok.mpr ⟨starts, started, starting, ?_⟩
  exact run_modify_eq_ok.mpr compiles.linked.symm

/-- What a definition says about one mode: its keywords and its patterns have been compiled, what ends it
is put together with what ends the mode around it, and it does not refer to other modes. -/
structure OwnPart (context : Context) (definition : ModeDefinition) (parent : Option Nat)
    (around : String) (own : Mode) : Prop where
  keywords : definition.keywords.mapM (KeywordTable.compile context.engine context.flags) =
    .ok own.keywords
  begins : parent.mapM (fun _ => context.regex (beginSource definition)) = .ok own.begins
  ends : (parent.bind fun _ => endSource? definition).mapM context.regex = .ok own.ends
  illegal : (ModeDefinition.singleSource? definition.illegal).mapM context.regex = .ok own.illegal
  beginScope : definition.beginScope.mapM (emission definition.beginGroups) = .ok own.beginScope
  endScope : definition.endScope.mapM (emission definition.endGroups) = .ok own.endScope
  terminator : own.terminator = (parent.map fun _ =>
    terminator (endSource? definition) definition.flags.endsWithParent around).getD ""
  parent : own.parent = parent
  flags : own.flags = definition.flags
  contains : own.contains = []
  starts : own.starts = none

theorem ownPart_eq_ok {definition : ModeDefinition} {parent : Option Nat} {around : String}
    {own : Mode} (made : ownPart context definition parent around = .ok own) :
    OwnPart context definition parent around own := by
  obtain ⟨_, keywords, made⟩ := bind_eq_ok.mp made
  obtain ⟨_, begins, made⟩ := bind_eq_ok.mp made
  obtain ⟨_, ends, made⟩ := bind_eq_ok.mp made
  obtain ⟨_, illegal, made⟩ := bind_eq_ok.mp made
  obtain ⟨_, beginScope, made⟩ := bind_eq_ok.mp made
  obtain ⟨_, endScope, made⟩ := bind_eq_ok.mp made
  obtain rfl := pure_eq_ok.mp made
  refine ⟨keywords, begins, ends, illegal, beginScope, endScope, ?_, rfl, rfl, rfl, rfl⟩
  cases parent <;> rfl

end

/-! ### What is left alone -/

namespace Arena

/-- An arena that has grown out of another one while the modes within the one at a place were compiled:
all modes are as they were, and all shared modes that are new are ones that do not depend on the mode
around them, or were compiled for the one at the place. -/
structure Extends (place : Nat) (before after : Arena) : Prop where
  size : before.modes.size ≤ after.modes.size
  modes : ∀ other, other < before.modes.size → after.mode other = before.mode other
  references : ∀ entry ∈ after.references, entry ∈ before.references ∨ entry.1.parent = none ∨
    entry.1.parent = some place
  shared : ∀ entry ∈ before.references, entry.1.parent = none → entry ∈ after.references

/-- An arena in which a definition has been compiled into its place: all modes but that one are as they
were, and the shared modes that are new do not depend on the mode around them. -/
structure Fills (place : Nat) (before after : Arena) : Prop where
  size : before.modes.size ≤ after.modes.size
  modes : ∀ other, other < before.modes.size → other ≠ place → after.mode other = before.mode other
  references : ∀ entry ∈ after.references, entry.1.parent ≠ some place ∧
    (entry ∈ before.references ∨ entry.1.parent = none)
  shared : ∀ entry ∈ before.references, entry.1.parent = none → entry ∈ after.references

namespace Extends

variable {place : Nat} {before middle after : Arena}

theorem refl (place : Nat) (arena : Arena) : Extends place arena arena :=
  ⟨Nat.le_refl _, fun _ _ => rfl, fun _ member => Or.inl member, fun _ member _ => member⟩

theorem trans (early : Extends place before middle) (late : Extends place middle after) :
    Extends place before after where
  size := Nat.le_trans early.size late.size
  modes other taken :=
    (late.modes other (Nat.lt_of_lt_of_le taken early.size)).trans (early.modes other taken)
  references entry member := by
    rcases late.references entry member with old | new
    · exact early.references entry old
    · exact Or.inr new
  shared entry member none_ := late.shared entry (early.shared entry member none_) none_

theorem grown (place : Nat) (arena : Arena) (count : Nat) : Extends place arena (arena.grown count) where
  size := by simp
  modes := by simp
  references entry member := Or.inl member
  shared entry member _ := member

theorem referring (arena : Arena) {reference : Reference}
    (own : reference.parent = none ∨ reference.parent = some place) (count : Nat) :
    Extends place arena (arena.referring reference count) where
  size := by simp [Arena.referring]
  modes := (grown place arena count).modes
  references entry member := by
    rcases List.mem_cons.mp member with rfl | old
    · exact Or.inr own
    · exact Or.inl old
  shared entry member _ := List.mem_cons_of_mem _ member

theorem fill {fresh : Nat} (early : Extends place before middle) (late : Fills fresh middle after)
    (missing : before.modes.size ≤ fresh) : Extends place before after where
  size := Nat.le_trans early.size late.size
  modes other taken :=
    (late.modes other (Nat.lt_of_lt_of_le taken early.size) (by omega)).trans
      (early.modes other taken)
  references entry member := by
    rcases (late.references entry member).2 with old | none_
    · exact early.references entry old
    · exact Or.inr (Or.inl none_)
  shared entry member none_ := late.shared entry (early.shared entry member none_) none_

end Extends

/-- A mode is filled in with its own part, what is compiled within it, and the links to that. -/
theorem Fills.of_extends {place : Nat} {own : Mode} {before after : Arena}
    (extends_ : Extends place (before.put place own) after) (contains : List Nat)
    (starts : Option Nat) : Fills place before (after.link place contains starts) where
  size := by simpa using extends_.size
  modes other taken different := by
    rw [mode_link_other different, extends_.modes other (by simpa using taken),
      mode_put_other different]
  references entry member := by
    obtain ⟨member, other⟩ := List.mem_filter.mp member
    have unkept : entry.1.parent ≠ some place := by simpa using other
    refine ⟨unkept, ?_⟩
    rcases extends_.references entry member with old | none_ | own
    · exact Or.inl old
    · exact Or.inr none_
    · exact absurd own unkept
  shared entry member none_ :=
    List.mem_filter.mpr ⟨extends_.shared entry member none_, by simp [none_]⟩

end Arena

section

variable {context : Context} {into : Into} {pending : List Pending} {before after : Arena}

def IntoFills (into : Into) : Prop :=
  ∀ pending place definition parent before done after,
    (into pending place definition parent).run before = .ok (done, after) →
      Arena.Fills place before after

theorem compileNew_extends (intoFills : IntoFills into) {definition : ModeDefinition}
    {parent : Option Nat} {place : Nat}
    (ran : (compileNew context into pending definition parent).run before = .ok (place, after))
    (own : Nat) : Arena.Extends own before after := by
  obtain ⟨rfl, filling⟩ := compileNew_eq_ok ran
  exact (Arena.Extends.grown own before 1).fill (intoFills _ _ _ _ _ _ _ filling) (Nat.le_refl _)

def sharedItems (definition : ModeDefinition) (arena : Arena) : List (Nat × ModeDefinition) :=
  List.zip (List.range' arena.modes.size definition.expanded.length) definition.expanded

theorem sharedItems_places (definition : ModeDefinition) (arena : Arena) :
    (sharedItems definition arena).map Prod.fst =
      List.range' arena.modes.size definition.expanded.length :=
  List.map_fst_zip (by simp)

theorem sharedItems_definitions (definition : ModeDefinition) (arena : Arena) :
    (sharedItems definition arena).map Prod.snd = definition.expanded :=
  List.map_snd_zip (by simp)

theorem mem_expanded_of_sharedItems {definition : ModeDefinition} {arena : Arena}
    {item : Nat × ModeDefinition} (member : item ∈ sharedItems definition arena) :
    item.2 ∈ definition.expanded := by
  rw [← sharedItems_definitions definition arena]
  exact List.mem_map_of_mem member

theorem sharedItems_range {definition : ModeDefinition} {arena : Arena}
    {item : Nat × ModeDefinition} (member : item ∈ sharedItems definition arena) :
    arena.modes.size ≤ item.1 ∧ item.1 < arena.modes.size + definition.expanded.length := by
  have placed : item.1 ∈ (sharedItems definition arena).map Prod.fst := List.mem_map_of_mem member
  rw [sharedItems_places, List.mem_range'_1] at placed
  exact placed

/-- What holds once a shared mode is referred to, and is kept as each of its definitions is compiled
into a place that has not been filled in, holds once all are. -/
theorem Expands.induction {parent : Nat} {name : String} {definition : ModeDefinition}
    (intoFills : IntoFills into)
    (expands : Expands context into pending parent name definition before after)
    {held : List (Nat × ModeDefinition) → Arena → Prop}
    (start : held []
      (before.referring (referenceTo definition name parent) definition.expanded.length))
    (each : ∀ done item middle next, item ∈ sharedItems definition before → held done middle →
      Arena.Extends parent before middle → item.1 < middle.modes.size → middle.mode item.1 = {} →
      (into ({ name, dependsOnParent := definition.dependsOnParent } :: pending) item.1 item.2
        (some parent)).run middle = .ok ((), next) → held (done ++ [item]) next) :
    held (sharedItems definition before) after ∧ Arena.Extends parent before after := by
  obtain ⟨units, filling⟩ := expands.filled
  have distinct : ((sharedItems definition before).map Prod.fst).Nodup := by
    rw [sharedItems_places]
    exact List.nodup_range'
  -- the places of the definitions to come have not been filled in
  have kept := @mapM_induction _ _ _ _ _ (fun done _ arena =>
    held done arena ∧ Arena.Extends parent before arena ∧
      before.modes.size + definition.expanded.length ≤ arena.modes.size ∧
      ∀ rest, sharedItems definition before = done ++ rest → ∀ item ∈ rest, arena.mode item.1 = {})
    _ _ filling ⟨start, ?_, by simp [Arena.referring], ?_⟩ ?_
  · exact ⟨kept.1, kept.2.1⟩
  · refine Arena.Extends.referring before ?_ _
    unfold referenceTo
    split
    · exact Or.inr rfl
    · exact Or.inl rfl
  · rintro rest rfl item member
    have missing : (before.grown definition.expanded.length).mode item.1 = {} := by
      rw [Arena.mode_grown, Arena.mode_missing (sharedItems_range member).1]
    exact missing
  · rintro done item rest found middle _ next split ⟨holds, early, large, unfilled⟩ stepped
    change sharedItems definition before = done ++ item :: rest at split
    have member : item ∈ sharedItems definition before := by simp [split]
    obtain ⟨first, last⟩ := sharedItems_range member
    have late := intoFills _ _ _ _ _ _ _ stepped
    refine ⟨each done item middle next member holds early (by omega)
      (unfilled _ split item List.mem_cons_self) stepped, early.fill late first,
      Nat.le_trans large late.size, fun others same other otherMember => ?_⟩
    obtain rfl : rest = others := by simpa [split] using same
    have otherPlace : _ ∧ other.1 < _ :=
      sharedItems_range (show other ∈ sharedItems definition before by simp [split, otherMember])
    rw [late.modes other.1 (by omega) ?_]
    · exact unfilled _ split other (List.mem_cons_of_mem _ otherMember)
    · rintro together
      rw [split, List.map_append, List.map_cons] at distinct
      exact (List.nodup_cons.mp (List.nodup_append.mp distinct).2.1).1
        (together ▸ List.mem_map_of_mem otherMember)

theorem compileShared_extends (intoFills : IntoFills into) {parent : Nat} {name : String}
    {places : List Nat}
    (ran : (compileShared context into pending parent name).run before = .ok (places, after)) :
    Arena.Extends parent before after := by
  obtain ⟨definition, _, ⟨_, rfl⟩ | ⟨_, expands⟩⟩ := compileShared_eq_ok ran
  · exact Arena.Extends.refl parent after
  · exact (@Expands.induction _ _ _ _ _ _ _ _ intoFills expands (fun _ _ => True) trivial
      fun _ _ _ _ _ _ _ _ _ _ => trivial).2

theorem compileEntry_extends (intoFills : IntoFills into) {place : Nat}
    {entry : ContainsEntry ModeDefinition} {places : List Nat}
    (ran : (compileEntry context into pending place entry).run before = .ok (places, after)) :
    Arena.Extends place before after := by
  cases entry with
  | itself =>
      obtain ⟨_, rfl⟩ := run_pure_eq_ok.mp ran
      exact Arena.Extends.refl place before
  | shared name => exact compileShared_extends intoFills ran
  | inline definition =>
      exact @mapM_induction _ _ _ _ _ (fun _ _ arena => Arena.Extends place before arena) _ _ ran
        (Arena.Extends.refl place before) fun _ _ _ _ _ _ _ _ early stepped =>
          early.trans (compileNew_extends intoFills stepped place)

theorem Compiles.extends_ {place : Nat} {parent : Option Nat} {normal : ModeDefinition} {own : Mode}
    {contains : List (List Nat)} {filled started : Arena} {starts : Option Nat}
    (intoFills : IntoFills into)
    (steps : Compiles context into pending place parent normal before after own contains filled starts
      started) :
    Arena.Extends place (before.put place own) filled ∧ Arena.Extends place filled started := by
  constructor
  · exact @mapM_induction _ _ _ _ _
      (fun _ _ arena => Arena.Extends place (before.put place own) arena) _ _ steps.filling
      (Arena.Extends.refl _ _) fun _ _ _ _ _ _ _ _ early stepped =>
        early.trans (compileEntry_extends intoFills stepped)
  · rcases steps.starting with ⟨_, _, rfl⟩ | ⟨next, nextPlace, _, _, starting⟩
    · exact Arena.Extends.refl place started
    · exact compileNew_extends intoFills starting place

theorem compileWith_fills (intoFills : IntoFills into) : IntoFills (compileWith context into) := by
  intro pending place definition parent before done after ran
  obtain ⟨normal, _, own, contains, filled, starts, started, steps⟩ := compileWith_eq_ok ran
  obtain ⟨early, late⟩ := steps.extends_ intoFills
  obtain rfl := steps.linked
  exact Arena.Fills.of_extends (early.trans late) _ _

theorem compileInto_fills (depth : Nat) : IntoFills (compileInto context depth) := by
  induction depth with
  | zero =>
      intro _ _ _ _ _ _ _ ran
      cases ran
  | succ depth ih => exact compileWith_fills ih

theorem compileModes_eq_ok {root : ModeDefinition} {modes : Array Mode}
    (compiled : compileModes context root = .ok modes) :
    ∃ arena : Arena, (compileInto context context.places [] 0 root none).run (Arena.grown {} 1) =
      .ok ((), arena) ∧ arena.modes = modes := by
  obtain ⟨⟨place, arena⟩, ran, compiled⟩ := bind_eq_ok.mp compiled
  obtain rfl := pure_eq_ok.mp compiled
  obtain ⟨rfl, filling⟩ := compileNew_eq_ok ran
  exact ⟨arena, filling, rfl⟩

end

end Highlight.Compilation
