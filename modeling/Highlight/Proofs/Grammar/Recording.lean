import Highlight.Proofs.Grammar.Steps

set_option autoImplicit false

/-! The compilation with a record of what is put into which place. Without the record it is the
compilation, step by step. The record shows that each place that is taken is filled, once and not again:
while modes are compiled, each place has been filled or is still open, and never both. -/

namespace Highlight.Compilation

open Outcome

/-- The places that have been filled, in this order, and what was put there. -/
abbrev Record := List (Nat × Mode)

abbrev Recording := StateT Record Compile

namespace Recording

abbrev Into := List Pending → Nat → ModeDefinition → Option Nat → Recording Unit

def compileNew (context : Context) (into : Into) (pending : List Pending)
    (definition : ModeDefinition) (parent : Option Nat) : Recording Nat := do
  let place ← reserve context
  into pending place definition parent
  return place

def compileShared (context : Context) (into : Into) (pending : List Pending) (parent : Nat)
    (name : String) : Recording (List Nat) :=
  match context.repository.find? name with
  | none => liftM (throw (.unknownShared name) : Compile (List Nat))
  | some definition => do
    let arena ← (get : Compile Arena)
    match arena.lookup? (referenceTo definition name parent) with
    | some places => return places
    | none =>
      if definition.dependsOnParent && isEndless pending name then
        liftM (throw (.endlessShared name) : Compile (List Nat))
      else
        let places ← (definition.expanded.mapM fun _ => reserve context : Compile (List Nat))
        liftM (modify fun arena => { arena with
          references := (referenceTo definition name parent, places) :: arena.references } : Compile Unit)
        let pending := { name, dependsOnParent := definition.dependsOnParent } :: pending
        (places.zip definition.expanded).forM fun (place, variant) =>
          into pending place variant (some parent)
        return places

def compileEntry (context : Context) (into : Into) (pending : List Pending) (place : Nat) :
    ContainsEntry ModeDefinition → Recording (List Nat)
  | .itself => return [place]
  | .shared name => compileShared context into pending place name
  | .inline definition =>
    definition.expanded.mapM fun variant => compileNew context into pending variant (some place)

/-- What is put in place is recorded there and then. -/
def compileWith (context : Context) (into : Into) : Into :=
  fun pending place definition parent => do
    let normal ← (liftM (definition.normalize parent.isSome context.extensions) :
      Compile ModeDefinition)
    let arena ← (get : Compile Arena)
    let own ← (liftM (ownPart context normal parent (arena.terminatorOf parent)) : Compile Mode)
    liftM (modify fun arena => arena.put place own : Compile Unit)
    modify fun record => record ++ [(place, own)]
    let contains ← normal.contains.mapM (compileEntry context into pending place)
    let starts ← normal.starts.mapM fun next => compileNew context into pending next parent
    liftM (modify fun arena => arena.link place contains.flatten starts : Compile Unit)

def compileInto (context : Context) : Nat → Into
  | 0 => fun _ _ _ _ => liftM (throw .tooManyModes : Compile Unit)
  | depth + 1 => compileWith context (compileInto context depth)

def compileModes (context : Context) (root : ModeDefinition) :
    Except DefinitionError (Array Mode × Record) := do
  let ((_, record), arena) ←
    ((compileNew context (compileInto context context.places) [] root none).run []).run {}
  return (arena.modes, record)

/-! ### Without the record -/

/-- A step with a record that is another step if the record is dropped. -/
def Erases {α : Type} (recording : Recording α) (plain : Compile α) : Prop :=
  ∀ record, Prod.fst <$> recording.run record = plain

section

variable {α β : Type}

theorem erases_lift (plain : Compile α) : Erases (liftM plain) plain := by
  intro record
  change Prod.fst <$> (plain >>= fun value => pure (value, record)) = plain
  simp

theorem erases_pure (value : α) : Erases (pure value) (pure value) := by
  intro record
  change Prod.fst <$> (pure (value, record) : Compile (α × Record)) = pure value
  simp

theorem Erases.bind {recording : Recording α} {plain : Compile α} {next : α → Recording β}
    {onward : α → Compile β} (first : Erases recording plain)
    (rest : ∀ value, Erases (next value) (onward value)) : Erases (recording >>= next) (plain >>= onward) := by
  intro record
  rw [StateT.run_bind, map_bind, ← first record, bind_map_left]
  exact bind_congr fun pair => rest pair.1 pair.2

theorem Erases.note {change : Record → Record} {next : Recording α} {plain : Compile α}
    (rest : Erases next plain) : Erases (modify change >>= fun _ => next) plain := by
  intro record
  change Prod.fst <$> (pure ((), change record) >>= fun pair => next.run pair.2) = plain
  rw [pure_bind]
  exact rest _

theorem Erases.mapM {recording : α → Recording β} {plain : α → Compile β}
    (each : ∀ item, Erases (recording item) (plain item)) (items : List α) :
    Erases (items.mapM recording) (items.mapM plain) := by
  induction items with
  | nil => exact erases_pure []
  | cons item rest ih =>
      rw [List.mapM_cons, List.mapM_cons]
      exact (each item).bind fun value => ih.bind fun values => erases_pure (value :: values)

theorem Erases.forM {recording : α → Recording Unit} {plain : α → Compile Unit}
    (each : ∀ item, Erases (recording item) (plain item)) (items : List α) :
    Erases (items.forM recording) (items.forM plain) := by
  induction items with
  | nil => exact erases_pure ()
  | cons item rest ih => exact (each item).bind fun _ => ih

theorem Erases.optionMapM {recording : α → Recording β} {plain : α → Compile β}
    (each : ∀ item, Erases (recording item) (plain item)) (item : Option α) :
    Erases (item.mapM recording) (item.mapM plain) := by
  cases item with
  | none => exact erases_pure none
  | some item =>
      rw [Option.mapM_some, Option.mapM_some, map_eq_pure_bind, map_eq_pure_bind]
      exact (each item).bind fun value => erases_pure (some value)

end

section

variable {context : Context} {recording : Into} {into : Compilation.Into}
  (erases : ∀ pending place definition parent,
    Erases (recording pending place definition parent) (into pending place definition parent))

include erases

theorem compileNew_erases (pending : List Pending) (definition : ModeDefinition)
    (parent : Option Nat) :
    Erases (compileNew context recording pending definition parent)
      (Compilation.compileNew context into pending definition parent) := by
  refine (erases_lift _).bind fun place => ?_
  exact (erases _ _ _ _).bind fun _ => erases_pure place

theorem compileShared_erases (pending : List Pending) (parent : Nat) (name : String) :
    Erases (compileShared context recording pending parent name)
      (Compilation.compileShared context into pending parent name) := by
  unfold compileShared Compilation.compileShared
  cases context.repository.find? name with
  | none => exact erases_lift _
  | some definition =>
      refine (erases_lift _).bind fun arena => ?_
      change Erases (match arena.lookup? (referenceTo definition name parent) with
        | some _ => _ | none => _) (match arena.lookup? (referenceTo definition name parent) with
        | some _ => _ | none => _)
      split
      · exact erases_pure _
      · split
        · exact erases_lift _
        · refine (erases_lift _).bind fun places => (erases_lift _).bind fun _ => ?_
          exact (Erases.forM (fun _ => erases _ _ _ _) _).bind fun _ => erases_pure places

theorem compileEntry_erases (pending : List Pending) (place : Nat)
    (entry : ContainsEntry ModeDefinition) :
    Erases (compileEntry context recording pending place entry)
      (Compilation.compileEntry context into pending place entry) := by
  cases entry with
  | itself => exact erases_pure _
  | shared name => exact compileShared_erases erases pending place name
  | inline definition =>
      exact Erases.mapM (fun variant => compileNew_erases erases pending variant (some place)) _

theorem compileWith_erases (pending : List Pending) (place : Nat) (definition : ModeDefinition)
    (parent : Option Nat) :
    Erases (compileWith context recording pending place definition parent)
      (Compilation.compileWith context into pending place definition parent) := by
  refine (erases_lift _).bind fun normal => (erases_lift _).bind fun arena => ?_
  refine (erases_lift _).bind fun own => (erases_lift _).bind fun _ => Erases.note ?_
  refine (Erases.mapM (compileEntry_erases erases pending place) _).bind fun contains => ?_
  refine (Erases.optionMapM (fun next => compileNew_erases erases pending next parent) _).bind
    fun starts => ?_
  exact erases_lift _

end

theorem compileInto_erases (context : Context) (depth : Nat) (pending : List Pending) (place : Nat)
    (definition : ModeDefinition) (parent : Option Nat) :
    Erases (compileInto context depth pending place definition parent)
      (Compilation.compileInto context depth pending place definition parent) := by
  induction depth generalizing pending place definition parent with
  | zero => exact erases_lift _
  | succ depth ih => exact compileWith_erases ih pending place definition parent

/-- The compilation is the same with and without a record. -/
theorem map_compileModes (context : Context) (root : ModeDefinition) :
    Prod.fst <$> compileModes context root = Compilation.compileModes context root := by
  have erased : Erases (compileNew context (compileInto context context.places) [] root none)
      (Compilation.compileNew context (Compilation.compileInto context context.places) [] root none) :=
    compileNew_erases (compileInto_erases context context.places) [] root none
  unfold compileModes Compilation.compileModes
  rw [← erased [], StateT.run_map, map_bind, bind_map_left]
  rfl

/-! ### Each place is filled once -/

/-- Each place has been filled, once, or is still to be filled, what has been put there is there but for
the modes that it refers to, and there are no more places than the limit says. -/
structure Accounts (limit : Nat) (record : Record) (arena : Arena) (unfilled : List Nat) : Prop where
  size : arena.modes.size ≤ limit
  places : (record.map Prod.fst ++ unfilled).Perm (List.range arena.modes.size)
  kept : ∀ entry ∈ record, { arena.mode entry.1 with contains := [], starts := none } = entry.2

namespace Accounts

variable {limit : Nat} {record : Record} {arena : Arena} {unfilled : List Nat} {place : Nat}

theorem grown (accounts : Accounts limit record arena unfilled) {count : Nat}
    (within : (arena.grown count).modes.size ≤ limit) :
    Accounts limit record (arena.grown count) (List.range' arena.modes.size count ++ unfilled) where
  size := within
  places := by
    rw [Arena.size_grown, List.range_add, ← List.range'_eq_map_range]
    refine List.Perm.trans ?_ (accounts.places.append_right _)
    rw [List.append_assoc]
    exact List.perm_append_comm.append_left _
  kept := by
    simpa using accounts.kept

theorem referring (accounts : Accounts limit record arena unfilled) (references) :
    Accounts limit record { arena with references } unfilled :=
  ⟨accounts.size, accounts.places, accounts.kept⟩

theorem put (accounts : Accounts limit record arena (place :: unfilled)) {own : Mode}
    (contains : own.contains = []) (starts : own.starts = none) :
    Accounts limit (record ++ [(place, own)]) (arena.put place own) unfilled where
  size := by
    rw [Arena.size_put]
    exact accounts.size
  places := by
    rw [Arena.size_put, List.map_append, List.append_assoc]
    exact accounts.places
  kept := by
    have distinct := accounts.places.nodup_iff.mpr List.nodup_range
    have taken : place < arena.modes.size := by
      rw [← List.mem_range, ← accounts.places.mem_iff]
      simp
    intro entry member
    rcases List.mem_append.mp member with earlier | new
    · rw [Arena.mode_put_other]
      · exact accounts.kept entry earlier
      · rintro rfl
        exact (List.nodup_append.mp distinct).2.2 _ (List.mem_map_of_mem earlier) _
          List.mem_cons_self rfl
    · obtain rfl := List.mem_singleton.mp new
      rw [Arena.mode_put_self taken, ← contains, ← starts]

theorem link (accounts : Accounts limit record arena unfilled) (contains : List Nat)
    (starts : Option Nat) : Accounts limit record (arena.link place contains starts) unfilled where
  size := by
    rw [Arena.size_link]
    exact accounts.size
  places := by
    rw [Arena.size_link]
    exact accounts.places
  kept := by
    intro entry member
    rw [← accounts.kept entry member]
    by_cases same : entry.1 = place
    · rw [same]
      by_cases taken : place < arena.modes.size
      · rw [Arena.mode_link_self taken]
      · rw [Arena.mode_missing (Nat.le_of_not_lt taken), Arena.mode_missing (by simpa using taken)]
    · rw [Arena.mode_link_other same]

end Accounts

section

variable {α β : Type} {limit : Nat} {record last : Record} {before after : Arena}

theorem run_bind_eq_ok {first : Recording α} {next : α → Recording β} {result : β} :
    ((first >>= next).run record).run before = .ok ((result, last), after) ↔
      ∃ value early middle, (first.run record).run before = .ok ((value, early), middle) ∧
        ((next value).run early).run middle = .ok ((result, last), after) := by
  rw [StateT.run_bind, Compilation.run_bind_eq_ok]
  simp only [Prod.exists]

theorem run_lift_eq_ok {plain : Compile α} {value : α} :
    ((liftM plain : Recording α).run record).run before = .ok ((value, last), after) ↔
      plain.run before = .ok (value, after) ∧ record = last := by
  change (plain >>= fun value => pure (value, record)).run before = _ ↔ _
  rw [Compilation.run_bind_eq_ok]
  simp only [Compilation.run_pure_eq_ok, Prod.mk.injEq]
  constructor
  · rintro ⟨_, _, ran, ⟨rfl, rfl⟩, rfl⟩
    exact ⟨ran, rfl⟩
  · rintro ⟨ran, rfl⟩
    exact ⟨value, after, ran, ⟨rfl, rfl⟩, rfl⟩

theorem run_pure_eq_ok {value result : α} :
    ((pure value : Recording α).run record).run before = .ok ((result, last), after) ↔
      value = result ∧ record = last ∧ before = after := by
  change Except.ok ((value, record), before) = _ ↔ _
  simp [and_assoc]

theorem run_note_eq_ok {change : Record → Record} {done : Unit} :
    ((modify change : Recording Unit).run record).run before = .ok ((done, last), after) ↔
      change record = last ∧ before = after := by
  change Except.ok (((), change record), before) = _ ↔ _
  simp

def Balances (limit : Nat) (step : Recording α) : Prop :=
  ∀ unfilled record before value last after, Accounts limit record before unfilled →
    (step.run record).run before = .ok ((value, last), after) → Accounts limit last after unfilled

def IntoBalances (limit : Nat) (into : Into) : Prop :=
  ∀ pending place definition parent unfilled record before done last after,
    Accounts limit record before (place :: unfilled) →
    ((into pending place definition parent).run record).run before = .ok ((done, last), after) →
      Accounts limit last after unfilled

theorem balances_pure (value : α) : Balances limit (pure value) := by
  intro unfilled record before _ last after accounts ran
  obtain ⟨rfl, rfl, rfl⟩ := run_pure_eq_ok.mp ran
  exact accounts

theorem balances_throw (failure : DefinitionError) :
    Balances limit (liftM (throw failure : Compile α) : Recording α) := by
  intro unfilled record before value last after accounts ran
  cases (run_lift_eq_ok.mp ran).1

theorem Balances.bind {first : Recording α} {next : α → Recording β} (balances : Balances limit first)
    (rest : ∀ value, Balances limit (next value)) : Balances limit (first >>= next) := by
  intro unfilled record before value last after accounts ran
  obtain ⟨middleValue, early, middle, firstRan, nextRan⟩ := run_bind_eq_ok.mp ran
  exact rest _ _ _ _ _ _ _ (balances _ _ _ _ _ _ accounts firstRan) nextRan

theorem Balances.mapM {step : α → Recording β} (each : ∀ item, Balances limit (step item))
    (items : List α) : Balances limit (items.mapM step) := by
  induction items with
  | nil => exact balances_pure []
  | cons item rest ih =>
      rw [List.mapM_cons]
      exact (each item).bind fun value => ih.bind fun values => balances_pure (value :: values)

theorem Balances.optionMapM {step : α → Recording β} (each : ∀ item, Balances limit (step item))
    (item : Option α) : Balances limit (item.mapM step) := by
  cases item with
  | none => exact balances_pure none
  | some item =>
      rw [Option.mapM_some, map_eq_pure_bind]
      exact (each item).bind fun value => balances_pure (some value)

end

section

variable {context : Context} {into : Into} {pending : List Pending}

theorem reserve_within {place : Nat} {before after : Arena}
    (reserved : (reserve context).run before = .ok (place, after)) :
    after.modes.size ≤ context.places := by
  have grown := (reserve_eq_ok reserved).2
  unfold reserve at reserved
  obtain ⟨arena, middle, getting, reserved⟩ := Compilation.run_bind_eq_ok.mp reserved
  obtain ⟨rfl, rfl⟩ := run_get_eq_ok.mp getting
  dsimp only at reserved
  split at reserved
  · rw [grown, Arena.size_grown]
    assumption
  · cases reserved

theorem reserveAll_within {α : Type} {items : List α} {places : List Nat} {before after : Arena}
    (within : before.modes.size ≤ context.places)
    (reserved : (items.mapM fun _ => reserve context).run before = .ok (places, after)) :
    after.modes.size ≤ context.places :=
  @mapM_induction _ _ _ _ _ (fun _ _ arena => arena.modes.size ≤ context.places) _ _ reserved within
    fun _ _ _ _ _ _ _ _ _ stepped => reserve_within stepped

theorem compileNew_balances (intoBalances : IntoBalances context.places into)
    (definition : ModeDefinition) (parent : Option Nat) :
    Balances context.places (compileNew context into pending definition parent) := by
  intro unfilled record before value last after accounts ran
  obtain ⟨place, early, middle, reserving, ran⟩ := run_bind_eq_ok.mp ran
  obtain ⟨reserved, rfl⟩ := run_lift_eq_ok.mp reserving
  have within := reserve_within reserved
  obtain ⟨rfl, rfl⟩ := reserve_eq_ok reserved
  obtain ⟨done, late, middle, filling, ran⟩ := run_bind_eq_ok.mp ran
  obtain ⟨rfl, rfl, rfl⟩ := run_pure_eq_ok.mp ran
  exact intoBalances _ _ _ _ _ _ _ _ _ _ (accounts.grown within) filling

theorem forM_balances (intoBalances : IntoBalances context.places into) (parent : Option Nat)
    (items : List (Nat × ModeDefinition)) {unfilled : List Nat} {record last : Record}
    {before after : Arena} {done : Unit}
    (accounts : Accounts context.places record before (items.map Prod.fst ++ unfilled))
    (ran : ((items.forM fun (place, variant) => into pending place variant parent).run record).run
      before = .ok ((done, last), after)) : Accounts context.places last after unfilled := by
  induction items generalizing record before with
  | nil =>
      obtain ⟨rfl, rfl, rfl⟩ := run_pure_eq_ok.mp ran
      exact accounts
  | cons item rest ih =>
      obtain ⟨filled, early, middle, filling, ran⟩ := run_bind_eq_ok.mp ran
      exact ih (intoBalances _ _ _ _ _ _ _ _ _ _ accounts filling) ran

theorem compileShared_balances (intoBalances : IntoBalances context.places into) (parent : Nat)
    (name : String) : Balances context.places (compileShared context into pending parent name) := by
  unfold compileShared
  cases context.repository.find? name with
  | none => exact balances_throw _
  | some definition =>
      intro unfilled record before value last after accounts ran
      obtain ⟨arena, early, middle, getting, ran⟩ := run_bind_eq_ok.mp ran
      obtain ⟨got, rfl⟩ := run_lift_eq_ok.mp getting
      obtain ⟨rfl, rfl⟩ := run_get_eq_ok.mp got
      split at ran
      · exact balances_pure _ _ _ _ _ _ _ accounts ran
      · split at ran
        · exact balances_throw _ _ _ _ _ _ _ accounts ran
        · obtain ⟨places, early, middle, reserving, ran⟩ := run_bind_eq_ok.mp ran
          obtain ⟨reserved, rfl⟩ := run_lift_eq_ok.mp reserving
          have within := reserveAll_within accounts.size reserved
          obtain ⟨rfl, rfl⟩ := reserveAll_eq_ok reserved
          obtain ⟨_, early, middle, referring, ran⟩ := run_bind_eq_ok.mp ran
          obtain ⟨referred, rfl⟩ := run_lift_eq_ok.mp referring
          obtain rfl := run_modify_eq_ok.mp referred
          obtain ⟨_, late, middle, filled, ran⟩ := run_bind_eq_ok.mp ran
          obtain ⟨rfl, rfl, rfl⟩ := run_pure_eq_ok.mp ran
          refine forM_balances intoBalances (some parent) _ ?_ filled
          rw [List.map_fst_zip (by simp)]
          exact (accounts.grown within).referring _

theorem compileEntry_balances (intoBalances : IntoBalances context.places into) (place : Nat)
    (entry : ContainsEntry ModeDefinition) :
    Balances context.places (compileEntry context into pending place entry) := by
  cases entry with
  | itself => exact balances_pure [place]
  | shared name => exact compileShared_balances intoBalances place name
  | inline definition =>
      exact Balances.mapM (fun variant => compileNew_balances intoBalances variant (some place)) _

theorem compileWith_balances (intoBalances : IntoBalances context.places into) :
    IntoBalances context.places (compileWith context into) := by
  intro pending place definition parent unfilled record before done last after accounts ran
  obtain ⟨normal, early, middle, normalizing, ran⟩ := run_bind_eq_ok.mp ran
  obtain ⟨normalized, rfl⟩ := run_lift_eq_ok.mp normalizing
  obtain ⟨_, rfl⟩ := Compilation.run_lift_eq_ok.mp normalized
  obtain ⟨arena, early, middle, getting, ran⟩ := run_bind_eq_ok.mp ran
  obtain ⟨got, rfl⟩ := run_lift_eq_ok.mp getting
  obtain ⟨rfl, rfl⟩ := run_get_eq_ok.mp got
  obtain ⟨own, early, middle, making, ran⟩ := run_bind_eq_ok.mp ran
  obtain ⟨made, rfl⟩ := run_lift_eq_ok.mp making
  obtain ⟨part, rfl⟩ := Compilation.run_lift_eq_ok.mp made
  obtain ⟨_, early, middle, placing, ran⟩ := run_bind_eq_ok.mp ran
  obtain ⟨placed, rfl⟩ := run_lift_eq_ok.mp placing
  obtain rfl := run_modify_eq_ok.mp placed
  obtain ⟨_, early, middle, recorded, ran⟩ := run_bind_eq_ok.mp ran
  obtain ⟨rfl, rfl⟩ := run_note_eq_ok.mp recorded
  obtain ⟨contains, filledRecord, filled, filling, ran⟩ := run_bind_eq_ok.mp ran
  obtain ⟨starts, startedRecord, started, starting, ran⟩ := run_bind_eq_ok.mp ran
  obtain ⟨linked, rfl⟩ := run_lift_eq_ok.mp ran
  obtain rfl := run_modify_eq_ok.mp linked
  have made := ownPart_eq_ok part
  have filledAccounts := Balances.mapM (compileEntry_balances intoBalances place) _ _ _ _ _ _ _
    (accounts.put made.contains made.starts) filling
  have startedAccounts := Balances.optionMapM
    (fun next => compileNew_balances intoBalances next parent) _ _ _ _ _ _ _ filledAccounts starting
  exact startedAccounts.link contains.flatten starts

theorem compileInto_balances (depth : Nat) :
    IntoBalances context.places (compileInto context depth) := by
  induction depth with
  | zero =>
      intro _ _ _ _ _ _ _ _ _ _ _ ran
      cases (run_lift_eq_ok.mp ran).1
  | succ depth ih => exact compileWith_balances ih

/-- Each place of a grammar has been filled exactly once, and what was put there is there. -/
theorem compileModes_accounts {root : ModeDefinition} {modes : Array Mode}
    (compiled : Compilation.compileModes context root = .ok modes) :
    ∃ record arena, compileModes context root = .ok (modes, record) ∧
      Accounts context.places record arena [] ∧ arena.modes = modes := by
  rw [← map_compileModes, map_eq_pure_bind] at compiled
  obtain ⟨⟨modes, record⟩, recorded, compiled⟩ := bind_eq_ok.mp compiled
  obtain rfl := pure_eq_ok.mp compiled
  obtain ⟨⟨⟨place, record⟩, arena⟩, ran, ended⟩ := bind_eq_ok.mp recorded
  obtain ⟨rfl, rfl⟩ := Prod.mk.inj (pure_eq_ok.mp ended)
  have nothing : Accounts context.places [] {} [] := ⟨Nat.zero_le _, List.Perm.refl _, by simp⟩
  exact ⟨record, arena, recorded,
    compileNew_balances (compileInto_balances context.places) root none _ _ _ _ _ _ nothing ran, rfl⟩

end

end Recording

end Highlight.Compilation
