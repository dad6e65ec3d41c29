import Highlight.Catalog.Call
import Highlight.Proofs.Catalog.History

set_option autoImplicit false

/-! Catalogs that calls have led to. Each call does what the function of the same name does, or nothing
if it fails, so such a catalog is a built one. Registering a grammar or taking it out changes what is
found only where that grammar was found, or is found then. -/

namespace Highlight.Catalog

open Outcome

variable {engine : Pattern.Engine} {catalog before after : Catalog}

namespace Call

def effect (engine : Pattern.Engine) (catalog : Catalog) : Call → Except Error Catalog
  | register name definition => catalog.register engine name definition
  | addText name text => catalog.addText engine name text
  | addPlain aliases => catalog.addPlain engine aliases
  | addAliases aliases name => .ok (catalog.addAliases aliases name)
  | remove name => .ok (catalog.remove name)

theorem register_steps (name : String) (definition : GrammarDefinition) :
    (Steps.register engine name definition).run.run catalog =
      match catalog.register engine name definition with
      | .ok after => (.ok (), after)
      | .error error => (.error error, catalog) := by
  unfold Steps.register Catalog.register
  dsimp only
  cases compiled : Grammar.compile engine (Unicode.lowercase name) definition with
  | error cause => rfl
  | ok grammar =>
      obtain ⟨named, _⟩ := Grammar.name_of_compile compiled
      rw [← named]
      rfl

/-- A call does all of its steps, or fails before the first one that changes anything. -/
theorem run_eq (call : Call) :
    call.run engine catalog =
      match call.effect engine catalog with
      | .ok after => (.ok (), after)
      | .error error => (.error error, catalog) := by
  unfold run
  cases call with
  | register name definition => exact register_steps name definition
  | addText name text =>
      dsimp only [steps, effect, Catalog.addText]
      cases Error.ofRead (GrammarDefinition.read text) with
      | error error => rfl
      | ok definition => exact register_steps name definition
  | addPlain aliases =>
      dsimp only [steps, effect, Catalog.addPlain]
      rw [ExceptT.run_bind, StateT.run_bind, register_steps]
      cases catalog.register engine Detection.plainName plainDefinition with
      | error error => rfl
      | ok after => rfl
  | addAliases aliases name => rfl
  | remove name => rfl

theorem run_eq_ok {call : Call} (succeeded : call.run engine catalog = (.ok (), after)) :
    call.effect engine catalog = .ok after := by
  rw [run_eq] at succeeded
  split at succeeded
  · rename_i found
    rw [found]
    exact congrArg Except.ok (Prod.ext_iff.mp succeeded).2
  · cases succeeded

theorem run_eq_error {call : Call} {error : Error}
    (failed : call.run engine catalog = (.error error, after)) : after = catalog := by
  rw [run_eq] at failed
  split at failed
  · cases failed
  · exact (Prod.ext_iff.mp failed).2.symm

theorem built_of_effect {call : Call} (built : Built engine (fun _ => True) catalog)
    (succeeded : call.effect engine catalog = .ok after) : Built engine (fun _ => True) after := by
  cases call with
  | register name definition => exact built.register trivial succeeded
  | addText name text => exact built.addText (fun _ _ => trivial) succeeded
  | addPlain aliases => exact built.addPlain trivial succeeded
  | addAliases aliases name =>
      obtain rfl := Except.ok.inj succeeded
      exact built.addAliases aliases name
  | remove name =>
      obtain rfl := Except.ok.inj succeeded
      exact built.remove name

theorem built_run (call : Call) (built : Built engine (fun _ => True) catalog) :
    Built engine (fun _ => True) (call.run engine catalog).2 := by
  rw [run_eq]
  split
  · rename_i found
    exact built_of_effect built found
  · exact built

theorem built_history (calls : List Call) : Built engine (fun _ => True) (history engine calls) := by
  unfold history
  have kept : ∀ {start : Catalog}, Built engine (fun _ => True) start →
      Built engine (fun _ => True)
        (calls.foldl (fun catalog call => (call.run engine catalog).2) start) := by
    induction calls with
    | nil => exact id
    | cons call rest ih => exact fun built => ih (built_run call built)
  exact kept .empty

end Call

/-- What a name is found as: the name of the grammar that it leads to. -/
def resolve (catalog : Catalog) (query : String) : Option String :=
  (catalog.find? query).map (·.name)

theorem find?_eq (catalog : Catalog) (query : String) :
    catalog.find? query = (catalog.grammars.find? (Unicode.lowercase query)).or
      ((catalog.aliases.find? (Unicode.lowercase query)).bind catalog.grammars.find?) := by
  unfold find?
  dsimp only
  cases catalog.grammars.find? (Unicode.lowercase query) with
  | none => rfl
  | some grammar => rfl

/-- A change to a catalog that concerns one grammar only: other grammars stay, and so do all other
names, but for those that come to stand for this grammar or stop doing so. -/
structure Concerns (name : String) (before after : Catalog) : Prop where
  grammars : ∀ other, other ≠ name → after.grammars.find? other = before.grammars.find? other
  aliases : ∀ other, after.aliases.find? other = before.aliases.find? other ∨
    after.aliases.find? other = some name ∧ (after.grammars.find? name).isSome ∨
    before.aliases.find? other = some name ∧ after.aliases.find? other = none

theorem concerns_put (catalog : Catalog) (grammar : Grammar)
    (lower : Unicode.lowercase grammar.name = grammar.name) :
    Concerns grammar.name catalog (catalog.put grammar) where
  grammars other different := by
    rw [grammars_put, Dictionary.find?_insert, if_neg different]
  aliases other := by
    rw [grammars_put, Dictionary.find?_insert, if_pos rfl, find?_aliases_put, lower]
    split
    · exact .inr (.inl ⟨rfl, rfl⟩)
    · cases found : catalog.aliases.find? other with
      | none => exact .inl rfl
      | some target =>
          by_cases same : target = grammar.name
          · exact .inr (.inr ⟨congrArg some same, by simp [same]⟩)
          · exact .inl (by simp [same])

theorem concerns_remove (catalog : Catalog) (name : String) :
    Concerns (Unicode.lowercase name) catalog (catalog.remove name) where
  grammars other different := by
    rw [grammars_remove, Dictionary.find?_erase, if_neg different]
  aliases other := by
    rw [find?_aliases_remove]
    cases found : catalog.aliases.find? other with
    | none => exact .inl rfl
    | some target =>
        by_cases same : target = Unicode.lowercase name
        · exact .inr (.inr ⟨congrArg some same, by simp [same]⟩)
        · exact .inl (by simp [same])

def Named (catalog : Catalog) : Prop :=
  ∀ name grammar, catalog.grammars.find? name = some grammar → grammar.name = name

theorem Built.named {defined : GrammarDefinition → Prop} (built : Built engine defined catalog) :
    catalog.Named :=
  fun _ _ found => (built.stands found).name_eq

theorem Named.unnamed (named : catalog.Named) {query : String}
    (elsewhere : catalog.resolve query ≠ some (Unicode.lowercase query)) :
    catalog.grammars.find? (Unicode.lowercase query) = none := by
  apply Option.eq_none_iff_forall_ne_some.mpr
  intro grammar found
  apply elsewhere
  unfold resolve
  rw [find?_eq, found, Option.some_or, Option.map_some, named _ _ found]

/-- What a name stands for without leading there is not the name of a grammar. -/
theorem Named.dangling (named : catalog.Named) {query target : String}
    (unnamed : catalog.grammars.find? (Unicode.lowercase query) = none)
    (stands : catalog.aliases.find? (Unicode.lowercase query) = some target)
    (elsewhere : catalog.resolve query ≠ some target) : catalog.grammars.find? target = none := by
  apply Option.eq_none_iff_forall_ne_some.mpr
  intro grammar found
  apply elsewhere
  unfold resolve
  rw [find?_eq, unnamed, stands, Option.none_or, Option.bind_some, found, Option.map_some,
    named _ _ found]

/-- What is found changes only where a grammar was found before or is found afterwards. -/
def ChangesAround (name : String) (before after : Catalog) : Prop :=
  ∀ query, before.find? query ≠ after.find? query →
    before.resolve query = some name ∨ after.resolve query = some name

theorem Concerns.changesAround {name : String} (concerns : Concerns name before after)
    (named : before.Named) (namedAfter : after.Named) : ChangesAround name before after := by
  intro query differs
  apply Classical.byContradiction
  intro neither
  obtain ⟨notBefore, notAfter⟩ := not_or.mp neither
  have direct : after.grammars.find? (Unicode.lowercase query) =
      before.grammars.find? (Unicode.lowercase query) := by
    by_cases same : Unicode.lowercase query = name
    · rw [named.unnamed (same ▸ notBefore), namedAfter.unnamed (same ▸ notAfter)]
    · exact concerns.grammars _ same
  apply differs
  rw [find?_eq, find?_eq, direct]
  cases unnamed : before.grammars.find? (Unicode.lowercase query) with
  | some grammar => rfl
  | none =>
      rw [Option.none_or, Option.none_or]
      rw [unnamed] at direct
      rcases concerns.aliases (Unicode.lowercase query) with same | ⟨stands, held⟩ | ⟨stood, gone⟩
      · rw [same]
        cases stands : before.aliases.find? (Unicode.lowercase query) with
        | none => rfl
        | some target =>
            rw [Option.bind_some, Option.bind_some]
            by_cases here : target = name
            · subst here
              rw [named.dangling unnamed stands notBefore,
                namedAfter.dangling direct (same.trans stands) notAfter]
            · exact (concerns.grammars target here).symm
      · rw [namedAfter.dangling direct stands notAfter] at held
        cases held
      · rw [stood, gone, Option.bind_some, Option.bind_none]
        exact named.dangling unnamed stood notBefore

/-- What calls keep to: how the names of a catalog are written, what a call that fails leaves alone,
and how far each of the others reaches. -/
structure Lawful (engine : Pattern.Engine) (catalog : Catalog) : Prop where
  named : ∀ name grammar, catalog.grammars.find? name = some grammar →
    name = Unicode.lowercase grammar.name
  lower : ∀ name target, catalog.aliases.find? name = some target →
    name = Unicode.lowercase name ∧ target = Unicode.lowercase target
  failed : ∀ (call : Call) error after,
    call.run engine catalog = (.error error, after) → after = catalog
  removed : ∀ name other,
    ((Call.remove name).run engine catalog).2.aliases.find? other ≠ some (Unicode.lowercase name)
  registered : ∀ name definition after,
    (Call.register name definition).run engine catalog = (.ok (), after) →
    ∀ other, after.aliases.find? other = some (Unicode.lowercase name) ↔
      other ∈ definition.aliases.map Unicode.lowercase
  registering : ∀ name definition,
    ChangesAround (Unicode.lowercase name) catalog
      ((Call.register name definition).run engine catalog).2
  removing : ∀ name,
    ChangesAround (Unicode.lowercase name) catalog ((Call.remove name).run engine catalog).2
  aliasing : ∀ aliases name query,
    catalog.find? query ≠ ((Call.addAliases aliases name).run engine catalog).2.find? query →
      Unicode.lowercase query ∈ aliases.map Unicode.lowercase

theorem aliases_of_register {name : String} {definition : GrammarDefinition}
    (registered : catalog.register engine name definition = .ok after) (other : String) :
    after.aliases.find? other = some (Unicode.lowercase name) ↔
      other ∈ definition.aliases.map Unicode.lowercase := by
  obtain ⟨grammar, compiled, rfl⟩ := register_eq_ok_iff.mp registered
  obtain ⟨named, given⟩ := Grammar.name_of_compile compiled
  have declared : grammar.aliases = definition.aliases := congrArg (·.aliases) given
  rw [find?_aliases_put, named, declared, Unicode.lowercase_lowercase]
  split
  · rename_i member
    exact iff_of_true rfl member
  · rename_i absent
    refine iff_of_false ?_ absent
    intro kept
    obtain ⟨_, apart⟩ := Option.filter_eq_some_iff.mp kept
    simp at apart

theorem find?_addAliases {aliases : List String} {name query : String}
    (apart : Unicode.lowercase query ∉ aliases.map Unicode.lowercase) :
    (catalog.addAliases aliases name).find? query = catalog.find? query := by
  rw [find?_eq, find?_eq, find?_aliases_addAliases, if_neg apart, grammars_addAliases]

theorem Built.register_changesAround (built : Built engine (fun _ => True) catalog) (name : String)
    (definition : GrammarDefinition) :
    ChangesAround (Unicode.lowercase name) catalog
      ((Call.register name definition).run engine catalog).2 := by
  have builtAfter := Call.built_run (.register name definition) built
  rw [Call.run_eq] at builtAfter ⊢
  dsimp only [Call.effect] at builtAfter ⊢
  cases registered : catalog.register engine name definition with
  | error error =>
      intro query differs
      exact absurd rfl differs
  | ok after =>
      rw [registered] at builtAfter
      obtain ⟨grammar, compiled, rfl⟩ := register_eq_ok_iff.mp registered
      obtain ⟨same, _⟩ := Grammar.name_of_compile compiled
      refine Concerns.changesAround ?_ built.named builtAfter.named
      rw [← same]
      apply concerns_put
      rw [same, Unicode.lowercase_lowercase]

/-- Whatever calls have been made, and whichever of them have failed, names are in lower case and each
grammar stands under its own, and any further call keeps to what it is about. -/
theorem lawful_history (engine : Pattern.Engine) (calls : List Call) :
    Lawful engine (Call.history engine calls) := by
  have built : Built engine (fun _ => True) (Call.history engine calls) := Call.built_history calls
  constructor
  case named =>
    intro name grammar found
    have stands := built.stands found
    rw [stands.name_eq, stands.lower]
  case lower =>
    intro name target found
    obtain ⟨lower, lowerTarget⟩ := built.lower_aliases found
    exact ⟨lower.symm, lowerTarget.symm⟩
  case failed =>
    intro call error after failed
    exact Call.run_eq_error failed
  case removed =>
    intro name other targets
    rw [Call.run_eq] at targets
    dsimp only [Call.effect] at targets
    rw [find?_aliases_remove] at targets
    obtain ⟨_, apart⟩ := Option.filter_eq_some_iff.mp targets
    simp at apart
  case registered =>
    intro name definition after succeeded other
    exact aliases_of_register (Call.run_eq_ok succeeded) other
  case registering =>
    intro name definition
    exact built.register_changesAround name definition
  case removing =>
    intro name
    rw [Call.run_eq]
    exact (concerns_remove _ name).changesAround built.named (built.remove name).named
  case aliasing =>
    intro aliases name query differs
    apply Classical.byContradiction
    intro apart
    rw [Call.run_eq] at differs
    exact differs (find?_addAliases apart).symm

end Highlight.Catalog
