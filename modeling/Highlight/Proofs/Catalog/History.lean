import Highlight.Catalog.Registration
import Highlight.Proofs.Dictionary
import Highlight.Proofs.Outcome
import Highlight.Proofs.Unicode.Lowercase

set_option autoImplicit false

/-! Catalogs by the way they have come about: from the empty one by putting grammars in and taking them
out again, and by adding other names. Whatever the order of these, each grammar stands under the name
with which it was compiled, and all names are in lower case. -/

namespace Highlight

open Outcome

namespace Grammar

theorem name_of_compile {engine : Pattern.Engine} {name : String} {definition : GrammarDefinition}
    {grammar : Grammar} (compiled : compile engine name definition = .ok grammar) :
    grammar.name = name ∧ grammar.definition = definition := by
  unfold compile at compiled
  split at compiled
  · cases compiled
  · obtain ⟨modes, _, compiled⟩ := bind_eq_ok.mp compiled
    obtain rfl := pure_eq_ok.mp compiled
    exact ⟨rfl, rfl⟩

end Grammar

namespace Catalog

/-- A catalog that has come about step by step, from definitions of some kind. A call that fails is no
step, since it leaves the catalog as it is. -/
inductive Built (engine : Pattern.Engine) (defined : GrammarDefinition → Prop) : Catalog → Prop
  | empty : Built engine defined {}
  | register {catalog after : Catalog} {name : String} {definition : GrammarDefinition}
      (built : Built engine defined catalog) (kind : defined definition)
      (registered : catalog.register engine name definition = .ok after) : Built engine defined after
  | addAliases {catalog : Catalog} (built : Built engine defined catalog) (aliases : List String)
      (name : String) : Built engine defined (catalog.addAliases aliases name)
  | remove {catalog : Catalog} (built : Built engine defined catalog) (name : String) :
      Built engine defined (catalog.remove name)

variable {engine : Pattern.Engine} {defined : GrammarDefinition → Prop} {catalog after : Catalog}

theorem Built.addText (built : Built engine defined catalog) {name text : String}
    (kind : ∀ definition, GrammarDefinition.read text = .ok definition → defined definition)
    (added : catalog.addText engine name text = .ok after) : Built engine defined after := by
  obtain ⟨definition, read, registered⟩ := bind_eq_ok.mp added
  refine built.register (kind definition ?_) registered
  unfold Error.ofRead at read
  cases same : GrammarDefinition.read text with
  | error error =>
      rw [same] at read
      cases read
  | ok other =>
      rw [same] at read
      exact congrArg Except.ok (Except.ok.inj read)

theorem Built.addPlain (built : Built engine defined catalog) {aliases : List String}
    (kind : defined plainDefinition) (added : catalog.addPlain engine aliases = .ok after) :
    Built engine defined after := by
  obtain ⟨middle, registered, added⟩ := bind_eq_ok.mp added
  obtain rfl := pure_eq_ok.mp added
  exact (built.register kind registered).addAliases aliases _

/-- A grammar that stands under its name in lower case, as it was compiled from a definition of some
kind. -/
structure StandsUnder (engine : Pattern.Engine) (defined : GrammarDefinition → Prop) (name : String)
    (grammar : Grammar) : Prop where
  lower : Unicode.lowercase name = name
  compiled : Grammar.compile engine name grammar.definition = .ok grammar
  kind : defined grammar.definition

theorem StandsUnder.name_eq {name : String} {grammar : Grammar}
    (stands : StandsUnder engine defined name grammar) : grammar.name = name :=
  (Grammar.name_of_compile stands.compiled).1

theorem register_eq_ok_iff {name : String} {definition : GrammarDefinition} :
    catalog.register engine name definition = .ok after ↔
      ∃ grammar, Grammar.compile engine (Unicode.lowercase name) definition = .ok grammar ∧
        catalog.put grammar = after := by
  unfold register
  dsimp only
  cases Grammar.compile engine (Unicode.lowercase name) definition with
  | error cause => simp
  | ok grammar => simp

@[simp] theorem grammars_addAliases (catalog : Catalog) (aliases : List String) (name : String) :
    (catalog.addAliases aliases name).grammars = catalog.grammars := rfl

@[simp] theorem grammars_put (catalog : Catalog) (grammar : Grammar) :
    (catalog.put grammar).grammars = catalog.grammars.insert grammar.name grammar := rfl

@[simp] theorem grammars_remove (catalog : Catalog) (name : String) :
    (catalog.remove name).grammars = catalog.grammars.erase (Unicode.lowercase name) := rfl

/-- What a name stands for once other names have been added: they all stand for the same grammar, and
what else there was stays. -/
theorem find?_aliases_addAliases (catalog : Catalog) (aliases : List String) (name other : String) :
    (catalog.addAliases aliases name).aliases.find? other =
      if other ∈ aliases.map Unicode.lowercase then some (Unicode.lowercase name)
      else catalog.aliases.find? other := by
  unfold addAliases
  dsimp only
  generalize catalog.aliases = known
  induction aliases generalizing known with
  | nil => simp
  | cons first rest ih =>
      rw [List.foldl_cons, ih, Dictionary.find?_insert, List.map_cons]
      by_cases later : other ∈ rest.map Unicode.lowercase
      · rw [if_pos later, if_pos (List.mem_cons_of_mem _ later)]
      · simp only [List.mem_cons, later, or_false, if_false]

theorem find?_aliases_dropAliases (catalog : Catalog) (name other : String) :
    (catalog.dropAliases name).aliases.find? other =
      (catalog.aliases.find? other).filter fun target => target != name :=
  Dictionary.find?_filter _ _ _

/-- What a name stands for once a grammar has been put in: its other names are those that it declares. -/
theorem find?_aliases_put (catalog : Catalog) (grammar : Grammar) (other : String) :
    (catalog.put grammar).aliases.find? other =
      if other ∈ grammar.aliases.map Unicode.lowercase then some (Unicode.lowercase grammar.name)
      else (catalog.aliases.find? other).filter fun target => target != grammar.name := by
  unfold put
  rw [find?_aliases_addAliases, find?_aliases_dropAliases]

theorem find?_aliases_remove (catalog : Catalog) (name other : String) :
    (catalog.remove name).aliases.find? other =
      (catalog.aliases.find? other).filter fun target => target != Unicode.lowercase name := by
  unfold remove
  rw [find?_aliases_dropAliases]

theorem Built.stands (built : Built engine defined catalog) {name : String} {grammar : Grammar}
    (found : catalog.grammars.find? name = some grammar) :
    StandsUnder engine defined name grammar := by
  induction built generalizing name grammar with
  | empty => cases found
  | register built kind registered ih =>
      obtain ⟨added, compiled, rfl⟩ := register_eq_ok_iff.mp registered
      obtain ⟨named, given⟩ := Grammar.name_of_compile compiled
      rw [grammars_put, Dictionary.find?_insert, named] at found
      split at found
      · rename_i same
        obtain rfl := Option.some.inj found
        rw [same]
        exact ⟨Unicode.lowercase_lowercase _, given ▸ compiled, given ▸ kind⟩
      · exact ih found
  | addAliases built aliases other ih => exact ih found
  | remove built other ih =>
      rw [grammars_remove, Dictionary.find?_erase] at found
      split at found
      · cases found
      · exact ih found

/-- All names that stand for others, and those that they stand for, are in lower case. -/
theorem Built.lower_aliases (built : Built engine defined catalog) {name target : String}
    (found : catalog.aliases.find? name = some target) :
    Unicode.lowercase name = name ∧ Unicode.lowercase target = target := by
  have listed : ∀ {aliases : List String}, name ∈ aliases.map Unicode.lowercase →
      Unicode.lowercase name = name := by
    intro aliases member
    obtain ⟨original, _, rfl⟩ := List.mem_map.mp member
    exact Unicode.lowercase_lowercase original
  induction built generalizing target with
  | empty => cases found
  | register built kind registered ih =>
      obtain ⟨added, compiled, rfl⟩ := register_eq_ok_iff.mp registered
      rw [find?_aliases_put] at found
      split at found
      · rename_i member
        obtain rfl := Option.some.inj found
        exact ⟨listed member, Unicode.lowercase_lowercase _⟩
      · exact ih (Option.filter_eq_some_iff.mp found).1
  | addAliases built aliases other ih =>
      rw [find?_aliases_addAliases] at found
      split at found
      · rename_i member
        obtain rfl := Option.some.inj found
        exact ⟨listed member, Unicode.lowercase_lowercase _⟩
      · exact ih found
  | remove built other ih =>
      rw [find?_aliases_remove] at found
      exact ih (Option.filter_eq_some_iff.mp found).1

theorem Built.find?_name (built : Built engine defined catalog) {name : String} {grammar : Grammar}
    (registered : (name, grammar) ∈ catalog.grammars.entries) :
    catalog.find? grammar.name = some grammar := by
  have here := Dictionary.find?_eq_some_iff.mpr registered
  have stands := built.stands here
  unfold find?
  rw [stands.name_eq, stands.lower]
  simp only [here]

end Catalog

end Highlight
