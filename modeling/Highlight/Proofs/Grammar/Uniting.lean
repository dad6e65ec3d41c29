import Highlight.Proofs.Grammar.Inheriting
import Highlight.Proofs.Pattern.RoundTrip
import Highlight.Proofs.Pattern.Union
import Highlight.Scan.Step

set_option autoImplicit false

/-! What ends a mode that has an end of its own and inherits another one. The two sources are joined by a
bare bar, so they are found as they are alone where that is read as a choice between them; the groups of
the inherited one are counted behind those of the own one, also for the hooks. -/

namespace Highlight

open Outcome Pattern

theorem Mode.ends_mem_rules (modes : Array Mode) (mode : Mode) (source : String) :
    (Rule.ends, source) ∈ mode.rules modes ↔ mode.terminator ≠ "" ∧ source = mode.terminator := by
  unfold rules
  constructor
  · intro among
    rcases List.mem_append.mp among with early | illegal
    · rcases List.mem_append.mp early with begins | ends
      · obtain ⟨_, _, begins⟩ := List.mem_filterMap.mp begins
        obtain ⟨_, _, impossible⟩ := Option.map_eq_some_iff.mp begins
        cases impossible
      · split at ends
        · cases ends
        · rename_i some_
          obtain rfl := (Prod.mk.inj (List.mem_singleton.mp ends)).2
          exact ⟨fun empty => some_ (by rw [empty]; rfl), rfl⟩
    · obtain ⟨_, _, impossible⟩ := List.mem_map.mp illegal
      cases impossible
  · rintro ⟨some_, rfl⟩
    refine List.mem_append_left _ (List.mem_append_right _ ?_)
    rw [if_neg (by rwa [String.isEmpty_iff])]
    exact List.mem_singleton_self _

/-- Of the parts that the rules of a mode are compiled as, the one that ends it is its terminator. -/
theorem Mode.ends_mem_parts {flags : Flags} {modes : Array Mode} {mode : Mode}
    {parts : List (Part { ignoreCase := flags.ignoreCase })}
    (rules : mode.rules modes = parts.map fun part => (part.rule, part.source)) {whole : Regex}
    (accepted : engine flags mode.terminator = .ok whole) (regex : Regex) :
    (Rule.ends, regex) ∈ (parts.map fun part => (part.rule, part.member.regex)) ↔
      mode.terminator ≠ "" ∧ regex = whole := by
  have made : ∀ part : Part { ignoreCase := flags.ignoreCase }, part.source = mode.terminator →
      part.member.regex = whole := by
    intro part source
    have compiled := part.engine_eq
    rw [source, accepted] at compiled
    exact (Except.ok.inj compiled).symm
  constructor
  · intro among
    obtain ⟨part, inside, same⟩ := List.mem_map.mp among
    obtain ⟨rule, rfl⟩ := Prod.mk.inj same
    have listed : (Rule.ends, part.source) ∈ mode.rules modes := by
      rw [rules, ← rule]
      exact List.mem_map_of_mem inside
    obtain ⟨some_, source⟩ := (ends_mem_rules modes mode part.source).mp listed
    exact ⟨some_, made part source⟩
  · rintro ⟨some_, rfl⟩
    have listed := (ends_mem_rules modes mode mode.terminator).mpr ⟨some_, rfl⟩
    rw [rules] at listed
    obtain ⟨part, inside, same⟩ := List.mem_map.mp listed
    obtain ⟨rule, source⟩ := Prod.mk.inj same
    exact List.mem_map.mpr ⟨part, inside, Prod.ext rule (made part source)⟩

/-- A set that finds an end where one of two patterns is found. What the hooks are handed of it is what
that pattern remembers alone, the groups of the second one behind those of the first. -/
structure Pattern.RuleSet.EndsEither (set : RuleSet) (own inherited : Regex) : Prop where
  unmatched : ∀ text position, set.find? text position = none →
    own.search text position = none ∧ inherited.search text position = none
  matched : ∀ (context : ScanContext) position found,
    set.find? context.text position = some found → found.rule = .ends →
      (∃ alone, own.search context.text position = some alone ∧
        Captures.Placed 0 alone (context.hookMatch found).captures) ∨
      ∃ alone, inherited.search context.text position = some alone ∧
        Captures.Placed own.groups alone (context.hookMatch found).captures

theorem Pattern.RuleSet.FindsAsAlone.endsEither {set : RuleSet} {alone : List (Rule × Regex)}
    {own inherited joined : Regex} (finds : set.FindsAsAlone alone)
    (unites : joined.Unites own inherited) (member : (.ends, joined) ∈ alone)
    (only : ∀ regex, (.ends, regex) ∈ alone → regex = joined) : set.EndsEither own inherited := by
  constructor
  · intro text position none_
    have unmatched := finds text position
    rw [none_] at unmatched
    exact unites.unmatched text position (unmatched _ member)
  · intro context position found some_ ends
    have first := finds context.text position
    rw [some_] at first
    obtain ⟨before, regex, behind, split, searched, _⟩ := first.own
    obtain rfl := only regex (by simp [split, ends])
    rcases unites.matched context.text position found.captures searched with
      ⟨alone, _, own, _, placed, _⟩ | ⟨alone, _, inherited, _, placed, _⟩
    · exact .inl ⟨alone, own, placed⟩
    · exact .inr ⟨alone, inherited, placed⟩

namespace Grammar

variable {name : String} {definition : GrammarDefinition} {grammar : Grammar}

/-- A grammar of pairs in brackets, whose values end at an end of their own or with the pair. -/
def paired (own around : String) : GrammarDefinition where
  root := {
    contains := [.inline {
      begins := some (.one "<")
      ends := some (.one around)
      contains := [.inline {
        begins := some (.one ":")
        ends := some (.one own)
        flags := { endsWithParent := true } }] }] }

end Grammar

end Highlight
