import Highlight.Proofs.Pattern.Composing
import Mathlib.Data.List.Forall2

set_option autoImplicit false

/-! Patterns looked for together and alone. A set whose patterns carry over into their composition is
compiled, and finds what the patterns find alone. -/

namespace Highlight.Pattern

open Outcome

theorem Node.references_ofAlternatives (nodes : List Node) :
    (ofAlternatives nodes).references = nodes.flatMap references := by
  induction nodes with
  | nil => rfl
  | cons node rest ih =>
      cases rest with
      | nil => simp [ofAlternatives]
      | cons next others => simpa [ofAlternatives, references] using ih

namespace Part

variable {options : Options}

/-- The groups in the tree of a part are its own, and nothing moves the start of a match. -/
def Numbered (part : Part options) : Prop :=
  ∀ mark ∈ part.node.marks, ∃ number ≤ part.groups, mark = some number

theorem numbered_of_carriesOver {parts : List (Part options)} {seen : GroupNames}
    (carried : carriesOver options seen (parts.map source) = true) :
    ∀ part ∈ parts, part.Numbered := by
  induction parts generalizing seen with
  | nil => exact fun part impossible => absurd impossible List.not_mem_nil
  | cons part others ih =>
      obtain ⟨tokens, last, inner, alone, unkept, _, carriedOn⟩ := carriesOver_cons carried
      obtain ⟨finished, groups⟩ := parsed_finish alone
      have own := (alone.numbered (.start options) unkept).finish finished
      rw [groups] at own
      intro other among
      rcases List.mem_cons.mp among with rfl | later
      · exact own
      · exact ih carriedOn other later

theorem member_sound {part : Part options} (numbered : part.Numbered) : part.member.Sound := by
  have within : part.plan.marks ⊆ part.node.marks := Node.marks_plan part.planned
  constructor
  · intro group written
    obtain ⟨number, bound, same⟩ := numbered _ (within written)
    cases same
    exact bound
  · intro written
    obtain ⟨number, _, impossible⟩ := numbered _ (within written)
    cases impossible

theorem references_placed {parts : List (Part options)} {seen number : Nat}
    (refers : number ∈ (placed seen parts).flatMap Node.references) :
    seen < number ∧ number ≤ seen + room parts := by
  induction parts generalizing seen with
  | nil => cases refers
  | cons part others ih =>
      rw [placed, List.flatMap_cons, List.mem_append, Node.references,
        Node.references_raisedBy] at refers
      rw [room_cons]
      rcases refers with own | later
      · obtain ⟨group, refers, rfl⟩ := List.mem_map.mp own
        have bound := part.referred group refers
        omega
      · have bounds := ih later
        omega

/-- In their places the parts have their plans, if what is referred to there is what they refer to. -/
theorem plan_placed {parts : List (Part options)} (numbered : ∀ part ∈ parts, part.Numbered)
    (seen : Nat) {total : List Nat}
    (agree : ∀ number, seen < number → number ≤ seen + room parts →
      total.count number = ((placed seen parts).flatMap Node.references).count number) :
    List.Forall₂ (fun node plan => node.plan { references := total } = .ok plan)
      (placed seen parts) (Member.branches seen (parts.map member)) := by
  induction parts generalizing seen with
  | nil => exact .nil
  | cons part others ih =>
      have later : ∀ number ∈ (placed (seen + 1 + part.groups) others).flatMap Node.references,
          seen + 1 + part.groups < number := fun number refers => (references_placed refers).1
      have own : ∀ number ∈ part.node.references.map (· + (seen + 1)),
          number ≤ seen + 1 + part.groups := by
        intro number refers
        obtain ⟨group, among, rfl⟩ := List.mem_map.mp refers
        have bound := part.referred group among
        omega
      simp only [placed, List.flatMap_cons, Node.references, Node.references_raisedBy,
        List.count_append, room_cons] at agree
      apply List.Forall₂.cons
      · have fits : Planning.RaisedBy (seen + 1) part.node.captures
            { references := part.node.references } { references := total } := by
          constructor
          · rfl
          · intro group captured
            obtain ⟨number, bound, same⟩ := numbered part List.mem_cons_self (some group)
              ((Node.some_mem_marks_iff _ _).mpr captured)
            cases same
            have none : ((placed (seen + 1 + part.groups) others).flatMap
                Node.references).count (group + (seen + 1)) = 0 := by
              apply List.count_eq_zero_of_not_mem
              intro refers
              have beyond := later _ refers
              omega
            have injective : Function.Injective fun number : Nat => number + (seen + 1) :=
              fun _ _ => Nat.add_right_cancel
            dsimp only
            rw [agree _ (by omega) (by omega), none, Nat.add_zero]
            exact List.count_map_of_injective _ _ injective group
        have planned := Node.plan_raisedBy fits part.planned
        simp only [Node.plan, planned]
        rfl
      · apply ih (fun other among => numbered other (List.mem_cons_of_mem _ among)) _
        intro number after bound
        rw [agree number (by omega) (by omega), List.count_eq_zero_of_not_mem, Nat.zero_add]
        intro refers
        exact absurd (own number refers) (Nat.not_le_of_lt after)

theorem engine_composition {flags : Flags} {parts : List (Part { ignoreCase := flags.ignoreCase })}
    (some : parts ≠ [])
    (carried : carriesOver { ignoreCase := flags.ignoreCase } {} (parts.map source) = true) :
    engine flags (compose (parts.map source) "|").source =
      .ok ((Member.choice (parts.map member)).regex (room parts)
        (compose (parts.map source) "|").source) := by
  have parsed := parse_composition parts some carried
  have numbered := numbered_of_carriesOver carried
  have planned := Node.plan_ofAlternatives (plan_placed numbered 0 fun _ _ _ => rfl)
  rw [← Node.references_ofAlternatives] at planned
  refine engine_eq_ok.mpr ⟨_, _, parsed, Parsed.plan_eq_ok.mpr ⟨?_, planned⟩, rfl⟩
  intro number refers
  rw [Node.references_ofAlternatives] at refers
  have bound := (references_placed refers).2
  rwa [Nat.zero_add] at bound

theorem layout_eq (seen : Nat) (parts : List (Part options)) :
    (parts.map rule).zip (((wrapFragments seen (parts.map source)).map (·.1)).zip
      ((wrapFragments seen (parts.map source)).map (·.2.1))) =
        Member.layout seen (parts.map member) := by
  induction parts generalizing seen with
  | nil => rfl
  | cons part others ih =>
      simp only [List.map_cons, wrapFragments, raise_groups, List.zip_cons_cons, ih]
      rfl

/-- A pattern that is compiled alone is a part of a set. -/
theorem exists_of_engine {flags : Flags} {item : Rule × String} {regex : Regex}
    (accepted : engine flags item.2 = .ok regex) (counted : countGroups item.2 = regex.groups) :
    ∃ part : Part { ignoreCase := flags.ignoreCase },
      part.rule = item.1 ∧ part.source = item.2 ∧ part.member.regex = regex := by
  obtain ⟨⟨node, groups⟩, plan, parsed, planned, rfl⟩ := engine_eq_ok.mp accepted
  obtain ⟨referred, planned⟩ := Parsed.plan_eq_ok.mp planned
  exact ⟨⟨item.1, item.2, node, plan, groups, parsed, referred, planned, counted⟩, rfl, rfl, rfl⟩

theorem engine_eq {flags : Flags} (part : Part { ignoreCase := flags.ignoreCase }) :
    engine flags part.source = .ok part.member.regex :=
  engine_eq_ok.mpr ⟨_, part.plan, part.parsed,
    Parsed.plan_eq_ok.mpr ⟨part.referred, part.planned⟩, rfl⟩

theorem exists_parts {flags : Flags} {items : List (Rule × String)} {alone : List Regex}
    (accepted : List.Forall₂ (fun item regex => engine flags item.2 = .ok regex ∧
      countGroups item.2 = regex.groups) items alone) :
    ∃ parts : List (Part { ignoreCase := flags.ignoreCase }),
      items = parts.map (fun part => (part.rule, part.source)) ∧
        alone = parts.map (·.member.regex) := by
  induction accepted with
  | nil => exact ⟨[], rfl, rfl⟩
  | @cons item regex items alone first others ih =>
      obtain ⟨part, rule, source, same⟩ := exists_of_engine first.1 first.2
      obtain ⟨parts, rfl, rfl⟩ := ih
      refine ⟨part :: parts, ?_, ?_⟩
      · rw [List.map_cons, rule, source]
      · rw [List.map_cons, same]

end Part

namespace RuleSet

/-- Parts that carry over into their composition are compiled together and found as they are alone. -/
theorem compile_parts {flags : Flags} {parts : List (Part { ignoreCase := flags.ignoreCase })}
    (carried : carriesOver { ignoreCase := flags.ignoreCase } {} (parts.map Part.source) = true) :
    ∃ set, compile engine flags (parts.map fun part => (part.rule, part.source)) = .ok set ∧
      set.FindsAsAlone (parts.map fun part => (part.rule, part.member.regex)) := by
  have rules : (parts.map fun part => (part.rule, part.source)).map (·.1) = parts.map Part.rule := by
    rw [List.map_map]
    rfl
  have sources : (parts.map fun part => (part.rule, part.source)).map (·.2) =
      parts.map Part.source := by
    rw [List.map_map]
    rfl
  have sound : ∀ member ∈ parts.map Part.member, member.Sound := by
    intro member among
    obtain ⟨part, inside, rfl⟩ := List.mem_map.mp among
    exact Part.member_sound (Part.numbered_of_carriesOver carried part inside)
  have items : parts.map (fun part => (part.rule, part.member.regex)) =
      (parts.map Part.member).map Member.item := by
    rw [List.map_map]
    rfl
  by_cases empty : parts = []
  · subst empty
    refine ⟨_, rfl, ?_⟩
    exact @findsAsAlone_of_choice _ [] "" sound rfl rfl
  · have some : ¬ parts.isEmpty = true := by simpa using empty
    simp only [compile, rules, sources, List.isEmpty_map, if_neg some,
      Part.engine_composition empty carried]
    refine ⟨_, rfl, ?_⟩
    rw [items]
    apply findsAsAlone_of_choice sound (Part.layout_eq 0 parts)
    rw [List.isEmpty_map, if_neg some]
    rfl

theorem exists_accepted {flags : Flags} {items : List (Rule × String)}
    (groups : ∀ item ∈ items,
      (engine flags item.2).toOption.map Regex.groups = some (countGroups item.2)) :
    ∃ alone, List.Forall₂ (fun item regex => engine flags item.2 = .ok regex ∧
      countGroups item.2 = regex.groups) items alone := by
  induction items with
  | nil => exact ⟨[], .nil⟩
  | cons item items ih =>
      obtain ⟨alone, others⟩ := ih fun other among => groups other (List.mem_cons_of_mem _ among)
      obtain ⟨regex, found, counted⟩ := Option.map_eq_some_iff.mp (groups item List.mem_cons_self)
      exact ⟨regex :: alone, .cons ⟨eq_ok_of_toOption found, counted.symm⟩ others⟩

end RuleSet

end Highlight.Pattern
