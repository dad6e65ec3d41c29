import Highlight.Pattern.Parser
import Highlight.Pattern.Plan
import Highlight.Proofs.Outcome

set_option autoImplicit false

/-! Trees and plans with other group numbers. All numbers in them can be raised by the same amount; what
is done with a tree while it is read and made into a plan depends on its shape and not on the numbers,
so it comes to the same whether the numbers are raised before or after. -/

namespace Highlight.Pattern

open Outcome

/-! ### Trees -/

namespace Node

@[simp] def raisedBy (offset : Nat) : Node → Node
  | empty => empty
  | chars text ignoreCase => chars text ignoreCase
  | set members => set members
  | spelled foldings => spelled foldings
  | anchor condition => anchor condition
  | keep => keep
  | sequence first second => sequence (first.raisedBy offset) (second.raisedBy offset)
  | either first second => either (first.raisedBy offset) (second.raisedBy offset)
  | group number body => group (number + offset) (body.raisedBy offset)
  | enclosed body => enclosed (body.raisedBy offset)
  | repeated least most greedy body => repeated least most greedy (body.raisedBy offset)
  | atomic body => atomic (body.raisedBy offset)
  | look behind negated body => look behind negated (body.raisedBy offset)
  | reference groups ignoreCase => reference (groups.map (· + offset)) ignoreCase

variable (offset : Nat)

theorem raisedBy_join (first rest : Node) :
    (first.join rest).raisedBy offset = (first.raisedBy offset).join (rest.raisedBy offset) := by
  induction first generalizing rest with
  | empty => rfl
  | sequence first second ihFirst ihSecond =>
      simp only [join, raisedBy, ihFirst, ihSecond]
  | chars text ignoreCase =>
      cases rest with
      | chars next sameCase =>
          simp only [join, raisedBy]
          split <;> rfl
      | sequence head others =>
          cases head with
          | chars next sameCase =>
              simp only [join, raisedBy]
              split <;> rfl
          | _ => rfl
      | _ => rfl
  | _ => cases rest <;> rfl

theorem raisedBy_foldr_join (nodes : List Node) :
    (nodes.foldr join empty).raisedBy offset =
      (nodes.map (raisedBy offset)).foldr join empty := by
  induction nodes with
  | nil => rfl
  | cons node rest ih =>
      rw [List.foldr_cons, raisedBy_join, ih]
      rfl

theorem raisedBy_ofList (nodes : List Node) :
    (ofList nodes).raisedBy offset = ofList (nodes.map (raisedBy offset)) := by
  cases nodes with
  | nil => rfl
  | cons first others =>
      have rest := raisedBy_foldr_join offset others
      simp only [ofList, List.map_cons]
      generalize others.foldr join empty = tail at rest ⊢
      rw [← rest]
      cases first with
      | sequence left right => cases tail <;> rfl
      | _ => exact raisedBy_join offset _ _

theorem raisedBy_ofAlternatives (nodes : List Node) :
    (ofAlternatives nodes).raisedBy offset = ofAlternatives (nodes.map (raisedBy offset)) := by
  induction nodes with
  | nil => rfl
  | cons node rest ih =>
      cases rest with
      | nil => rfl
      | cons next others => simpa [ofAlternatives, raisedBy] using ih

@[simp] theorem isCondition_raisedBy (node : Node) :
    (node.raisedBy offset).isCondition = node.isCondition := by
  induction node <;> simp_all [raisedBy, isCondition]

@[simp] theorem isSimple_raisedBy (node : Node) :
    (node.raisedBy offset).isSimple = node.isSimple := by
  cases node <;> rfl

@[simp] theorem extent_raisedBy (node : Node) : (node.raisedBy offset).extent = node.extent := by
  induction node <;> simp_all [raisedBy, extent]

@[simp] theorem isBarredBehind_raisedBy (negated : Bool) (node : Node) :
    (node.raisedBy offset).isBarredBehind negated = node.isBarredBehind negated := by
  induction node with
  | anchor condition => rfl
  | _ => simp_all [raisedBy, isBarredBehind]

theorem branches_raisedBy (node : Node) :
    (node.raisedBy offset).branches = node.branches.map (raisedBy offset) := by
  induction node <;> simp_all [raisedBy, branches]

theorem parts_raisedBy (node : Node) :
    (node.raisedBy offset).parts = node.parts.map (raisedBy offset) := by
  induction node <;> simp_all [raisedBy, parts]

theorem captures_raisedBy (node : Node) :
    (node.raisedBy offset).captures = node.captures.map (· + offset) := by
  induction node <;> simp_all [raisedBy, captures]

theorem references_raisedBy (node : Node) :
    (node.raisedBy offset).references = node.references.map (· + offset) := by
  induction node <;> simp_all [raisedBy, references]

theorem isAllLeftOut_raisedBy (node : Node) :
    (node.raisedBy offset).isAllLeftOut = node.isAllLeftOut := by
  unfold isAllLeftOut
  rw [parts_raisedBy, List.length_map, List.all_map]
  congr 2
  funext part
  cases part <;> simp [raisedBy]

theorem raisedBy_withFewestFirst (node : Node) :
    node.withFewestFirst.raisedBy offset = (node.raisedBy offset).withFewestFirst := by
  induction node with
  | repeated least most greedy body _ =>
      simp only [withFewestFirst, raisedBy, isSimple_raisedBy]
      split <;> rfl
  | sequence first second _ ih =>
      cases first with
      | repeated least most greedy body =>
          simp only [withFewestFirst, raisedBy, isSimple_raisedBy, ← ih]
          split
          · split <;> rfl
          · rfl
      | _ => rfl
  | _ => rfl

theorem raisedBy_withFewestBehind (node : Node) :
    node.withFewestBehind.raisedBy offset = (node.raisedBy offset).withFewestBehind := by
  induction node with
  | either first second _ ih =>
      simp only [withFewestBehind, raisedBy, raisedBy_withFewestFirst, ih]
  | _ => exact raisedBy_withFewestFirst offset _

theorem raisedBy_repeatRepeated (kind innerKind : RepetitionKind) (outer inner : Bool)
    (body : Node) :
    (repeatRepeated kind outer innerKind inner body).raisedBy offset =
      repeatRepeated kind outer innerKind inner (body.raisedBy offset) := by
  cases innerKind <;> cases inner <;> cases kind <;> cases outer <;> rfl

theorem raisedBy_repeatedBy (node : Node) (repetition : Repetition) :
    (node.repeatedBy repetition).raisedBy offset =
      (node.raisedBy offset).repeatedBy repetition := by
  unfold repeatedBy
  split
  · rfl
  · cases node with
    | repeated least most greedy body =>
        simp only [raisedBy]
        cases RepetitionKind.of? repetition.least repetition.most with
        | none => split <;> rfl
        | some kind =>
            cases RepetitionKind.of? least most with
            | none => split <;> rfl
            | some inner =>
                simp only [← raisedBy_repeatRepeated]
                split <;> rfl
    | _ =>
        simp only [raisedBy]
        split <;> rfl

/-! ### What a tree writes down -/

/-- The groups that a tree remembers the text of and, as nothing, the start of the match if the tree
takes it to be elsewhere. -/
@[simp] def marks : Node → List (Option Nat)
  | keep => [none]
  | sequence first second | either first second => first.marks ++ second.marks
  | group number body => some number :: body.marks
  | enclosed body | repeated _ _ _ body | atomic body | look _ _ body => body.marks
  | _ => []

theorem some_mem_marks_iff (node : Node) (group : Nat) :
    some group ∈ node.marks ↔ group ∈ node.captures := by
  induction node <;> simp_all [marks, captures]

theorem marks_join (first rest : Node) :
    (first.join rest).marks = first.marks ++ rest.marks := by
  induction first generalizing rest with
  | empty => rfl
  | sequence left right ihLeft ihRight =>
      simp only [join, marks, ihLeft, ihRight, List.append_assoc]
  | chars text ignoreCase =>
      cases rest with
      | chars next sameCase =>
          simp only [join]
          split <;> rfl
      | sequence head others =>
          cases head with
          | chars next sameCase =>
              simp only [join]
              split <;> rfl
          | _ => rfl
      | _ => rfl
  | _ => cases rest <;> simp [join, marks]

theorem marks_ofList (nodes : List Node) :
    (ofList nodes).marks = nodes.flatMap marks := by
  have joined : ∀ nodes : List Node, (nodes.foldr join empty).marks = nodes.flatMap marks := by
    intro nodes
    induction nodes with
    | nil => rfl
    | cons node rest ih => rw [List.foldr_cons, marks_join, ih, List.flatMap_cons]
  cases nodes with
  | nil => rfl
  | cons first others =>
      rw [List.flatMap_cons, ← joined]
      simp only [ofList]
      generalize others.foldr join empty = tail
      cases first with
      | sequence left right => cases tail <;> simp [marks]
      | _ => exact marks_join _ _

theorem marks_ofAlternatives (nodes : List Node) :
    (ofAlternatives nodes).marks = nodes.flatMap marks := by
  induction nodes with
  | nil => rfl
  | cons node rest ih =>
      cases rest with
      | nil => simp [ofAlternatives]
      | cons next others => simpa [ofAlternatives, marks] using ih

theorem marks_withFewestFirst (node : Node) :
    node.withFewestFirst.marks = node.marks := by
  induction node with
  | repeated least most greedy body _ =>
      simp only [withFewestFirst]
      split <;> rfl
  | sequence first second _ ih =>
      cases first with
      | repeated least most greedy body =>
          simp only [withFewestFirst]
          split
          · split <;> simp [marks, ih]
          · rfl
      | _ => rfl
  | _ => rfl

theorem marks_withFewestBehind (node : Node) :
    node.withFewestBehind.marks = node.marks := by
  induction node with
  | either first second _ ih => simp only [withFewestBehind, marks, marks_withFewestFirst, ih]
  | _ => exact marks_withFewestFirst _

theorem marks_repeatedBy (node : Node) (repetition : Repetition) :
    (node.repeatedBy repetition).marks = node.marks := by
  have repeated_ : ∀ (kind innerKind : RepetitionKind) (outer inner : Bool) (body : Node),
      (repeatRepeated kind outer innerKind inner body).marks = body.marks := by
    intro kind innerKind outer inner body
    cases innerKind <;> cases inner <;> cases kind <;> cases outer <;> rfl
  unfold repeatedBy
  split
  · rfl
  · cases node with
    | repeated least most greedy body =>
        simp only
        cases RepetitionKind.of? repetition.least repetition.most with
        | none => split <;> rfl
        | some kind =>
            cases RepetitionKind.of? least most with
            | none => split <;> rfl
            | some inner => split <;> exact repeated_ ..
    | _ =>
        simp only
        split <;> rfl

end Node

end Highlight.Pattern
