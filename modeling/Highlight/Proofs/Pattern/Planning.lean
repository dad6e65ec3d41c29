import Highlight.Proofs.Pattern.Renumbering
import Mathlib.Data.List.Count

set_option autoImplicit false

/-! Plans with other group numbers. The plan of a tree whose numbers have been raised is its plan with the
numbers raised, if the references in the whole pattern, as far as they mean the groups of the tree, have
been raised with them. -/

namespace Highlight.Pattern

open Outcome

namespace Plan

@[simp] def raisedBy (offset : Nat) : Plan → Plan
  | done => done
  | text chars => text chars
  | set members => set members
  | spelled foldings => spelled foldings
  | anchor condition => anchor condition
  | keep => keep
  | sequence first second => sequence (first.raisedBy offset) (second.raisedBy offset)
  | either first second => either (first.raisedBy offset) (second.raisedBy offset)
  | group number body => group (number + offset) (body.raisedBy offset)
  | optional greedy body => optional greedy (body.raisedBy offset)
  | rounds least most greedy watched body =>
    rounds least most greedy (watched.map (· + offset)) (body.raisedBy offset)
  | atomic body => atomic (body.raisedBy offset)
  | ahead negated body => ahead negated (body.raisedBy offset)
  | behind least most negated body => behind least most negated (body.raisedBy offset)
  | reference groups ignoreCase => reference (groups.map (· + offset)) ignoreCase

variable (offset : Nat)

theorem raisedBy_join (first rest : Plan) :
    (first.join rest).raisedBy offset = (first.raisedBy offset).join (rest.raisedBy offset) := by
  cases first with
  | done => rfl
  | text chars =>
      cases rest with
      | sequence head others => cases head <;> rfl
      | _ => rfl
  | _ => cases rest <;> rfl

theorem raisedBy_copies (body : Plan) (count : Nat) :
    (body.copies count).raisedBy offset = (body.raisedBy offset).copies count := by
  induction count with
  | zero => rfl
  | succ count ih =>
      cases count with
      | zero => rfl
      | succ count => simp only [copies, raisedBy, ih]

theorem raisedBy_upTo (body : Plan) (count : Nat) :
    (body.upTo count).raisedBy offset = (body.raisedBy offset).upTo count := by
  induction count with
  | zero => rfl
  | succ count ih =>
      cases count with
      | zero => rfl
      | succ count => simp only [upTo, raisedBy, ih]

@[simp] theorem mayBeEmpty_raisedBy (plan : Plan) :
    (plan.raisedBy offset).mayBeEmpty = plan.mayBeEmpty := by
  induction plan <;> simp_all [raisedBy, mayBeEmpty]

theorem raisedBy_eq_set_iff (plan : Plan) (members : CharSet) :
    plan.raisedBy offset = set members ↔ plan = set members := by
  cases plan <;> simp [raisedBy]

@[simp] theorem size_raisedBy (plan : Plan) : (plan.raisedBy offset).size = plan.size := by
  induction plan with
  | rounds least most greedy watched body ih =>
      simp [raisedBy, size, raisedBy_eq_set_iff, ih]
  | _ => simp_all [raisedBy, size]

theorem raisedBy_repeated (least : Nat) (most : Option Nat) (greedy : Bool) (watched : List Nat)
    (body : Plan) :
    (repeated least most greedy watched body).raisedBy offset =
      repeated least most greedy (watched.map (· + offset)) (body.raisedBy offset) := by
  have repeatedText : repeatedText? least most (body.raisedBy offset) =
      (repeatedText? least most body).map (raisedBy offset) := by
    cases body with
    | text chars =>
        simp only [repeatedText?, raisedBy]
        split <;> rfl
    | _ => rfl
  unfold repeated
  rw [repeatedText, size_raisedBy]
  dsimp only
  by_cases nothing : (decide (body.size = 0) || decide (most = some 0)) = true
  · rw [if_pos nothing, if_pos nothing]
    rfl
  · rw [if_neg nothing, if_neg nothing]
    cases repeatedText? least most body with
    | some plan => rfl
    | none =>
        cases most with
        | none =>
            dsimp only [Option.map_none]
            split
            · rfl
            · split
              · rw [raisedBy_join, raisedBy_copies]
                rfl
              · rfl
        | some most =>
            dsimp only [Option.map_none]
            split
            · rw [raisedBy_join, raisedBy_copies, raisedBy_upTo]
            · split <;> rfl

@[simp] theorem raisedBy_letter (c : Char) : (letter c).raisedBy offset = letter c := by
  unfold letter
  split <;> rfl

@[simp] theorem raisedBy_single (c : Char) :
    (letters.single c).raisedBy offset = letters.single c := by
  unfold letters.single
  split
  · rfl
  · exact raisedBy_letter offset c

@[simp] theorem raisedBy_letters (chars : List Char) :
    (letters chars).raisedBy offset = letters chars := by
  fun_induction letters chars <;> simp_all [raisedBy_join, raisedBy, ligature]

@[simp] theorem raisedBy_lettersBehind (chars : List Char) :
    (lettersBehind chars).raisedBy offset = lettersBehind chars := by
  unfold lettersBehind
  induction chars with
  | nil => rfl
  | cons c rest ih =>
      rw [List.map_cons, List.foldr_cons, raisedBy_join, ih]
      congr 1
      split
      · rfl
      · exact raisedBy_letter offset c

end Plan

namespace Planning

/-- The same planning for a tree whose groups have been raised: the references to those groups have
been raised with them. -/
structure RaisedBy (offset : Nat) (groups : List Nat) (planning raised : Planning) : Prop where
  isBehind : raised.isBehind = planning.isBehind
  references : ∀ group ∈ groups,
    raised.references.count (group + offset) = planning.references.count group

theorem mem_captures_of_groups {node : Node} {group : Nat}
    (member : group ∈ watched.groups node) : group ∈ node.captures := by
  induction node with
  | sequence first second ihFirst ihSecond =>
      rcases List.mem_append.mp member with left | right
      · exact List.mem_append_left _ (ihFirst left)
      · exact List.mem_append_right _ (ihSecond right)
  | either first second ihFirst ihSecond =>
      rcases List.mem_append.mp member with left | right
      · exact List.mem_append_left _ (ihFirst left)
      · exact List.mem_append_right _ (ihSecond right)
  | group number body ih =>
      rcases List.mem_cons.mp member with rfl | inner
      · exact List.mem_cons_self
      · exact List.mem_cons_of_mem _ (ih inner)
  | enclosed body ih => exact ih member
  | atomic body ih => exact ih member
  | repeated least most greedy body ih =>
      simp only [watched.groups] at member
      split at member
      · cases member
      · exact ih member
  | _ => cases member

theorem groups_raisedBy (offset : Nat) (node : Node) :
    watched.groups (node.raisedBy offset) = (watched.groups node).map (· + offset) := by
  induction node with
  | repeated least most greedy body ih =>
      simp only [Node.raisedBy, watched.groups, Node.extent_raisedBy]
      split
      · rfl
      · exact ih
  | _ => simp_all [Node.raisedBy, watched.groups]

/-- Without any references no group would be watched anyway. -/
theorem watched_eq (planning : Planning) (body : Node) :
    planning.watched body = if body.extent.least ≠ 0 then [] else
      (watched.groups body).filter fun group =>
        body.references.count group < planning.references.count group := by
  unfold watched
  dsimp only
  by_cases fixed : body.extent.least = 0
  · cases none : planning.references with
    | nil => simp [fixed]
    | cons reference others => simp [fixed]
  · simp [fixed]

variable {offset : Nat} {groups : List Nat} {planning raised : Planning}

theorem RaisedBy.mono (fits : RaisedBy offset groups planning raised) {fewer : List Nat}
    (among : ∀ group ∈ fewer, group ∈ groups) : RaisedBy offset fewer planning raised :=
  ⟨fits.isBehind, fun group member => fits.references group (among group member)⟩

theorem RaisedBy.watched {body : Node} (fits : RaisedBy offset body.captures planning raised) :
    raised.watched (body.raisedBy offset) = (planning.watched body).map (· + offset) := by
  rw [watched_eq, watched_eq, Node.extent_raisedBy]
  split
  · rfl
  · rw [groups_raisedBy, Node.references_raisedBy, List.filter_map]
    congr 1
    apply List.filter_congr
    intro group member
    have inner : (body.references.map (· + offset)).count (group + offset) =
        body.references.count group :=
      List.count_map_of_injective _ (· + offset) (fun _ _ => Nat.add_right_cancel) group
    simp only [Function.comp_apply, inner, fits.references group (mem_captures_of_groups member)]

theorem raisedBy_divided (offset : Nat) (negated : Bool) (counts : List Nat) (plan : Plan) :
    (divided negated counts plan).raisedBy offset =
      divided negated counts (plan.raisedBy offset) := by
  induction counts generalizing plan with
  | nil => rfl
  | cons count rest ih =>
      cases rest with
      | nil => rfl
      | cons next others =>
          cases plan with
          | either first second =>
              simp only [divided, Plan.raisedBy, ← ih]
              split <;> rfl
          | _ => rfl

theorem RaisedBy.behind {negated : Bool} {body : Node} {plan look : Plan}
    (fits : RaisedBy offset body.captures planning raised)
    (planned : planning.behind negated body plan = .ok look) :
    raised.behind negated (body.raisedBy offset) (plan.raisedBy offset) =
      .ok (look.raisedBy offset) := by
  have referred : (body.raisedBy offset).captures.any raised.references.contains =
      body.captures.any planning.references.contains := by
    rw [Node.captures_raisedBy, List.any_map]
    rw [Bool.eq_iff_iff]
    simp only [List.any_eq_true, Function.comp_apply, List.contains_iff_mem]
    apply exists_congr
    intro group
    apply and_congr_right
    intro member
    rw [← List.count_pos_iff, ← List.count_pos_iff, fits.references group member]
  have extents : (body.raisedBy offset).branches.map Node.extent =
      body.branches.map Node.extent := by
    rw [Node.branches_raisedBy, List.map_map]
    congr 1
    funext branch
    exact Node.extent_raisedBy offset branch
  have leftOut : (body.raisedBy offset).branches.any Node.isAllLeftOut =
      body.branches.any Node.isAllLeftOut := by
    rw [Node.branches_raisedBy, List.any_map]
    congr 1
    funext branch
    exact Node.isAllLeftOut_raisedBy offset branch
  unfold Planning.behind at planned ⊢
  rw [leftOut, extents, referred, Node.extent_raisedBy]
  dsimp only at planned ⊢
  by_cases leaves : body.branches.any Node.isAllLeftOut = true
  · rw [if_pos leaves] at planned
    cases planned
  rw [if_neg leaves] at planned ⊢
  by_cases far : body.extent.isTooFar = true
  · rw [if_pos far] at planned
    cases planned
  rw [if_neg far] at planned ⊢
  split at planned
  · cases planned
    rw [if_pos ‹_›]
    cases negated <;> rfl
  · rw [if_neg ‹_›]
    split at planned
    · cases planned
      rw [if_pos ‹_›, raisedBy_divided]
    · cases planned
      rw [if_neg ‹_›]
      rfl

end Planning

namespace Node

theorem plan_raisedBy {offset : Nat} {node : Node} {planning raised : Planning} {plan : Plan}
    (fits : planning.RaisedBy offset node.captures raised)
    (planned : node.plan planning = .ok plan) :
    (node.raisedBy offset).plan raised = .ok (plan.raisedBy offset) := by
  induction node generalizing planning raised plan with
  | chars text ignoreCase =>
      obtain rfl := Except.ok.inj planned
      simp only [Node.raisedBy, Node.plan, fits.isBehind]
      split
      · rfl
      · split <;> simp
  | sequence first second ihFirst ihSecond =>
      obtain ⟨start, firstPlanned, planned⟩ := bind_eq_ok.mp planned
      obtain ⟨rest, secondPlanned, planned⟩ := bind_eq_ok.mp planned
      obtain rfl := pure_eq_ok.mp planned
      have left := ihFirst (fits.mono fun _ => List.mem_append_left _) firstPlanned
      have right := ihSecond (fits.mono fun _ => List.mem_append_right _) secondPlanned
      simp only [Node.raisedBy, Node.plan, left, right, ok_bind, Plan.raisedBy_join]
      rfl
  | either first second ihFirst ihSecond =>
      obtain ⟨start, firstPlanned, planned⟩ := bind_eq_ok.mp planned
      obtain ⟨rest, secondPlanned, planned⟩ := bind_eq_ok.mp planned
      obtain rfl := pure_eq_ok.mp planned
      have left := ihFirst (fits.mono fun _ => List.mem_append_left _) firstPlanned
      have right := ihSecond (fits.mono fun _ => List.mem_append_right _) secondPlanned
      simp only [Node.raisedBy, Node.plan, left, right, ok_bind]
      rfl
  | group number body ih =>
      obtain ⟨inner, innerPlanned, planned⟩ := bind_eq_ok.mp planned
      obtain rfl := pure_eq_ok.mp planned
      have raised := ih (fits.mono fun _ => List.mem_cons_of_mem _) innerPlanned
      simp only [Node.raisedBy, Node.plan, raised, ok_bind]
      rfl
  | enclosed body ih => exact ih fits planned
  | repeated least most greedy body ih =>
      obtain ⟨inner, innerPlanned, planned⟩ := bind_eq_ok.mp planned
      obtain rfl := pure_eq_ok.mp planned
      have watched := Planning.RaisedBy.watched (show planning.RaisedBy _ body.captures _ from fits)
      simp only [Node.raisedBy, Node.plan, ih fits innerPlanned, ok_bind, Plan.raisedBy_repeated,
        watched]
      rfl
  | atomic body ih =>
      obtain ⟨inner, innerPlanned, planned⟩ := bind_eq_ok.mp planned
      obtain rfl := pure_eq_ok.mp planned
      simp only [Node.raisedBy, Node.plan, ih fits innerPlanned, ok_bind]
      rfl
  | look behind negated body ih =>
      cases behind with
      | false =>
          obtain ⟨inner, innerPlanned, planned⟩ := bind_eq_ok.mp planned
          obtain rfl := pure_eq_ok.mp planned
          simp only [Node.raisedBy, Node.plan, ih fits innerPlanned, ok_bind, Bool.false_eq_true,
            if_false]
          rfl
      | true =>
          have looking : { planning with isBehind := true }.RaisedBy offset body.captures
              { raised with isBehind := true } := ⟨rfl, fits.references⟩
          simp only [Node.plan, if_true] at planned
          split at planned
          · cases planned
          · obtain ⟨inner, innerPlanned, planned⟩ := bind_eq_ok.mp planned
            have behind := Planning.RaisedBy.behind
              (show planning.RaisedBy _ body.captures _ from fits) planned
            simp only [Node.raisedBy, Node.plan, if_true, Node.isBarredBehind_raisedBy]
            rw [if_neg ‹_›]
            exact bind_eq_ok.mpr ⟨_, ih looking innerPlanned, behind⟩
  | _ =>
      obtain rfl := Except.ok.inj planned
      rfl

end Node

/-! ### What a plan writes down -/

namespace Plan

@[simp] def marks : Plan → List (Option Nat)
  | keep => [none]
  | sequence first second | either first second => first.marks ++ second.marks
  | group number body => some number :: body.marks
  | optional _ body | rounds _ _ _ _ body | atomic body | ahead _ body | behind _ _ _ body =>
    body.marks
  | _ => []

theorem marks_join (first rest : Plan) :
    (first.join rest).marks = first.marks ++ rest.marks := by
  cases first with
  | done => rfl
  | text chars =>
      cases rest with
      | sequence head others => cases head <;> rfl
      | _ => rfl
  | _ => cases rest <;> simp [join, marks]

theorem marks_copies (body : Plan) (count : Nat) :
    (body.copies count).marks ⊆ body.marks := by
  induction count with
  | zero => exact List.nil_subset _
  | succ count ih =>
      cases count with
      | zero => exact fun _ member => member
      | succ count => exact List.append_subset.mpr ⟨fun _ member => member, ih⟩

theorem marks_upTo (body : Plan) (count : Nat) :
    (body.upTo count).marks ⊆ body.marks := by
  induction count with
  | zero => exact List.nil_subset _
  | succ count ih =>
      cases count with
      | zero => exact fun _ member => member
      | succ count => exact List.append_subset.mpr ⟨fun _ member => member, ih⟩

theorem marks_repeated (least : Nat) (most : Option Nat) (greedy : Bool) (watched : List Nat)
    (body : Plan) : (repeated least most greedy watched body).marks ⊆ body.marks := by
  have copies := marks_copies body least
  have repeatedText : ∀ plan, repeatedText? least most body = some plan → plan.marks = [] := by
    intro plan found
    cases body with
    | text chars =>
        simp only [repeatedText?] at found
        split at found
        · cases found
          rfl
        · cases found
    | _ => cases found
  unfold repeated
  dsimp only
  split
  · exact List.nil_subset _
  · split
    · rw [repeatedText _ ‹_›]
      exact List.nil_subset _
    · split
      · exact fun _ member => member
      · split
        · rw [marks_join]
          exact List.append_subset.mpr ⟨copies, fun _ member => member⟩
        · exact fun _ member => member
    · split
      · rw [marks_join]
        exact List.append_subset.mpr ⟨copies, marks_upTo body _⟩
      · split <;> exact fun _ member => member

theorem marks_letter (c : Char) : (letter c).marks = [] := by
  unfold letter
  split <;> rfl

theorem marks_single (c : Char) : (letters.single c).marks = [] := by
  unfold letters.single
  split
  · rfl
  · exact marks_letter c

theorem marks_letters (chars : List Char) : (letters chars).marks = [] := by
  fun_induction letters chars <;>
    simp_all [marks_join, marks, marks_single, ligature]

theorem marks_lettersBehind (chars : List Char) : (lettersBehind chars).marks = [] := by
  unfold lettersBehind
  induction chars with
  | nil => rfl
  | cons c rest ih =>
      rw [List.map_cons, List.foldr_cons, marks_join, ih, List.append_nil]
      split
      · rfl
      · exact marks_letter c

theorem marks_divided (negated : Bool) (counts : List Nat) (plan : Plan) :
    (Planning.divided negated counts plan).marks ⊆ plan.marks := by
  induction counts generalizing plan with
  | nil => exact List.nil_subset _
  | cons count rest ih =>
      cases rest with
      | nil => exact fun _ member => member
      | cons next others =>
          cases plan with
          | either first second =>
              have others := List.Subset.trans (ih second)
                (List.subset_append_right first.marks _)
              simp only [Planning.divided]
              split <;>
                exact List.append_subset.mpr ⟨List.subset_append_left _ _, others⟩
          | _ => exact fun _ member => member

theorem marks_behind {planning : Planning} {negated : Bool} {body : Node} {plan look : Plan}
    (planned : planning.behind negated body plan = .ok look) : look.marks ⊆ plan.marks := by
  unfold Planning.behind at planned
  dsimp only at planned
  split at planned
  · cases planned
  · split at planned
    · cases planned
    · split at planned
      · cases planned
        cases negated <;> exact List.nil_subset _
      · split at planned
        · cases planned
          exact marks_divided ..
        · cases planned
          exact fun _ member => member

end Plan

namespace Node

theorem marks_plan {node : Node} {planning : Planning} {plan : Plan}
    (planned : node.plan planning = .ok plan) : plan.marks ⊆ node.marks := by
  induction node generalizing planning plan with
  | chars text ignoreCase =>
      obtain rfl := Except.ok.inj planned
      split
      · exact List.nil_subset _
      · split
        · rw [Plan.marks_lettersBehind]
          exact List.nil_subset _
        · rw [Plan.marks_letters]
          exact List.nil_subset _
  | sequence first second ihFirst ihSecond =>
      obtain ⟨start, firstPlanned, planned⟩ := bind_eq_ok.mp planned
      obtain ⟨rest, secondPlanned, planned⟩ := bind_eq_ok.mp planned
      obtain rfl := pure_eq_ok.mp planned
      rw [Plan.marks_join]
      exact List.append_subset.mpr
        ⟨List.subset_append_of_subset_left _ (ihFirst firstPlanned),
          List.subset_append_of_subset_right _ (ihSecond secondPlanned)⟩
  | either first second ihFirst ihSecond =>
      obtain ⟨start, firstPlanned, planned⟩ := bind_eq_ok.mp planned
      obtain ⟨rest, secondPlanned, planned⟩ := bind_eq_ok.mp planned
      obtain rfl := pure_eq_ok.mp planned
      exact List.append_subset.mpr
        ⟨List.subset_append_of_subset_left _ (ihFirst firstPlanned),
          List.subset_append_of_subset_right _ (ihSecond secondPlanned)⟩
  | group number body ih =>
      obtain ⟨inner, innerPlanned, planned⟩ := bind_eq_ok.mp planned
      obtain rfl := pure_eq_ok.mp planned
      exact List.cons_subset_cons _ (ih innerPlanned)
  | enclosed body ih => exact ih planned
  | repeated least most greedy body ih =>
      obtain ⟨inner, innerPlanned, planned⟩ := bind_eq_ok.mp planned
      obtain rfl := pure_eq_ok.mp planned
      exact List.Subset.trans (Plan.marks_repeated ..) (ih innerPlanned)
  | atomic body ih =>
      obtain ⟨inner, innerPlanned, planned⟩ := bind_eq_ok.mp planned
      obtain rfl := pure_eq_ok.mp planned
      exact fun _ member => ih innerPlanned member
  | look behind negated body ih =>
      cases behind with
      | false =>
          obtain ⟨inner, innerPlanned, planned⟩ := bind_eq_ok.mp planned
          obtain rfl := pure_eq_ok.mp planned
          exact fun _ member => ih innerPlanned member
      | true =>
          simp only [Node.plan, if_true] at planned
          split at planned
          · cases planned
          · obtain ⟨inner, innerPlanned, planned⟩ := bind_eq_ok.mp planned
            exact List.Subset.trans (Plan.marks_behind planned) (ih innerPlanned)
  | keep =>
      obtain rfl := Except.ok.inj planned
      exact fun _ member => member
  | _ =>
      obtain rfl := Except.ok.inj planned
      exact List.nil_subset _

end Node

end Highlight.Pattern
