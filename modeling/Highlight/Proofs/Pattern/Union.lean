import Highlight.Proofs.Pattern.Choice
import Highlight.Proofs.Pattern.Remembering

set_option autoImplicit false

/-! Two sources with a bar between them. Where the whole is read as the choice between the two, the groups
of the second one numbered behind those of the first, it matches where one of them does, and remembers
what the one that has matched remembers alone. Nothing says that it is read so: the bar may fall into
the first source, and a reference in the second one means a group of the first. -/

namespace Highlight.Pattern

open Outcome

/-! ### Choices however they are grouped -/

/-- A plan that is tried as some plans are, one after the other. -/
def Plan.Tries (plan : Plan) (plans : List Plan) : Prop :=
  ∀ sight next progress, plan.matchThen sight next progress =
    plans.findSome? fun other => other.matchThen sight next progress

theorem Plan.tries_singleton (plan : Plan) : plan.Tries [plan] := by
  intro sight next progress
  rw [List.findSome?_singleton]

theorem Plan.Tries.append {first second : Plan} {plans others : List Plan}
    (one : first.Tries plans) (other : second.Tries others) :
    (either first second).Tries (plans ++ others) := by
  intro sight next progress
  simp only [matchThen, one sight next progress, other sight next progress, List.findSome?_append]
  exact Option.orElse_eq_or

namespace Node

/-- What a choice is between, however the choice is grouped. -/
def choices : Node → List Node
  | either first second => first.choices ++ second.choices
  | node => [node]

theorem references_choices (node : Node) : node.choices.flatMap references = node.references := by
  induction node with
  | either first second ihFirst ihSecond =>
      rw [choices, List.flatMap_append, ihFirst, ihSecond, references]
  | _ => exact List.flatMap_singleton ..

variable {planning : Planning}

theorem plan_choices {node : Node} {plan : Plan} (planned : node.plan planning = .ok plan) :
    ∃ plans, node.choices.mapM (Node.plan planning) = .ok plans ∧ plan.Tries plans := by
  induction node generalizing plan with
  | either first second ihFirst ihSecond =>
      obtain ⟨one, firstPlanned, planned⟩ := bind_eq_ok.mp planned
      obtain ⟨other, secondPlanned, planned⟩ := bind_eq_ok.mp planned
      obtain rfl := pure_eq_ok.mp planned
      obtain ⟨plans, firstPlans, firstTries⟩ := ihFirst firstPlanned
      obtain ⟨others, secondPlans, secondTries⟩ := ihSecond secondPlanned
      refine ⟨plans ++ others, ?_, firstTries.append secondTries⟩
      rw [choices, List.mapM_append, firstPlans, ok_bind, secondPlans]
      rfl
  | _ =>
      refine ⟨[plan], ?_, plan.tries_singleton⟩
      simp only [choices, List.mapM_cons, planned]
      rfl

theorem exists_plan {node : Node} {plans : List Plan}
    (planned : node.choices.mapM (Node.plan planning) = .ok plans) :
    ∃ plan, node.plan planning = .ok plan ∧ plan.Tries plans := by
  induction node generalizing plans with
  | either first second ihFirst ihSecond =>
      rw [choices, List.mapM_append] at planned
      obtain ⟨some, firstPlans, planned⟩ := bind_eq_ok.mp planned
      obtain ⟨others, secondPlans, planned⟩ := bind_eq_ok.mp planned
      obtain rfl := pure_eq_ok.mp planned
      obtain ⟨one, firstPlanned, firstTries⟩ := ihFirst firstPlans
      obtain ⟨other, secondPlanned, secondTries⟩ := ihSecond secondPlans
      exact ⟨_, bind_eq_ok.mpr ⟨one, firstPlanned, bind_eq_ok.mpr ⟨other, secondPlanned, rfl⟩⟩,
        firstTries.append secondTries⟩
  | _ =>
      simp only [choices, List.mapM_cons] at planned
      obtain ⟨plan, own, planned⟩ := bind_eq_ok.mp planned
      obtain rfl := pure_eq_ok.mp planned
      exact ⟨plan, own, plan.tries_singleton⟩

/-- Trees between whose alternatives there is no difference have plans that are tried alike. -/
theorem plan_of_choices {node other : Node} {plan : Plan} (same : other.choices = node.choices)
    (planned : node.plan planning = .ok plan) :
    ∃ otherPlan, other.plan planning = .ok otherPlan ∧
      ∀ sight, otherPlan.matchThen sight = plan.matchThen sight := by
  obtain ⟨plans, choices, tries⟩ := plan_choices planned
  obtain ⟨otherPlan, otherPlanned, otherTries⟩ := exists_plan (same ▸ choices)
  refine ⟨otherPlan, otherPlanned, fun sight => ?_⟩
  funext next progress
  rw [otherTries, tries]

@[simp] theorem raisedBy_zero (node : Node) : node.raisedBy 0 = node := by
  induction node <;> simp_all

/-- Whether the groups that a tree writes down and refers to are numbered from one up to a bound, and
nothing in it moves the start of a match. -/
def keepsTo (groups : Nat) (node : Node) : Bool :=
  node.marks.all (fun mark => mark.any fun group => 0 < group && group ≤ groups) &&
    node.references.all fun group => 0 < group && group ≤ groups

section

variable {groups : Nat} {node : Node} (keeps : node.keepsTo groups = true)

include keeps

theorem exists_of_keepsTo : ∀ mark ∈ node.marks,
    ∃ group, mark = some group ∧ 0 < group ∧ group ≤ groups := by
  intro mark written
  simp only [keepsTo, Bool.and_eq_true, List.all_eq_true] at keeps
  cases mark with
  | none => exact absurd (keeps.1 none written) Bool.false_ne_true
  | some group => exact ⟨group, rfl, by simpa using keeps.1 _ written⟩

theorem references_of_keepsTo : ∀ group ∈ node.references, 0 < group ∧ group ≤ groups := by
  intro group refers
  simp only [keepsTo, Bool.and_eq_true, List.all_eq_true] at keeps
  simpa using keeps.2 group refers

/-- A tree whose groups are raised with the references to them has its plan, raised as well. -/
theorem plan_of_keepsTo {offset : Nat} {references : List Nat} {plan : Plan}
    (planned : node.plan { references := node.references } = .ok plan)
    (counts : ∀ group, 0 < group → group ≤ groups →
      references.count (group + offset) = node.references.count group) :
    (node.raisedBy offset).plan { references } = .ok (plan.raisedBy offset) := by
  have fits : Planning.RaisedBy offset node.captures { references := node.references }
      { references } := by
    refine ⟨rfl, fun group captured => ?_⟩
    obtain ⟨_, same, positive, bound⟩ :=
      exists_of_keepsTo keeps (some group) ((some_mem_marks_iff node group).mpr captured)
    cases same
    exact counts group positive bound
  exact plan_raisedBy fits planned

end

end Node

@[simp] theorem Plan.raisedBy_zero (plan : Plan) : plan.raisedBy 0 = plan := by
  induction plan <;> simp_all

/-! ### Two patterns tried one after the other -/

/-- What a pattern remembers alone, behind so many groups of another one that has taken no part. -/
structure Captures.Placed (offset : Nat) (alone placed : Captures) : Prop where
  whole : placed[0]? = alone[0]?
  inner : ∀ group, 0 < group → placed[group + offset]?.join = alone[group]?.join
  before : ∀ group, 0 < group → group ≤ offset → placed[group]?.join = none

namespace Member

/-- A pattern whose groups are numbered from one, as they are in its source. -/
structure Counted (member : Member) : Prop extends member.Sound where
  positive : some 0 ∉ member.plan.marks

variable {first second : Member} {text : Text} {origin position : Nat}

/-- The plan that is tried first, then the other one in groups behind those of the first. -/
def before (first second : Member) : Plan :=
  .either first.plan (second.plan.raisedBy first.groups)

structure Behind (member : Member) (offset : Nat) (alone placed : Progress) : Prop
    extends Progress.Placed offset member.groups alone placed where
  unset : alone.span? 0 = none

theorem start_placed {offset groups total : Nat} (room : offset + groups ≤ total) (position : Nat) :
    Progress.Placed offset groups { position, groups := Array.replicate (groups + 1) none }
      { position, groups := Array.replicate (total + 1) none } where
  position := rfl
  kept := rfl
  span? group := by rw [span?_replicate, span?_replicate]
  before group _ := span?_replicate ..
  size := Array.size_replicate
  room := by
    rw [Array.size_replicate]
    omega

theorem matchFrom_behind {member : Member} (counted : member.Counted) {offset total : Nat}
    (room : offset + member.groups ≤ total) (text : Text) (origin position : Nat) :
    Option.Rel (member.Behind offset) (member.matchFrom text origin position)
      ((member.plan.raisedBy offset).matchFrom total text origin position) := by
  have agree : Option.Rel (Progress.Placed offset member.groups)
      (member.matchFrom text origin position)
      ((member.plan.raisedBy offset).matchFrom total text origin position) :=
    member.plan.matchThen_placed counted.groups (fun _ _ => .some) (start_placed room position)
  generalize matched : member.matchFrom text origin position = alone at agree ⊢
  generalize (member.plan.raisedBy offset).matchFrom _ _ _ _ = placed at agree ⊢
  cases agree with
  | none => exact .none
  | some agree =>
      have start := span?_replicate position (member.groups + 1) 0
      have unset := Plan.holds_of_matchFrom (Lasts.unmarked counted.positive none (member.groups + 1))
        ⟨Array.size_replicate, start⟩ matched
      exact .some ⟨agree, unset.2⟩

theorem matchFrom_before (firstCounted : first.Counted) (secondCounted : second.Counted)
    (text : Text) (origin position : Nat) :
    match (first.before second).matchFrom (first.groups + second.groups) text origin position with
    | none => first.matchFrom text origin position = none ∧
        second.matchFrom text origin position = none
    | some placed =>
        (∃ alone, first.matchFrom text origin position = some alone ∧ first.Behind 0 alone placed) ∨
          first.matchFrom text origin position = none ∧
            ∃ alone, second.matchFrom text origin position = some alone ∧
              second.Behind first.groups alone placed := by
  have own := matchFrom_behind firstCounted
    (show 0 + first.groups ≤ first.groups + second.groups by omega) text origin position
  have other := matchFrom_behind secondCounted
    (Nat.le_refl (first.groups + second.groups)) text origin position
  rw [Plan.raisedBy_zero] at own
  have tried : (first.before second).matchFrom (first.groups + second.groups) text origin position =
      (first.plan.matchFrom (first.groups + second.groups) text origin position).orElse fun _ =>
        (second.plan.raisedBy first.groups).matchFrom (first.groups + second.groups) text origin
          position := rfl
  rw [tried]
  generalize first.plan.matchFrom _ text origin position = placed at own ⊢
  generalize (second.plan.raisedBy first.groups).matchFrom _ text origin position = behind at other ⊢
  generalize first.matchFrom text origin position = alone at own ⊢
  generalize second.matchFrom text origin position = otherAlone at other ⊢
  cases own with
  | some own => exact .inl ⟨_, rfl, own⟩
  | none =>
      cases other with
      | some other => exact .inr ⟨rfl, _, rfl, other⟩
      | none => exact ⟨rfl, rfl⟩

/-- The match whose start is the earliest is found, that of the first pattern where both start at the
same place. -/
theorem searchAmong_before (firstCounted : first.Counted) (secondCounted : second.Counted)
    (text : Text) (origin count position : Nat) :
    match (first.before second).searchAmong (first.groups + second.groups) text origin count
      position with
    | none => first.searchAmong text origin count position = none ∧
        second.searchAmong text origin count position = none
    | some (start, placed) =>
        (∃ alone, first.searchAmong text origin count position = some (start, alone) ∧
          first.Behind 0 alone placed ∧ ∀ other progress,
            second.searchAmong text origin count position = some (other, progress) →
              start ≤ other) ∨
        (∃ alone, second.searchAmong text origin count position = some (start, alone) ∧
          second.Behind first.groups alone placed ∧ ∀ other progress,
            first.searchAmong text origin count position = some (other, progress) →
              start < other) := by
  induction count generalizing position with
  | zero => exact ⟨rfl, rfl⟩
  | succ count ih =>
      have here := matchFrom_before firstCounted secondCounted text origin position
      have later := ih (position + 1)
      rw [Plan.searchAmong]
      generalize (first.before second).matchFrom _ _ _ _ = placed at here ⊢
      cases placed with
      | some placed =>
          rcases here with ⟨alone, found, behind⟩ | ⟨unmatched, alone, found, behind⟩
          · refine .inl ⟨alone, by rw [searchAmong_succ, found], behind, ?_⟩
            intro other progress tried
            exact searchAmong_le tried
          · refine .inr ⟨alone, by rw [searchAmong_succ, found], behind, ?_⟩
            intro other progress tried
            rw [searchAmong_succ, unmatched] at tried
            exact searchAmong_le tried
      | none =>
          have firstOn : first.searchAmong text origin (count + 1) position =
              first.searchAmong text origin count (position + 1) := by
            rw [searchAmong_succ, here.1]
          have secondOn : second.searchAmong text origin (count + 1) position =
              second.searchAmong text origin count (position + 1) := by
            rw [searchAmong_succ, here.2]
          rw [firstOn, secondOn]
          exact later

theorem capturesOf_behind {member : Member} {offset : Nat} {alone placed : Progress}
    (behind : member.Behind offset alone placed) (start : Nat) :
    Captures.Placed offset (capturesOf start alone) (capturesOf start placed) where
  whole := by
    have size := behind.size
    have room := behind.room
    rw [captures_zero (by omega), captures_zero (by omega), Progress.startFrom, Progress.startFrom,
      behind.kept, behind.position]
  inner group positive := by
    rw [captures_pos positive, captures_pos (Nat.add_pos_left positive offset), behind.span?]
  before group positive bound := by
    rw [captures_pos positive]
    rcases Nat.lt_or_eq_of_le bound with earlier | rfl
    · exact behind.before group earlier
    · rw [← behind.unset, ← behind.span?, Nat.zero_add]

end Member

/-- A pattern that matches where one of two others does. What it finds is what one of them finds alone,
the first one if both matches start at the same place, and it remembers the groups of the second one
behind those of the first. -/
structure Regex.Unites (joined first second : Regex) : Prop where
  groups : joined.groups = first.groups + second.groups
  matchAt : ∀ text position, joined.matchAt text position =
    (first.matchAt text position).or (second.matchAt text position)
  unmatched : ∀ text position, joined.search text position = none →
    first.search text position = none ∧ second.search text position = none
  matched : ∀ text position captures, joined.search text position = some captures →
    (∃ alone span, first.search text position = some alone ∧ alone[0]? = some (some span) ∧
      Captures.Placed 0 alone captures ∧
      ∀ other, second.find? text position = some other → span.start ≤ other.start) ∨
    (∃ alone span, second.search text position = some alone ∧ alone[0]? = some (some span) ∧
      Captures.Placed first.groups alone captures ∧
      ∀ other, first.find? text position = some other → span.start < other.start)

theorem Member.unites {first second : Member} (firstCounted : first.Counted)
    (secondCounted : second.Counted) (source : String) :
    ((first.before second).regex (first.groups + second.groups) source).Unites first.regex
      second.regex := by
  have spans : ∀ {member : Member} {text : Text} {position count start : Nat} {alone : Progress},
      member.Counted → member.searchAmong text position count position = some (start, alone) →
        (capturesOf start alone)[0]? = some (some ⟨start, alone.position⟩) := by
    intro member text position count start alone counted searched
    have matched := matchFrom_of_searchAmong searched
    rw [captures_zero (size_pos counted.toSound matched), startFrom_eq counted.toSound matched]
  constructor
  case groups => rfl
  case matchAt =>
    intro text position
    have matched := matchFrom_before firstCounted secondCounted text position position
    simp only [regex, Plan.regex]
    change _ = ((first.matchFrom text position position).map _).or
      ((second.matchFrom text position position).map _)
    generalize (first.before second).matchFrom _ _ _ _ = placed at matched ⊢
    cases placed with
    | none =>
        rw [matched.1, matched.2]
        rfl
    | some placed =>
        rcases matched with ⟨alone, found, behind⟩ | ⟨unmatched, alone, found, behind⟩
        · rw [found, Option.map_some, Option.map_some, behind.position]
          rfl
        · rw [unmatched, found, Option.map_some, Option.map_some, behind.position]
          rfl
  case unmatched =>
    intro text position none_
    have searched := searchAmong_before firstCounted secondCounted text position
      (text.size + 1 - position) position
    simp only [Plan.regex, Plan.searchFrom, Option.map_eq_none_iff] at none_
    rw [none_] at searched
    rw [search_eq, search_eq, searched.1, searched.2]
    exact ⟨rfl, rfl⟩
  case matched =>
    intro text position captures found
    have searched := searchAmong_before firstCounted secondCounted text position
      (text.size + 1 - position) position
    obtain ⟨⟨start, placed⟩, tried, rfl⟩ := Option.map_eq_some_iff.mp found
    rw [Plan.searchFrom] at tried
    rw [tried] at searched
    rcases searched with ⟨alone, own, behind, earlier⟩ | ⟨alone, own, behind, earlier⟩
    · refine .inl ⟨capturesOf start alone, _, ?_, spans firstCounted own,
        capturesOf_behind behind start, ?_⟩
      · rw [search_eq, own]
        rfl
      · intro other found
        obtain ⟨progress, tried⟩ := searchAmong_of_find? secondCounted.toSound found
        exact earlier _ _ tried
    · refine .inr ⟨capturesOf start alone, _, ?_, spans secondCounted own,
        capturesOf_behind behind start, ?_⟩
      · rw [search_eq, own]
        rfl
      · intro other found
        obtain ⟨progress, tried⟩ := searchAmong_of_find? firstCounted.toSound found
        exact earlier _ _ tried

/-! ### Sources with a bar between them -/

theorem Plan.regex_congr {plan other : Plan}
    (alike : ∀ sight, other.matchThen sight = plan.matchThen sight) (groups : Nat)
    (source : String) : other.regex groups source = plan.regex groups source := by
  have matches_ : ∀ text origin position,
      other.matchFrom groups text origin position = plan.matchFrom groups text origin position := by
    intro text origin position
    rw [matchFrom, alike]
    rfl
  have searches : ∀ text origin count position,
      other.searchAmong groups text origin count position =
        plan.searchAmong groups text origin count position := by
    intro text origin count position
    induction count generalizing position with
    | zero => rfl
    | succ count ih => rw [searchAmong, searchAmong, matches_, ih]
  unfold Plan.regex
  simp only [matches_, searchFrom, searches]

/-- Whether two sources with a bar between them are read as the choice between the two, the groups of
the second one numbered behind those of the first. -/
def joinsAsChoice (options : Options) (first second : String) : Bool :=
  match parse options first.toList, parse options second.toList,
    parse options (first ++ "|" ++ second).toList with
  | .ok one, .ok other, .ok whole =>
    one.node.keepsTo one.groups && other.node.keepsTo other.groups &&
      whole.groups == one.groups + other.groups &&
      whole.node.choices == (Node.either one.node (other.node.raisedBy one.groups)).choices
  | _, _, _ => false

theorem exists_of_joinsAsChoice {options : Options} {first second : String}
    (joins : joinsAsChoice options first second = true) :
    ∃ one other whole, parse options first.toList = .ok one ∧
      parse options second.toList = .ok other ∧
      parse options (first ++ "|" ++ second).toList = .ok whole ∧
      one.node.keepsTo one.groups = true ∧ other.node.keepsTo other.groups = true ∧
      whole.groups = one.groups + other.groups ∧
      whole.node.choices = (Node.either one.node (other.node.raisedBy one.groups)).choices := by
  unfold joinsAsChoice at joins
  split at joins
  · rename_i one other whole firstRead secondRead wholeRead
    simp only [Bool.and_eq_true, beq_iff_eq] at joins
    obtain ⟨⟨⟨firstKeeps, secondKeeps⟩, groups⟩, choices⟩ := joins
    exact ⟨one, other, whole, firstRead, secondRead, wholeRead, firstKeeps, secondKeeps, groups,
      choices⟩
  · cases joins

theorem Member.counted_of_keepsTo {member : Member} {node : Node} {planning : Planning}
    (keeps : node.keepsTo member.groups = true) (planned : node.plan planning = .ok member.plan) :
    member.Counted := by
  have written : ∀ mark ∈ member.plan.marks,
      ∃ group, mark = some group ∧ 0 < group ∧ group ≤ member.groups :=
    fun mark among => Node.exists_of_keepsTo keeps mark (Node.marks_plan planned among)
  refine ⟨⟨?groups, ?unkept⟩, ?positive⟩
  case groups =>
    intro group among
    obtain ⟨_, same, _, bound⟩ := written _ among
    cases same
    exact bound
  case unkept =>
    intro among
    obtain ⟨_, impossible, _⟩ := written _ among
    cases impossible
  case positive =>
    intro among
    obtain ⟨_, same, positive, _⟩ := written _ among
    cases same
    exact Nat.lt_irrefl 0 positive

/-- A choice between two trees, the groups of the second one behind those of the first, has the plan
that is tried as the first one alone and then as the second one alone. -/
theorem Node.plan_either {one other : Node} {groups more : Nat} {first second : Plan}
    (oneKeeps : one.keepsTo groups = true) (otherKeeps : other.keepsTo more = true)
    (firstPlanned : one.plan { references := one.references } = .ok first)
    (secondPlanned : other.plan { references := other.references } = .ok second) :
    (Node.either one (other.raisedBy groups)).plan
        { references := (Node.either one (other.raisedBy groups)).references } =
      .ok (.either first (second.raisedBy groups)) := by
  have apart : ∀ number ∈ (other.raisedBy groups).references, groups < number := by
    intro number refers
    rw [references_raisedBy] at refers
    obtain ⟨group, among, rfl⟩ := List.mem_map.mp refers
    have positive := (references_of_keepsTo otherKeeps group among).1
    omega
  have left := @plan_of_keepsTo _ _ oneKeeps 0
    (Node.either one (other.raisedBy groups)).references _ firstPlanned
  have right := @plan_of_keepsTo _ _ otherKeeps groups
    (Node.either one (other.raisedBy groups)).references _ secondPlanned
  rw [Node.raisedBy_zero, Plan.raisedBy_zero] at left
  refine bind_eq_ok.mpr ⟨_, left ?_, bind_eq_ok.mpr ⟨_, right ?_, rfl⟩⟩
  · intro group positive bound
    have none_ : (other.raisedBy groups).references.count group = 0 := by
      apply List.count_eq_zero_of_not_mem
      intro refers
      exact absurd (apart group refers) (Nat.not_lt.mpr bound)
    rw [references, List.count_append, Nat.add_zero, none_, Nat.add_zero]
  · intro group positive bound
    have none_ : one.references.count (group + groups) = 0 := by
      apply List.count_eq_zero_of_not_mem
      intro refers
      have within := (references_of_keepsTo oneKeeps _ refers).2
      omega
    rw [references, List.count_append, none_, Nat.zero_add, references_raisedBy]
    exact List.count_map_of_injective _ (· + groups) (fun _ _ => Nat.add_right_cancel) group

/-- Two sources that join as a choice between them are compiled with a bar between them, and the whole
unites them. -/
theorem engine_unites {flags : Flags} {own inherited : String} {first second : Regex}
    (firstAccepted : engine flags own = .ok first)
    (secondAccepted : engine flags inherited = .ok second)
    (joins : joinsAsChoice { ignoreCase := flags.ignoreCase } own inherited = true) :
    ∃ joined, engine flags (own ++ "|" ++ inherited) = .ok joined ∧ joined.Unites first second := by
  obtain ⟨one, other, whole, firstRead, secondRead, wholeRead, firstKeeps, secondKeeps, groups,
    choices⟩ := exists_of_joinsAsChoice joins
  obtain ⟨_, firstPlan, same, firstPlanned, rfl⟩ := engine_eq_ok.mp firstAccepted
  cases firstRead.symm.trans same
  obtain ⟨_, secondPlan, same, secondPlanned, rfl⟩ := engine_eq_ok.mp secondAccepted
  cases secondRead.symm.trans same
  replace firstPlanned := (Parsed.plan_eq_ok.mp firstPlanned).2
  replace secondPlanned := (Parsed.plan_eq_ok.mp secondPlanned).2
  have references : whole.node.references =
      (Node.either one.node (other.node.raisedBy one.groups)).references := by
    rw [← Node.references_choices, choices, Node.references_choices]
  have planned := Node.plan_either firstKeeps secondKeeps firstPlanned secondPlanned
  rw [← references] at planned
  obtain ⟨plan, wholePlanned, alike⟩ := Node.plan_of_choices choices planned
  have there : ∀ group ∈ whole.node.references, group ≤ whole.groups := by
    intro number refers
    rw [references, Node.references, Node.references_raisedBy] at refers
    rw [groups]
    rcases List.mem_append.mp refers with early | late
    · exact Nat.le_add_right_of_le (Node.references_of_keepsTo firstKeeps number early).2
    · obtain ⟨group, among, rfl⟩ := List.mem_map.mp late
      have bound := (Node.references_of_keepsTo secondKeeps group among).2
      omega
  refine ⟨plan.regex whole.groups (own ++ "|" ++ inherited), engine_eq_ok.mpr
    ⟨whole, plan, wholeRead, Parsed.plan_eq_ok.mpr ⟨there, wholePlanned⟩, rfl⟩, ?_⟩
  rw [Plan.regex_congr alike, groups]
  exact @Member.unites { rule := .ends, source := own, plan := firstPlan, groups := one.groups }
    { rule := .ends, source := inherited, plan := secondPlan, groups := other.groups }
    (Member.counted_of_keepsTo firstKeeps firstPlanned)
    (Member.counted_of_keepsTo secondKeeps secondPlanned) (own ++ "|" ++ inherited)

end Highlight.Pattern
