import Highlight.Pattern.RuleSet
import Highlight.Proofs.Pattern.Matching

set_option autoImplicit false

/-! A set of patterns looked for as one. Each pattern is a group of its own in a choice between them, with
its own groups behind that group; the choice finds what the first of the patterns that match earliest
finds alone, and the group that took part tells which one that is. -/

namespace Highlight.Pattern

open Outcome

/-! ### Sources and their plans -/

theorem Parsed.plan_eq_ok {parsed : Parsed} {plan : Plan} :
    parsed.plan = .ok plan ↔ (∀ group ∈ parsed.node.references, group ≤ parsed.groups) ∧
      parsed.node.plan { references := parsed.node.references } = .ok plan := by
  have there : ¬ parsed.node.references.any (parsed.groups < ·) = true ↔
      ∀ group ∈ parsed.node.references, group ≤ parsed.groups := by
    simp
  rw [← there, Parsed.plan]
  by_cases missing : parsed.node.references.any (parsed.groups < ·) = true
  · simp [missing]
  · simp [missing]

theorem engine_eq_ok {flags : Flags} {source : String} {regex : Regex} :
    engine flags source = .ok regex ↔ ∃ parsed plan,
      parse { ignoreCase := flags.ignoreCase } source.toList = .ok parsed ∧
        parsed.plan = .ok plan ∧ plan.regex parsed.groups source = regex := by
  constructor
  · intro compiled
    obtain ⟨parsed, read, compiled⟩ := bind_eq_ok.mp compiled
    obtain ⟨plan, planned, compiled⟩ := bind_eq_ok.mp compiled
    exact ⟨parsed, plan, read, planned, pure_eq_ok.mp compiled⟩
  · rintro ⟨parsed, plan, read, planned, rfl⟩
    exact bind_eq_ok.mpr ⟨parsed, read, bind_eq_ok.mpr ⟨plan, planned, rfl⟩⟩

/-! ### Choices -/

namespace Plan

def ofAlternatives : List Plan → Plan
  | [] => done
  | [plan] => plan
  | plan :: rest => either plan (ofAlternatives rest)

theorem matchThen_ofAlternatives (sight : Sight) (next : Continuation) (progress : Progress)
    (first : Plan) (others : List Plan) :
    (ofAlternatives (first :: others)).matchThen sight next progress =
      (first :: others).findSome? fun plan => plan.matchThen sight next progress := by
  induction others generalizing first with
  | nil =>
      simp only [ofAlternatives, List.findSome?_cons, List.findSome?_nil]
      cases first.matchThen sight next progress <;> rfl
  | cons second others ih =>
      simp only [ofAlternatives, matchThen, List.findSome?_cons] at ih ⊢
      rw [ih]
      cases first.matchThen sight next progress <;> rfl

end Plan

theorem Node.plan_ofAlternatives {planning : Planning} {nodes : List Node} {plans : List Plan}
    (planned : List.Forall₂ (fun node plan => node.plan planning = .ok plan) nodes plans) :
    (Node.ofAlternatives nodes).plan planning = .ok (Plan.ofAlternatives plans) := by
  induction planned with
  | nil => rfl
  | cons first others ih =>
      cases others with
      | nil => exact first
      | cons second others =>
          simp only [Node.ofAlternatives, Plan.ofAlternatives, Node.plan] at ih ⊢
          rw [first, ok_bind, ih]
          rfl

structure Member where
  rule : Rule
  source : String
  plan : Plan
  groups : Nat

namespace Member

def regex (member : Member) : Regex :=
  member.plan.regex member.groups member.source

def item (member : Member) : Rule × Regex :=
  (member.rule, member.regex)

/-- How many groups the patterns take up when each of them has a group of its own. -/
def room (members : List Member) : Nat :=
  members.foldr (fun member others => member.groups + 1 + others) 0

@[simp] theorem room_nil : room [] = 0 := rfl

@[simp] theorem room_cons (member : Member) (others : List Member) :
    room (member :: others) = member.groups + 1 + room others := by
  simp [room]

/-- The groups of the patterns with `seen` groups before them, and their plans in these groups. -/
def branches : Nat → List Member → List Plan
  | _, [] => []
  | seen, member :: others =>
    .group (seen + 1) (member.plan.raisedBy (seen + 1))
      :: branches (seen + 1 + member.groups) others

/-- The rule, the group and the number of groups of each pattern, with `seen` groups before them. -/
def layout : Nat → List Member → List (Rule × Nat × Nat)
  | _, [] => []
  | seen, member :: others =>
    (member.rule, seen + 1, member.groups) :: layout (seen + 1 + member.groups) others

/-- The groups that the plan marks are those of the pattern, and it does not move the start. -/
structure Sound (member : Member) : Prop where
  groups : ∀ group, some group ∈ member.plan.marks → group ≤ member.groups
  unkept : none ∉ member.plan.marks

def matchFrom (member : Member) (text : Text) (origin position : Nat) : Option Progress :=
  member.plan.matchFrom member.groups text origin position

/-- What the choice finds if one of the patterns matches: of the spans before those of the pattern
there are none, that of its group is there and those of its own groups are as they are alone. -/
structure Won (wrapper groups : Nat) (alone placed : Progress) : Prop where
  position : placed.position = alone.position
  kept : placed.kept = alone.kept
  size : alone.groups.size = groups + 1
  room : wrapper + groups < placed.groups.size
  before : ∀ group < wrapper, placed.span? group = none
  whole : (placed.span? wrapper).isSome
  inner : ∀ group, 0 < group → placed.span? (group + wrapper) = alone.span? group

theorem span?_replicate (position size group : Nat) :
    ({ position, groups := Array.replicate size none } : Progress).span? group = none := by
  simp only [Progress.span?, Array.getElem?_replicate]
  split <;> rfl

theorem placed_start {wrapper groups total : Nat} (room : wrapper + groups ≤ total)
    (position : Nat) :
    Progress.Placed wrapper groups { position, groups := Array.replicate (groups + 1) none }
      (Progress.reopen { position, groups := Array.replicate (total + 1) none } wrapper) := by
  have inside : wrapper <
      ({ position, groups := Array.replicate (total + 1) none } : Progress).groups.size := by
    simp only [Array.size_replicate]
    omega
  have nothing : ∀ group, (Progress.reopen
      { position, groups := Array.replicate (total + 1) none } wrapper).span? group = none := by
    intro group
    unfold Progress.reopen
    rw [Progress.span?_setIfInBounds _ _ _ _ inside, span?_replicate]
    split <;> rfl
  constructor
  · rfl
  · rfl
  · intro group
    rw [nothing, span?_replicate]
  · exact fun group _ => nothing group
  · exact Array.size_replicate
  · rw [Progress.reopen, Array.size_setIfInBounds, Array.size_replicate]
    omega

theorem won_remember {wrapper groups start : Nat} {alone placed : Progress}
    (agree : Progress.Placed wrapper groups alone placed) :
    Won wrapper groups alone (placed.remember wrapper ⟨start, placed.position⟩) := by
  have inside : wrapper < placed.groups.size := by
    have room := agree.room
    omega
  unfold Progress.remember
  constructor
  · exact agree.position
  · exact agree.kept
  · exact agree.size
  · rw [Array.size_setIfInBounds]
    exact agree.room
  · intro group earlier
    rw [Progress.span?_setIfInBounds _ _ _ _ inside, if_neg (by omega), agree.before group earlier]
  · rw [Progress.span?_setIfInBounds _ _ _ _ inside, if_pos rfl]
    rfl
  · intro group positive
    rw [Progress.span?_setIfInBounds _ _ _ _ inside, if_neg (by omega), agree.span? group]

theorem won_of_matchFrom {member : Member} (sound : member.Sound) {total wrapper : Nat}
    (room : wrapper + member.groups ≤ total) (text : Text) (origin position : Nat) :
    Option.Rel (Won wrapper member.groups) (member.matchFrom text origin position)
      ((Plan.group wrapper (member.plan.raisedBy wrapper)).matchFrom total text origin position) :=
  member.plan.matchThen_placed sound.groups (fun _ _ agree => .some (won_remember agree))
    (placed_start room position)

/-- The first of the patterns that match at a position: none before it matches there, and the choice
finds what it finds. -/
structure First (members : List Member) (seen : Nat) (text : Text) (origin position : Nat)
    (placed : Progress) (before : List Member) (member : Member) (alone : Progress) : Prop where
  among : ∃ behind, members = before ++ member :: behind
  unmatched : ∀ other ∈ before, other.matchFrom text origin position = none
  found : member.matchFrom text origin position = some alone
  won : Won (seen + room before + 1) member.groups alone placed

section

variable {members before : List Member} {seen origin position : Nat} {text : Text}
  {placed alone : Progress} {member : Member}

theorem First.mem (first : First members seen text origin position placed before member alone) :
    member ∈ members := by
  obtain ⟨behind, among⟩ := first.among
  rw [among]
  exact List.mem_append_right _ List.mem_cons_self

theorem First.mem_of_before
    (first : First members seen text origin position placed before member alone) {other : Member}
    (earlier : other ∈ before) : other ∈ members := by
  obtain ⟨behind, among⟩ := first.among
  rw [among]
  exact List.mem_append_left _ earlier

end

theorem First.cons {members before : List Member} {seen origin position : Nat} {text : Text}
    {placed alone : Progress} {member other : Member}
    (first : First members (seen + 1 + other.groups) text origin position placed before member alone)
    (unmatched : other.matchFrom text origin position = none) :
    First (other :: members) seen text origin position placed (other :: before) member alone := by
  obtain ⟨behind, among⟩ := first.among
  have wrapper : seen + 1 + other.groups + room before + 1 = seen + room (other :: before) + 1 := by
    rw [room_cons]
    omega
  constructor
  · exact ⟨behind, congrArg (other :: ·) among⟩
  · intro another member
    rcases List.mem_cons.mp member with rfl | later
    · exact unmatched
    · exact first.unmatched another later
  · exact first.found
  · rw [← wrapper]
    exact first.won

theorem findSome?_branches {members : List Member} (sound : ∀ member ∈ members, member.Sound)
    {seen total : Nat} (fits : seen + room members ≤ total) (text : Text) (origin position : Nat) :
    match (branches seen members).findSome? fun plan =>
        plan.matchFrom total text origin position with
    | none => ∀ member ∈ members, member.matchFrom text origin position = none
    | some placed => ∃ before member alone,
        First members seen text origin position placed before member alone := by
  induction members generalizing seen with
  | nil => exact fun member impossible => absurd impossible List.not_mem_nil
  | cons member others ih =>
      rw [room_cons] at fits
      have room : seen + 1 + member.groups ≤ total := by omega
      have here := won_of_matchFrom (sound member List.mem_cons_self) room text origin position
      have later := @ih (fun other inside => sound other (List.mem_cons_of_mem _ inside))
        (seen + 1 + member.groups) (by omega)
      simp only [branches, List.findSome?_cons]
      generalize Plan.matchFrom _ total _ _ _ = placed at here ⊢
      generalize matched : member.matchFrom text origin position = alone at here
      cases here with
      | some won => exact ⟨[], member, _, ⟨others, rfl⟩, List.forall_mem_nil _, matched, won⟩
      | none =>
          dsimp only
          split
          · rename_i none
            rw [none] at later
            exact List.forall_mem_cons.mpr ⟨matched, later⟩
          · rename_i placed some
            rw [some] at later
            obtain ⟨before, winner, alone, first⟩ := later
            exact ⟨member :: before, winner, alone, first.cons matched⟩

def choice (members : List Member) : Plan :=
  .ofAlternatives (branches 0 members)

theorem choice_matchFrom {members : List Member} (sound : ∀ member ∈ members, member.Sound)
    (some_ : members ≠ []) (text : Text) (origin position : Nat) :
    match (choice members).matchFrom (room members) text origin position with
    | none => ∀ member ∈ members, member.matchFrom text origin position = none
    | some placed => ∃ before member alone,
        First members 0 text origin position placed before member alone := by
  cases members with
  | nil => exact absurd rfl some_
  | cons member others =>
      have branches := findSome?_branches sound (Nat.le_of_eq (Nat.zero_add _)) text origin position
      rw [choice, Member.branches, Plan.matchFrom, Plan.matchThen_ofAlternatives]
      exact branches

def searchAmong (member : Member) (text : Text) (origin count position : Nat) :
    Option (Nat × Progress) :=
  member.plan.searchAmong member.groups text origin count position

theorem searchAmong_succ (member : Member) (text : Text) (origin count position : Nat) :
    member.searchAmong text origin (count + 1) position =
      match member.matchFrom text origin position with
      | some progress => some (position, progress)
      | none => member.searchAmong text origin count (position + 1) := rfl

theorem searchAmong_le {member : Member} {text : Text} {origin count position start : Nat}
    {progress : Progress}
    (found : member.searchAmong text origin count position = some (start, progress)) :
    position ≤ start := by
  induction count generalizing position with
  | zero => cases found
  | succ count ih =>
      rw [searchAmong_succ] at found
      split at found
      · cases found
        exact Nat.le_refl _
      · exact Nat.le_of_succ_le (ih found)

theorem matchFrom_of_searchAmong {member : Member} {text : Text}
    {origin count position start : Nat} {progress : Progress}
    (found : member.searchAmong text origin count position = some (start, progress)) :
    member.matchFrom text origin start = some progress := by
  induction count generalizing position with
  | zero => cases found
  | succ count ih =>
      rw [searchAmong_succ] at found
      split at found
      · cases found
        assumption
      · exact ih found

/-- The first of the patterns whose matches start the earliest: none of the others has a match that
starts before its own, nor one before it a match that starts at the same place. -/
structure Earliest (members : List Member) (text : Text) (origin count position start : Nat)
    (placed : Progress) (before : List Member) (member : Member) (alone : Progress) : Prop where
  first : First members 0 text origin start placed before member alone
  found : member.searchAmong text origin count position = some (start, alone)
  later : ∀ other ∈ members, ∀ otherStart progress,
    other.searchAmong text origin count position = some (otherStart, progress) → start ≤ otherStart
  behind : ∀ other ∈ before, ∀ otherStart progress,
    other.searchAmong text origin count position = some (otherStart, progress) → start < otherStart

/-- The choice finds what the first of the patterns whose matches start the earliest finds. -/
theorem choice_searchAmong {members : List Member} (sound : ∀ member ∈ members, member.Sound)
    (some_ : members ≠ []) (text : Text) (origin count position : Nat) :
    match (choice members).searchAmong (room members) text origin count position with
    | none => ∀ member ∈ members, member.searchAmong text origin count position = none
    | some (start, placed) => ∃ before member alone,
        Earliest members text origin count position start placed before member alone := by
  induction count generalizing position with
  | zero => exact fun _ _ => rfl
  | succ count ih =>
      have here := choice_matchFrom sound some_ text origin position
      have later := ih (position + 1)
      rw [Plan.searchAmong]
      generalize (choice members).matchFrom _ _ _ _ = placed at here ⊢
      cases placed with
      | some placed =>
          obtain ⟨before, member, alone, first⟩ := here
          refine ⟨before, member, alone, first, ?_, ?_, ?_⟩
          · rw [searchAmong_succ, first.found]
          · intro other _ start progress found
            exact searchAmong_le found
          · intro other earlier start progress found
            rw [searchAmong_succ, first.unmatched other earlier] at found
            exact searchAmong_le found
      | none =>
          have step : ∀ member ∈ members, member.searchAmong text origin (count + 1) position =
              member.searchAmong text origin count (position + 1) := by
            intro member inside
            rw [searchAmong_succ, here member inside]
          dsimp only
          generalize (choice members).searchAmong _ _ _ _ _ = found at later ⊢
          cases found with
          | none =>
              intro member inside
              rw [step member inside]
              exact later member inside
          | some found =>
              obtain ⟨before, member, alone, earliest⟩ := later
              refine ⟨before, member, alone, earliest.first, ?_, ?_, ?_⟩
              · rw [step member earliest.first.mem]
                exact earliest.found
              · intro other inside start progress found
                rw [step other inside] at found
                exact earliest.later other inside start progress found
              · intro other earlier start progress found
                rw [step other (earliest.first.mem_of_before earlier)] at found
                exact earliest.behind other earlier start progress found

def capturesOf (start : Nat) (progress : Progress) : Captures :=
  progress.groups.setIfInBounds 0 (some ⟨progress.startFrom start, progress.position⟩)

theorem captures_zero {start : Nat} {progress : Progress} (some_ : 0 < progress.groups.size) :
    (capturesOf start progress)[0]? = some (some ⟨progress.startFrom start, progress.position⟩) := by
  rw [capturesOf, Array.getElem?_setIfInBounds, if_pos rfl, if_pos some_]

theorem captures_pos {start group : Nat} {progress : Progress} (positive : 0 < group) :
    (capturesOf start progress)[group]?.join = progress.span? group := by
  rw [capturesOf, Array.getElem?_setIfInBounds, if_neg (by omega)]
  rfl

theorem startFrom_eq {member : Member} (sound : member.Sound) {text : Text}
    {origin position : Nat} {progress : Progress}
    (found : member.matchFrom text origin position = some progress) :
    progress.startFrom position = position := by
  obtain ⟨after, advances, last⟩ :=
    member.plan.matchThen_reachesNext (Progress.Advances.carries sound.unkept) _ found
  cases last
  have kept := advances.kept
  have further := advances.position
  rw [Progress.startFrom, kept]
  exact Nat.min_eq_left further

theorem size_pos {member : Member} (sound : member.Sound) {text : Text} {origin position : Nat}
    {progress : Progress} (found : member.matchFrom text origin position = some progress) :
    0 < progress.groups.size := by
  have placed := won_of_matchFrom sound (Nat.le_refl (0 + member.groups)) text origin position
  rw [found] at placed
  generalize Plan.matchFrom _ _ _ _ _ = other at placed
  cases placed with
  | some won =>
      have size := won.size
      omega

/-- The groups of the pattern that matched are those behind its own group, as they are alone. -/
theorem Won.captures {wrapper groups start : Nat} {alone placed : Progress}
    (won : Won wrapper groups alone placed) :
    (some ⟨placed.startFrom start, placed.position⟩ :: (List.range groups).map fun group =>
      (capturesOf start placed)[wrapper + 1 + group]?.join).toArray = capturesOf start alone := by
  have size := won.size
  apply Array.ext_getElem?
  intro index
  cases index with
  | zero =>
      rw [captures_zero (by omega), Progress.startFrom, Progress.startFrom, won.kept, won.position]
      rfl
  | succ group =>
      rw [List.getElem?_toArray, List.getElem?_cons_succ, List.getElem?_map]
      by_cases inside : group < groups
      · rw [List.getElem?_range inside, Option.map_some, captures_pos (by omega)]
        have inner := won.inner (group + 1) (by omega)
        rw [show wrapper + 1 + group = group + 1 + wrapper by omega, inner, ← captures_pos (by omega)]
        have bound : group + 1 < (capturesOf start alone).size := by
          rw [capturesOf, Array.size_setIfInBounds]
          omega
        rw [Array.getElem?_eq_getElem bound]
        rfl
      · rw [List.getElem?_eq_none (by simpa using inside), Option.map_none, eq_comm]
        apply Array.getElem?_eq_none
        rw [capturesOf, Array.size_setIfInBounds]
        omega

/-- The pattern is picked whose group took part, as no other group took part before it. -/
theorem find?_layout {seen : Nat} {before behind : List Member} {member : Member}
    {took : Nat → Bool} (wrapper : took (seen + room before + 1) = true)
    (others : ∀ group, 0 < group → group < seen + room before + 1 → took group = false) :
    (layout seen (before ++ member :: behind)).find? (fun entry => took entry.2.1) =
      some (member.rule, seen + room before + 1, member.groups) := by
  induction before generalizing seen with
  | nil =>
      simp only [List.nil_append, layout, room_nil, Nat.add_zero] at wrapper ⊢
      rw [List.find?_cons_of_pos]
      exact wrapper
  | cons other before ih =>
      have shift : seen + 1 + other.groups + room before + 1 = seen + room (other :: before) + 1 := by
        rw [room_cons]
        omega
      rw [← shift] at wrapper others ⊢
      have unmatched := others (seen + 1) (by omega) (by omega)
      simp only [List.cons_append, layout]
      rw [List.find?_cons_of_neg]
      · exact ih wrapper others
      · simp only [unmatched, Bool.false_eq_true, not_false_eq_true]

theorem search_eq (member : Member) (text : Text) (position : Nat) :
    member.regex.search text position =
      (member.searchAmong text position (text.size + 1 - position) position).map fun found =>
        capturesOf found.1 found.2 := rfl

/-- Where a search alone has found a match, its span starts where the match does. -/
theorem searchAmong_of_find? {member : Member} (sound : member.Sound) {text : Text}
    {position : Nat} {span : Span} (found : member.regex.find? text position = some span) :
    ∃ progress, member.searchAmong text position (text.size + 1 - position) position =
      some (span.start, progress) := by
  rw [Regex.find?, search_eq] at found
  obtain ⟨captures, searched, found⟩ := Option.bind_eq_some_iff.mp found
  obtain ⟨⟨start, progress⟩, tried, same⟩ := Option.map_eq_some_iff.mp searched
  subst same
  have matched := matchFrom_of_searchAmong tried
  rw [captures_zero (size_pos sound matched), startFrom_eq sound matched] at found
  cases found
  exact ⟨progress, tried⟩

end Member

/-- What a set finds at the earliest: the match of one of its patterns alone, where no pattern alone has
a match that starts earlier and none before it in the set has one that starts at the same place. -/
structure RuleMatch.IsFirst (found : RuleMatch) (alone : List (Rule × Regex)) (text : Text)
    (position : Nat) : Prop where
  own : ∃ before regex behind, alone = before ++ (found.rule, regex) :: behind ∧
    regex.search text position = some found.captures ∧
    ∀ item ∈ before, ∀ span, item.2.find? text position = some span → found.start < span.start
  whole : found.captures[0]? = some (some ⟨found.start, found.stop⟩)
  after : position ≤ found.start
  least : ∀ item ∈ alone, ∀ span, item.2.find? text position = some span →
    found.start ≤ span.start

namespace RuleSet

/-- A set that finds what its patterns find alone. -/
def FindsAsAlone (set : RuleSet) (alone : List (Rule × Regex)) : Prop :=
  ∀ text position,
    match set.find? text position with
    | none => ∀ item ∈ alone, item.2.search text position = none
    | some found => found.IsFirst alone text position

variable {set : RuleSet} {members : List Member}

/-- The match of the choice is handed out as that of the pattern alone. -/
theorem resolve?_won
    (layout : set.rules.zip (set.composition.wrappers.zip set.composition.groupCounts) =
      Member.layout 0 members)
    {before behind : List Member} {member : Member} (among : members = before ++ member :: behind)
    {start : Nat} {alone placed : Progress}
    (won : Member.Won (0 + Member.room before + 1) member.groups alone placed) :
    set.resolve? (Member.capturesOf start placed) = some {
      rule := member.rule
      start := alone.startFrom start
      stop := alone.position
      captures := Member.capturesOf start alone } := by
  have room := won.room
  have whole : ((Member.capturesOf start placed)[0]?.join) =
      some ⟨placed.startFrom start, placed.position⟩ := by
    rw [Member.captures_zero (by omega)]
    rfl
  have took : (((Member.capturesOf start placed)[0 + Member.room before + 1]?.join).isSome) = true := by
    rw [Member.captures_pos (by omega)]
    exact won.whole
  have others : ∀ group, 0 < group → group < 0 + Member.room before + 1 →
      ((Member.capturesOf start placed)[group]?.join).isSome = false := by
    intro group positive earlier
    rw [Member.captures_pos positive, won.before group earlier]
    rfl
  have picked : (Member.layout 0 members).find? (fun entry =>
      ((Member.capturesOf start placed)[entry.2.1]?.join).isSome) =
        some (member.rule, 0 + Member.room before + 1, member.groups) := by
    rw [among]
    exact Member.find?_layout took others
  unfold resolve?
  rw [whole, layout]
  have starts : placed.startFrom start = alone.startFrom start := by
    rw [Progress.startFrom, Progress.startFrom, won.kept, won.position]
  have captures := @Member.Won.captures _ _ start _ _ won
  rw [starts, won.position] at captures
  simp only [Option.bind_eq_bind, Option.bind_some, picked, Option.pure_def, starts, won.position,
    captures]

/-- A set that is compiled as the choice between its patterns finds what they find alone. -/
theorem findsAsAlone_of_choice {source : String} (sound : ∀ member ∈ members, member.Sound)
    (layout : set.rules.zip (set.composition.wrappers.zip set.composition.groupCounts) =
      Member.layout 0 members)
    (regex : set.regex = if members.isEmpty then none
      else some ((Member.choice members).regex (Member.room members) source)) :
    set.FindsAsAlone (members.map Member.item) := by
  intro text position
  by_cases empty : members = []
  · have nothing : set.find? text position = none := by
      rw [find?, regex, empty]
      rfl
    rw [nothing, empty]
    exact fun _ impossible => absurd impossible List.not_mem_nil
  have searched := Member.choice_searchAmong sound empty text position
    (text.size + 1 - position) position
  rw [if_neg (by simpa using empty)] at regex
  rw [find?, regex]
  simp only [Option.bind_eq_bind, Option.bind_some, Plan.regex, Plan.searchFrom]
  generalize (Member.choice members).searchAmong _ _ _ _ _ = found at searched ⊢
  cases found with
  | none =>
      intro item inside
      obtain ⟨member, among, rfl⟩ := List.mem_map.mp inside
      change member.regex.search text position = none
      rw [Member.search_eq, searched member among]
      rfl
  | some found =>
      obtain ⟨start, placed⟩ := found
      obtain ⟨before, member, alone, earliest⟩ := searched
      obtain ⟨behind, among⟩ := earliest.first.among
      have inside := earliest.first.mem
      have starts := Member.startFrom_eq (sound member inside) earliest.first.found
      simp only [Option.map_some, Option.bind_some]
      rw [← Member.capturesOf, resolve?_won layout among earliest.first.won]
      have searchedAgain : ∀ other ∈ members, ∀ span, other.regex.find? text position = some span →
          start ≤ span.start ∧ (other ∈ before → start < span.start) := by
        intro other inside span found
        obtain ⟨progress, tried⟩ := Member.searchAmong_of_find? (sound other inside) found
        exact ⟨earliest.later other inside _ _ tried,
          fun earlier => earliest.behind other earlier _ _ tried⟩
      constructor
      · refine ⟨before.map Member.item, member.regex, behind.map Member.item, ?_, ?_, ?_⟩
        · rw [among, List.map_append, List.map_cons]
          rfl
        · rw [Member.search_eq, earliest.found]
          rfl
        · intro item earlier span found
          obtain ⟨other, stands, rfl⟩ := List.mem_map.mp earlier
          rw [starts]
          exact (searchedAgain other (earliest.first.mem_of_before stands) span found).2 stands
      · exact Member.captures_zero
          (Member.size_pos (sound member inside) earliest.first.found)
      · rw [starts]
        exact Member.searchAmong_le earliest.found
      · intro item among span found
        obtain ⟨other, stands, rfl⟩ := List.mem_map.mp among
        rw [starts]
        exact (searchedAgain other stands span found).1

end RuleSet

end Highlight.Pattern
