import Highlight.Proofs.Pattern.Choice
import Highlight.Proofs.Pattern.Reading.Numbering

set_option autoImplicit false

/-! Reading a composition. Where the fragments fall into the tokens that they have alone, with references
raised by the number of their group, the whole is read as the choice between these groups. -/

namespace Highlight.Pattern

open Outcome

namespace Reader

theorem room_of_add {around : GroupNames} {below : List Frame} {reader next : Reader}
    {opening : Opening}
    (added : (reader.within around below).add (.opening opening) = .ok next) :
    reader.outer.length + below.length + 1 < deepestGroup := by
  have entered : ∀ {enclosure : Enclosure} {options : Options} {inner : Reader},
      (reader.within around below).enter enclosure options = .ok inner →
        reader.outer.length + below.length + 1 < deepestGroup := by
    intro enclosure options inner entered
    unfold enter at entered
    split at entered
    · cases entered
    · rename_i room
      simp only [within, List.length_append, List.length_map] at room
      omega
  have opened := ((add_eq_ok_iff rfl).mp added).2
  cases opening with
  | capture name =>
      obtain ⟨inner, opened, _⟩ := bind_eq_ok.mp opened
      exact entered opened
  | _ => exact entered opened

/-- A pattern in its place is read as it is read alone, whatever stands in the frames below. -/
theorem Reads.within {outside : Options} {around : GroupNames} {below other : List Frame}
    (same : other.length = below.length) {reader last placed : Reader}
    {input rest text beyond : List Char} {tokens : List Token}
    (alone : Reads reader input tokens last rest) (numbered : reader.Numbered outside)
    (unkept : .node .keep ∉ tokens)
    (inPlace : Reads (reader.within around below) text (tokens.map (Token.raisedBy around.count))
      placed beyond) :
    placed = last.within around below ∧
      Reads (reader.within around other) text (tokens.map (Token.raisedBy around.count))
        (last.within around other) beyond := by
  induction alone generalizing text with
  | nothing =>
      cases inPlace
      exact ⟨rfl, .nothing ..⟩
  | @next reader middle last c input after rest token tokens read added readsOn ih =>
      obtain ⟨here, later⟩ := List.ne_and_not_mem_of_not_mem_cons unkept
      rw [List.map_cons] at inPlace
      cases inPlace with
      | next readThere addedThere readsThere =>
          have room : ∀ opening, token = .opening opening →
              reader.outer.length + below.length + 1 < deepestGroup := by
            rintro opening rfl
            exact room_of_add addedThere
          have roomThere : ∀ opening, token = .opening opening →
              reader.outer.length + other.length + 1 < deepestGroup := by
            rw [same]
            exact room
          have added_ := add_within around below numbered.rooted added room
          rw [added_] at addedThere
          cases addedThere
          have unmarked : ∀ tree, token = .node tree → tree.marks = [] :=
            fun _ same => (Token.Plain.ofRead read).unmarked here same
          obtain ⟨placed, reads⟩ := ih (numbered.add unmarked added) later readsThere
          exact ⟨placed, .next readThere (add_within around other numbered.rooted added roomThere)
            reads⟩

def between (options : Options) (groups : GroupNames) (frame : Frame) : Reader where
  options := options
  groups := groups
  current := frame

/-- The parenthesis behind a pattern makes it a group. -/
theorem add_closing {options : Options} {around : GroupNames} {last : Reader} {node : Node}
    (rooted : Rooted options last.places) (finished : last.finish = .ok node) (frame : Frame) :
    (last.within around [frame]).add .closing =
      .ok (between options (last.groups.behind around)
        (frame.push (.group around.count (node.raisedBy around.count)) true)) := by
  have rested := rooted_leaveRests rooted
  obtain ⟨groups, bytes⟩ := leaveRests_keeps last
  simp only [finish] at finished
  split at finished
  · cases finished
  rename_i empty
  split at finished
  · rename_i whole
    cases finished
    have ended : last.bytes = [] := by simpa using empty
    refine (add_eq_ok_iff rfl).mpr ⟨ended, ?_⟩
    change (last.within around [frame]).closeGroup = _
    simp only [closeGroup, leaveRests_within around [frame] rooted]
    rw [← groups]
    have none : last.leaveRests.bytes = [] := bytes.trans ended
    generalize last.leaveRests = last at rested whole none ⊢
    generalize same : last.places = places at rested
    cases rested with
    | inner inner rooted =>
        rw [← (outer_of_places same rooted).1] at inner
        exact absurd whole inner
    | whole =>
        obtain ⟨_, outside, ended⟩ := ended_of_places same
        have enclosure : (last.within around [frame]).current.enclosure ≠ .whole := by
          simp only [within, Frame.within, whole, Enclosure.within]
          exact Enclosure.noConfusion
        rw [if_neg enclosure]
        have node := Frame.node_whole around.count whole
        simp only [leave, within, ended, List.map_nil, List.nil_append, none] at node ⊢
        rw [node]
        simp only [Frame.within, outside]
        rfl
  · cases finished

theorem add_opening (options : Options) (seen : GroupNames) (frame : Frame) :
    (between options seen frame).add (.opening (.capture none)) =
      .ok ((start options).within (seen.add none) [frame]) := by
  have groups : (seen.add none) = ({} : GroupNames).behind (seen.add none) := by
    simp only [GroupNames.behind, List.map_nil, List.nil_append, Nat.zero_add]
  have shallow : ¬ deepestGroup ≤ 1 := by
    unfold deepestGroup
    omega
  refine (add_eq_ok_iff rfl).mpr ⟨rfl, ?_⟩
  change (between options seen frame).openGroup (.capture none) = _
  simp only [between, openGroup, enter, List.length_nil, Nat.zero_add, if_neg shallow, ok_bind]
  simp only [within, start, ← groups]
  rfl

theorem reads_wrapped {options : Options} {seen : GroupNames} {input text : List Char}
    {tokens : List Token} {last inner : Reader} {node : Node}
    (alone : Reads (start options) input tokens last []) (finished : last.finish = .ok node)
    (unkept : .node .keep ∉ tokens) (own : Frame)
    (inPlace : Reads (between options seen own) text
      (.opening (.capture none) :: tokens.map (Token.raisedBy (seen.count + 1))) inner [')'])
    (frame : Frame) (tail : List Char) :
    inner.groups = last.groups.behind (seen.add none) ∧
      ∃ all, Reads (between options seen frame) (text ++ tail) all
        (between options inner.groups
          (frame.push (.group (seen.count + 1) (node.raisedBy (seen.count + 1))) true)) tail := by
  have numbered := Numbered.start options
  cases inPlace with
  | next read added reads =>
      rw [add_opening] at added
      cases added
      have depth : [frame].length = [own].length := rfl
      obtain ⟨rfl, readsThere⟩ := Reads.within depth alone numbered unkept reads
      have opens : Reads (between options seen frame) _ _ _ _ :=
        .next read (add_opening options seen frame) readsThere
      have rooted := (alone.numbered numbered unkept).rooted
      have closes : Reads (last.within (seen.add none) [frame]) (')' :: tail) [.closing] _ tail :=
        .next rfl (add_closing rooted finished frame) (.nothing ..)
      exact ⟨rfl, _, (opens.append List.mem_cons_self tail).trans closes⟩

end Reader

/-! ### Fragments in their places -/

def wrapped (seen : Nat) (fragment : String) : List Char :=
  '(' :: (raise (seen + 1) fragment).source ++ [')']

/-- Whether each fragment falls into the same tokens as a group of the composition as it does alone,
with references raised by the number of the group, and has no token that moves the start of a match.
The groups are those that have been seen before the fragments. It is decided by reading the fragments
alone and in their places. It does not hold where a fragment refers to a group by its name and one before
it gives a group the same name. -/
def carriesOver (options : Options) : GroupNames → List String → Bool
  | _, [] => true
  | seen, fragment :: others =>
    let text := wrapped seen.count fragment
    let alone := (Reader.start options).tokensUpTo [] fragment.toList.length fragment.toList
    let inPlace := { Reader.start options with groups := seen }.tokensUpTo [')'] text.length text
    match alone, inPlace with
    | .ok (tokens, _), .ok (placed, reader) =>
      placed = .opening (.capture none) :: tokens.map (Token.raisedBy (seen.count + 1)) &&
        !tokens.contains (.node .keep) && carriesOver options reader.groups others
    | _, _ => false

theorem carriesOver_cons {options : Options} {seen : GroupNames} {fragment : String}
    {others : List String} (carried : carriesOver options seen (fragment :: others) = true) :
    ∃ tokens last inner, Reader.Reads (Reader.start options) fragment.toList tokens last [] ∧
      .node .keep ∉ tokens ∧
      Reader.Reads { Reader.start options with groups := seen } (wrapped seen.count fragment)
        (.opening (.capture none) :: tokens.map (Token.raisedBy (seen.count + 1))) inner [')'] ∧
      carriesOver options inner.groups others = true := by
  simp only [carriesOver] at carried
  split at carried
  · rename_i tokens last placed inner alone inPlace
    simp only [Bool.and_eq_true, decide_eq_true_eq, Bool.not_eq_true', List.contains_eq_mem,
      decide_eq_false_iff_not] at carried
    obtain ⟨⟨rfl, unkept⟩, others⟩ := carried
    exact ⟨tokens, last, inner, Reader.reads_of_tokensUpTo alone, unkept,
      Reader.reads_of_tokensUpTo inPlace, others⟩
  · cases carried

@[simp] theorem Raised.groups_push (c : Char) (raised : Raised) :
    (raised.push c).groups = raised.groups := rfl

/-- How many groups a fragment opens does not depend on what its references are raised by. -/
theorem raiseFrom_groups (offset other copied dropped : Nat) (fragment : List Char) :
    (raiseFrom offset copied dropped fragment).groups =
      (raiseFrom other copied dropped fragment).groups := by
  fun_induction raiseFrom offset copied dropped fragment with
  | case1 => simp only [raiseFrom]
  | case3 dropped c rest ih => simpa only [raiseFrom] using ih
  | case5 rest number length found raised ih => simpa only [raiseFrom, found] using ih
  | case6 rest none ih => simpa only [raiseFrom, none, Raised.groups_push] using ih
  | case7 rest opens ih =>
      simp only [raiseFrom, opens, if_true, Raised.groups_push]
      exact congrArg (· + 1) ih
  | case8 rest opens ih =>
      rw [raiseFrom]
      simpa only [if_neg opens, Raised.groups_push] using ih
  | case9 c rest bracket backslash opening ih =>
      rw [raiseFrom]
      · exact ih
      all_goals assumption
  | _ => simpa only [raiseFrom, Raised.groups_push] using ‹_›

/-- A pattern that is read and planned alone. -/
structure Part (options : Options) where
  rule : Rule
  source : String
  node : Node
  plan : Plan
  groups : Nat
  parsed : parse options source.toList = .ok { node, groups }
  referred : ∀ group ∈ node.references, group ≤ groups
  planned : node.plan { references := node.references } = .ok plan
  counted : countGroups source = groups

namespace Part

variable {options : Options}

def member (part : Part options) : Member where
  rule := part.rule
  source := part.source
  plan := part.plan
  groups := part.groups

def placed : Nat → List (Part options) → List Node
  | _, [] => []
  | seen, part :: others =>
    .group (seen + 1) (part.node.raisedBy (seen + 1)) :: placed (seen + 1 + part.groups) others

theorem parsed_finish {part : Part options} {tokens : List Token} {last : Reader}
    (reads : Reader.Reads (Reader.start options) part.source.toList tokens last []) :
    last.finish = .ok part.node ∧ last.groups.count = part.groups := by
  have parsed := part.parsed
  obtain ⟨reader, found, parsed⟩ := bind_eq_ok.mp parsed
  obtain ⟨node, finished, parsed⟩ := bind_eq_ok.mp parsed
  rw [reads.readOn_end (Nat.le_mul_of_pos_left _ (by decide))] at found
  cases found
  obtain ⟨same, groups⟩ := Parsed.mk.inj (Except.ok.inj parsed)
  rw [← same, ← groups]
  exact ⟨finished, rfl⟩

def room (parts : List (Part options)) : Nat :=
  Member.room (parts.map member)

theorem room_cons (part : Part options) (others : List (Part options)) :
    room (part :: others) = part.groups + 1 + room others := by
  simp only [room, List.map_cons, Member.room_cons]
  rfl

def joined (seen : Nat) (parts : List (Part options)) : List Char :=
  ['|'].intercalate ((wrapFragments seen (parts.map source)).map (·.2.2.toList))

theorem raise_groups (offset : Nat) (part : Part options) :
    (raise offset part.source).groups = part.groups := by
  rw [← part.counted]
  exact raiseFrom_groups ..

theorem joined_singleton (seen : Nat) (part : Part options) :
    joined seen [part] = wrapped seen part.source := by
  simp only [joined, List.map_cons, List.map_nil, wrapFragments, wrapped, String.toList_append,
    String.toList_ofList]
  simp

theorem joined_cons (seen : Nat) (part next : Part options) (others : List (Part options)) :
    joined seen (part :: next :: others) =
      wrapped seen part.source ++ '|' :: joined (seen + 1 + part.groups) (next :: others) := by
  simp only [joined, List.map_cons, wrapFragments, raise_groups, wrapped, String.toList_append,
    String.toList_ofList]
  simp

theorem finish_between {options : Options} {groups : GroupNames} {frame : Frame}
    (whole : frame.enclosure = .whole) (ended : frame.nodes = []) (number : Nat) (body : Node) :
    (Reader.between options groups (frame.push (.group number body) true)).finish =
      .ok (Node.ofAlternatives (frame.branches.reverse ++ [.group number body])) := by
  have rested : (Reader.between options groups (frame.push (.group number body) true)).leaveRests =
      Reader.between options groups (frame.push (.group number body) true) := rfl
  simp only [Reader.finish, rested]
  simp only [Reader.between, Frame.push, whole, List.isEmpty_nil, Bool.not_true, if_true,
    Bool.false_eq_true, if_false, Frame.node, Frame.endBranch, ended, List.reverse_cons,
    List.reverse_nil, List.nil_append]
  rfl

theorem reads_joined (first : Part options) (others : List (Part options)) {seen : GroupNames}
    {frame : Frame}
    (carried : carriesOver options seen ((first :: others).map source) = true)
    (whole : frame.enclosure = .whole) (ended : frame.nodes = []) :
    ∃ tokens last, Reader.Reads (Reader.between options seen frame)
        (joined seen.count (first :: others)) tokens last [] ∧
      last.groups.count = seen.count + room (first :: others) ∧
      last.finish =
        .ok (Node.ofAlternatives (frame.branches.reverse ++ placed seen.count (first :: others))) := by
  induction others generalizing first seen frame with
  | nil =>
      obtain ⟨tokens, last, inner, alone, unkept, inPlace, _⟩ := carriesOver_cons carried
      obtain ⟨finished, groups⟩ := parsed_finish alone
      obtain ⟨names, all, reads⟩ := Reader.reads_wrapped alone finished unkept _ inPlace frame []
      rw [List.append_nil, ← joined_singleton] at reads
      refine ⟨all, _, reads, ?_, finish_between whole ended _ _⟩
      rw [room_cons, ← groups]
      simp only [Reader.between, names, GroupNames.behind, GroupNames.add, room, List.map_nil,
        Member.room_nil]
      omega
  | cons second others ih =>
      obtain ⟨tokens, last, inner, alone, unkept, inPlace, carriedOn⟩ := carriesOver_cons carried
      obtain ⟨finished, groups⟩ := parsed_finish alone
      obtain ⟨names, all, reads⟩ := Reader.reads_wrapped alone finished unkept _ inPlace frame
        ('|' :: joined (seen.count + 1 + first.groups) (second :: others))
      have count : inner.groups.count = seen.count + 1 + first.groups := by
        simp only [names, GroupNames.behind, GroupNames.add, groups]
        omega
      obtain ⟨more, final, readsOn, countOn, finishOn⟩ := @ih second inner.groups
        (frame.push (.group (seen.count + 1) (first.node.raisedBy (seen.count + 1))) true).endBranch
        carriedOn whole rfl
      rw [count] at readsOn countOn finishOn
      rw [← joined_cons] at reads
      refine ⟨_, final, reads.trans (.next rfl rfl readsOn), ?_, ?_⟩
      · rw [countOn, room_cons first]
        omega
      · rw [finishOn]
        simp only [Frame.endBranch, Frame.push, ended, List.reverse_cons, List.reverse_nil,
          List.nil_append, List.append_assoc, List.singleton_append, placed]
        rfl

/-- A composition is read as the choice between the groups of its parts. -/
theorem parse_composition (parts : List (Part options)) (some : parts ≠ [])
    (carried : carriesOver options {} (parts.map source) = true) :
    parse options (compose (parts.map source) "|").source.toList =
      .ok { node := Node.ofAlternatives (placed 0 parts), groups := room parts } := by
  obtain ⟨first, others, rfl⟩ := List.exists_cons_of_ne_nil some
  obtain ⟨tokens, last, reads, count, finished⟩ :=
    @reads_joined options first others {} (Reader.start options).current carried rfl rfl
  have source : (compose ((first :: others).map source) "|").source.toList =
      joined 0 (first :: others) := by
    simp only [compose, joined, String.toList_intercalate, List.map_map]
    rfl
  rw [parse, source]
  have read := reads.readOn_end (Nat.le_mul_of_pos_left (joined 0 (first :: others)).length
    (show 0 < 5 by decide))
  refine bind_eq_ok.mpr ⟨last, read, bind_eq_ok.mpr ⟨_, finished, ?_⟩⟩
  rw [count, Nat.zero_add]
  rfl

end Part

end Highlight.Pattern
