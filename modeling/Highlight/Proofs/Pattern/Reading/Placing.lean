import Highlight.Proofs.Pattern.Reading.Sequence
import Highlight.Proofs.Pattern.Renumbering

set_option autoImplicit false

/-! A pattern read as a group of a larger one. What the reader gathers from the tokens of the pattern is
what it gathers from them alone, in a group that stands for the whole and with other numbers. -/

namespace Highlight.Pattern

open Outcome

def GroupNames.behind (groups around : GroupNames) : GroupNames where
  count := groups.count + around.count
  names := groups.names.map (fun entry => (entry.1, entry.2 + around.count)) ++ around.names

theorem GroupNames.add_behind (groups around : GroupNames) (name : Option String) :
    (groups.add name).behind around = (groups.behind around).add name := by
  have number : groups.count + 1 + around.count = groups.count + around.count + 1 := by omega
  cases name with
  | none => simp only [add, behind, number]
  | some name => simp only [add, behind, number, List.map_cons, List.cons_append]

def Token.raisedBy (offset : Nat) : Token → Token
  | .node tree => .node (tree.raisedBy offset)
  | token => token

def Token.isWhole : Token → Bool
  | .skipped | .byte _ => false
  | _ => true

/-- A token that stays in the group that it is read in. -/
def Token.isInner : Token → Bool
  | .opening _ | .closing => false
  | _ => true

/-- The whole is a group, and groups get other numbers. -/
def Enclosure.within (wrapper : Nat) : Enclosure → Enclosure
  | whole => capture wrapper
  | capture number => capture (number + wrapper)
  | enclosure => enclosure

namespace Frame

variable (wrapper : Nat)

def within (frame : Frame) : Frame where
  enclosure := frame.enclosure.within wrapper
  outside := frame.outside
  branches := frame.branches.map (Node.raisedBy wrapper)
  nodes := frame.nodes.map (Node.raisedBy wrapper)
  endsInGroup := frame.endsInGroup

theorem endBranch_within (frame : Frame) :
    frame.endBranch.within wrapper = (frame.within wrapper).endBranch := by
  simp only [endBranch, within, List.map_cons, List.map_nil, Node.raisedBy_ofList,
    List.map_reverse]

theorem push_within (frame : Frame) (node : Node) (isGroup : Bool) :
    (frame.push node isGroup).within wrapper =
      (frame.within wrapper).push (node.raisedBy wrapper) isGroup := rfl

theorem alternatives_within (frame : Frame) :
    Node.ofAlternatives (frame.within wrapper).endBranch.branches.reverse =
      (Node.ofAlternatives frame.endBranch.branches.reverse).raisedBy wrapper := by
  rw [← endBranch_within, Node.raisedBy_ofAlternatives, List.map_reverse]
  rfl

theorem node_within {frame : Frame} (inner : frame.enclosure ≠ .whole) :
    (frame.within wrapper).node = frame.node.raisedBy wrapper := by
  unfold node
  rw [alternatives_within]
  generalize Node.ofAlternatives _ = body
  simp only [within]
  generalize frame.enclosure = enclosure at inner
  cases enclosure with
  | whole => exact absurd rfl inner
  | look behind negated =>
      cases behind with
      | false => rfl
      | true => exact congrArg _ (Node.raisedBy_withFewestBehind wrapper body).symm
  | _ => rfl

theorem node_whole {frame : Frame} (whole : frame.enclosure = .whole) :
    (frame.within wrapper).node = .group wrapper (frame.node.raisedBy wrapper) := by
  unfold node
  rw [alternatives_within]
  simp only [within, whole]
  rfl

end Frame

def Frame.place (frame : Frame) : Enclosure × Options :=
  (frame.enclosure, frame.outside)

/-- The last frame stands for the whole and no other one does. -/
inductive Rooted (outside : Options) : List (Enclosure × Options) → Prop where
  | whole : Rooted outside [(.whole, outside)]
  | inner {place : Enclosure × Options} {outer : List (Enclosure × Options)}
      (inner : place.1 ≠ .whole) (rooted : Rooted outside outer) : Rooted outside (place :: outer)

namespace Reader

def places (reader : Reader) : List (Enclosure × Options) :=
  reader.current.place :: reader.outer.map Frame.place

def addWhole (reader : Reader) : Token → Except PatternError Reader
  | .char c => .ok (reader.addChar c)
  | .node tree => .ok (reader.push tree)
  | .repetition repetition => reader.repeatLast repetition
  | .opening opening => reader.openGroup opening
  | .closing => reader.closeGroup
  | .bar => .ok { reader with current := reader.current.endBranch }
  | _ => .ok reader

/-- Such a token is added between characters only, not within one that is written byte by byte. -/
theorem add_eq_ok_iff {reader next : Reader} {token : Token} (whole : token.isWhole = true) :
    reader.add token = .ok next ↔ reader.bytes = [] ∧ reader.addWhole token = .ok next := by
  have same : reader.add token =
      if (!reader.bytes.isEmpty) = true then .error .shortBytes else reader.addWhole token := by
    cases token with
    | skipped => cases whole
    | byte value => cases whole
    | _ => rfl
  rw [same]
  cases reader.bytes with
  | nil => exact ⟨fun added => ⟨rfl, added⟩, fun added => added.2⟩
  | cons byte bytes =>
      constructor
      · intro impossible
        cases impossible
      · rintro ⟨impossible, _⟩
        cases impossible

/-- Two readers that stand in the same group, with the same groups before them. -/
structure Beside (reader next : Reader) : Prop where
  places : next.places = reader.places
  options : next.options = reader.options
  groups : next.groups = reader.groups

theorem beside_addChar (reader : Reader) (c : Char) : Beside reader (reader.addChar c) := by
  unfold addChar
  dsimp only
  split
  · split <;> exact ⟨rfl, rfl, rfl⟩
  · exact ⟨rfl, rfl, rfl⟩

theorem beside_addByte {reader next : Reader} {byte : Nat} (added : reader.addByte byte = .ok next) : Beside reader next := by
  simp only [addByte] at added
  split at added
  · cases added
    exact ⟨rfl, rfl, rfl⟩
  split at added
  · cases added
  split at added
  · cases added
    obtain ⟨places, options, groups⟩ := beside_addChar { reader with bytes := [] } _
    exact ⟨places, options, groups⟩
  · cases added
    exact ⟨rfl, rfl, rfl⟩

theorem beside_repeatLast {reader next : Reader} {repetition : Repetition}
    (repeated : reader.repeatLast repetition = .ok next) : Beside reader next := by
  unfold repeatLast at repeated
  dsimp only at repeated
  split at repeated
  · cases repeated
  split at repeated
  · cases repeated
  split at repeated
  · cases repeated
    exact ⟨rfl, rfl, rfl⟩
  · cases repeated
    exact ⟨rfl, rfl, rfl⟩

theorem beside_add {reader next : Reader} {token : Token} (inner : token.isInner = true)
    (added : reader.add token = .ok next) : Beside reader next := by
  cases token with
  | skipped =>
      cases added
      exact ⟨rfl, rfl, rfl⟩
  | byte value => exact beside_addByte added
  | char c =>
      cases ((add_eq_ok_iff rfl).mp added).2
      exact beside_addChar reader c
  | node tree =>
      cases ((add_eq_ok_iff rfl).mp added).2
      exact ⟨rfl, rfl, rfl⟩
  | repetition repetition => exact beside_repeatLast ((add_eq_ok_iff rfl).mp added).2
  | bar =>
      cases ((add_eq_ok_iff rfl).mp added).2
      exact ⟨rfl, rfl, rfl⟩
  | opening opening => cases inner
  | closing => cases inner

theorem leave_keeps (reader : Reader) :
    reader.leave.groups = reader.groups ∧ reader.leave.bytes = reader.bytes := by
  unfold leave
  split <;> exact ⟨rfl, rfl⟩

/-- What is kept as a group ends is kept as the stretches of options in it end. -/
theorem leaveRests_of_leave (holds : Reader → Prop)
    (kept : ∀ reader, holds reader → holds reader.leave) {reader : Reader} (held : holds reader) :
    holds reader.leaveRests := by
  unfold leaveRests
  generalize reader.outer.length = depth
  induction depth generalizing reader with
  | zero => exact held
  | succ depth ih =>
      unfold leaveRests.go
      split
      · exact ih (kept reader held)
      · exact held

theorem leaveRests_keeps (reader : Reader) :
    reader.leaveRests.groups = reader.groups ∧ reader.leaveRests.bytes = reader.bytes := by
  apply leaveRests_of_leave fun other => other.groups = reader.groups ∧ other.bytes = reader.bytes
  · intro other same
    obtain ⟨groups, bytes⟩ := leave_keeps other
    exact ⟨groups.trans same.1, bytes.trans same.2⟩
  · exact ⟨rfl, rfl⟩

variable {outside : Options} (around : GroupNames) (below : List Frame)

/-- The reader in the place of the pattern, with groups around it and frames below its own. -/
def within (reader : Reader) : Reader where
  options := reader.options
  groups := reader.groups.behind around
  current := reader.current.within around.count
  outer := reader.outer.map (Frame.within around.count) ++ below
  bytes := reader.bytes

theorem push_within (reader : Reader) (node : Node) :
    (reader.push node).within around below =
      (reader.within around below).push (node.raisedBy around.count) := rfl

theorem leave_within {reader : Reader} {frame : Frame} {outer : List Frame}
    (behind : reader.outer = frame :: outer) (inner : reader.current.enclosure ≠ .whole) :
    reader.leave.within around below = (reader.within around below).leave := by
  simp only [leave, within, behind, List.map_cons, List.cons_append, Frame.push_within,
    Frame.node_within _ inner]
  rfl

theorem places_leave {reader : Reader} {frame : Frame} {outer : List Frame}
    (behind : reader.outer = frame :: outer) : reader.leave.places = reader.places.tail := by
  simp only [leave, places, behind]
  rfl

theorem ended_of_places {reader : Reader} (whole : reader.places = [(.whole, outside)]) :
    reader.current.enclosure = .whole ∧ reader.current.outside = outside ∧ reader.outer = [] := by
  obtain ⟨current, outer⟩ := List.cons.inj whole
  obtain ⟨enclosure, same⟩ := Prod.mk.inj current
  exact ⟨enclosure, same, List.map_eq_nil_iff.mp outer⟩

theorem outer_of_places {reader : Reader} {place : Enclosure × Options}
    {outer : List (Enclosure × Options)} (inner : reader.places = place :: outer)
    (rooted : Rooted outside outer) :
    reader.current.enclosure = place.1 ∧ ∃ frame frames, reader.outer = frame :: frames := by
  obtain ⟨current, same⟩ := List.cons.inj inner
  refine ⟨congrArg Prod.fst current, List.exists_cons_of_ne_nil ?_⟩
  intro ended
  rw [ended] at same
  rw [← same] at rooted
  cases rooted

theorem leaveRests_go_within {reader : Reader} (rooted : Rooted outside reader.places) (more : Nat) :
    leaveRests.go (reader.outer.length + more) (reader.within around below) =
      (leaveRests.go reader.outer.length reader).within around below := by
  generalize same : reader.places = places at rooted
  induction rooted generalizing reader with
  | whole =>
      obtain ⟨whole, _, ended⟩ := ended_of_places same
      rw [ended, List.length_nil, Nat.zero_add]
      cases more with
      | zero => rfl
      | succ more =>
          unfold leaveRests.go
          rw [if_neg]
          simp only [within, Frame.within, whole, Enclosure.within]
          exact Enclosure.noConfusion
  | inner inner rooted ih =>
      obtain ⟨current, frame, frames, behind⟩ := outer_of_places same rooted
      rw [← current] at inner
      have left : reader.leave.outer.length + 1 = reader.outer.length := by
        simp only [leave, behind, List.length_cons]
      have rests : (reader.within around below).current.enclosure = .restOfGroup ↔
          reader.current.enclosure = .restOfGroup := by
        simp only [within, Frame.within]
        cases reader.current.enclosure <;> simp [Enclosure.within]
      rw [← left, Nat.add_right_comm, leaveRests.go, leaveRests.go]
      by_cases rest : reader.current.enclosure = .restOfGroup
      · rw [if_pos (rests.mpr rest), if_pos rest, ← leave_within around below behind inner]
        apply ih
        rw [places_leave behind, same, List.tail_cons]
      · rw [if_neg ((not_congr rests).mpr rest), if_neg rest]

theorem leaveRests_within {reader : Reader} (rooted : Rooted outside reader.places) :
    (reader.within around below).leaveRests = reader.leaveRests.within around below := by
  unfold leaveRests
  rw [← leaveRests_go_within around below rooted below.length]
  simp only [within, List.length_append, List.length_map]

theorem rooted_leave {reader : Reader} (rooted : Rooted outside reader.places) :
    Rooted outside reader.leave.places := by
  generalize same : reader.places = places at rooted
  cases rooted with
  | whole =>
      obtain ⟨_, _, ended⟩ := ended_of_places same
      simp only [leave, ended, same]
      exact .whole
  | inner inner rooted =>
      obtain ⟨_, frame, frames, behind⟩ := outer_of_places same rooted
      rw [places_leave behind, same]
      exact rooted

theorem rooted_leaveRests {reader : Reader} (rooted : Rooted outside reader.places) :
    Rooted outside reader.leaveRests.places :=
  leaveRests_of_leave (fun other => Rooted outside other.places) (fun _ => rooted_leave) rooted

theorem closeGroup_within {reader next : Reader} (rooted : Rooted outside reader.places)
    (closed : reader.closeGroup = .ok next) :
    (reader.within around below).closeGroup = .ok (next.within around below) := by
  have rested := rooted_leaveRests rooted
  unfold closeGroup at closed ⊢
  rw [leaveRests_within around below rooted]
  generalize reader.leaveRests = reader at rested closed ⊢
  dsimp only at closed ⊢
  split at closed
  · cases closed
  · rename_i inner
    cases closed
    have other : (reader.within around below).current.enclosure ≠ .whole := by
      simp only [within, Frame.within]
      cases reader.current.enclosure <;> simp [Enclosure.within]
    rw [if_neg other]
    generalize same : reader.places = places at rested
    cases rested with
    | whole => exact absurd (ended_of_places same).1 inner
    | inner _ rooted =>
        obtain ⟨_, frame, frames, behind⟩ := outer_of_places same rooted
        rw [leave_within around below behind inner]

theorem enter_within {reader next : Reader} {enclosure : Enclosure} {options : Options}
    (entered : reader.enter enclosure options = .ok next)
    (room : reader.outer.length + below.length + 1 < deepestGroup) :
    (reader.within around below).enter (enclosure.within around.count) options =
      .ok (next.within around below) := by
  unfold enter at entered ⊢
  split at entered
  · cases entered
  · cases entered
    rw [if_neg]
    · rfl
    · simp only [within, List.length_append, List.length_map]
      omega

theorem openGroup_within {reader next : Reader} {opening : Opening}
    (opened : reader.openGroup opening = .ok next)
    (room : reader.outer.length + below.length + 1 < deepestGroup) :
    (reader.within around below).openGroup opening = .ok (next.within around below) := by
  cases opening with
  | capture name =>
      obtain ⟨inner, entered, opened⟩ := bind_eq_ok.mp opened
      cases opened
      have placed := enter_within around below entered room
      have groups : (reader.groups.behind around).add name =
          (reader.groups.add name).behind around := (GroupNames.add_behind ..).symm
      have number : (reader.groups.add name).count + around.count =
          ((reader.groups.behind around).add name).count := congrArg (·.count) groups.symm
      simp only [Enclosure.within, number] at placed
      refine bind_eq_ok.mpr ⟨_, placed, ?_⟩
      simp only [within, groups]
      rfl
  | _ => exact enter_within around below opened room

theorem repeatLast_within {reader next : Reader} {repetition : Repetition}
    (repeated : reader.repeatLast repetition = .ok next) :
    (reader.within around below).repeatLast repetition = .ok (next.within around below) := by
  obtain ⟨options, groups, ⟨enclosure, outside, branches, nodes, endsInGroup⟩, outer, bytes⟩ :=
    reader
  cases nodes with
  | nil => cases repeated
  | cons node nodes =>
      simp only [repeatLast] at repeated
      split at repeated
      · cases repeated
      rename_i repeatable
      simp only [repeatLast, within, Frame.within, List.map_cons, Node.isCondition_raisedBy,
        if_neg repeatable]
      split at repeated
      · cases repeated
        simp only [Node.raisedBy, List.map_cons, Node.raisedBy_repeatedBy]
        split <;> rfl
      · rename_i plain
        cases repeated
        rw [List.map_cons, Node.raisedBy_repeatedBy]
        cases node with
        | chars text ignoreCase =>
            cases endsInGroup with
            | false => exact absurd rfl (plain text ignoreCase rfl)
            | true => rfl
        | _ => rfl

theorem addChar_within (reader : Reader) (c : Char) :
    (reader.within around below).addChar c = (reader.addChar c).within around below := by
  obtain ⟨options, groups, ⟨enclosure, outside, branches, nodes, endsInGroup⟩, outer, bytes⟩ :=
    reader
  cases nodes with
  | nil => rfl
  | cons node nodes =>
      cases node with
      | chars text sameCase =>
          cases endsInGroup with
          | true => rfl
          | false =>
              simp only [addChar, within, Frame.within, List.map_cons, Node.raisedBy]
              split <;> rfl
      | _ => rfl

theorem addByte_within {reader next : Reader} {byte : Nat} (added : reader.addByte byte = .ok next) :
    (reader.within around below).addByte byte = .ok (next.within around below) := by
  have bytes : (reader.within around below).bytes = reader.bytes := rfl
  simp only [addByte] at added
  simp only [addByte, bytes]
  split at added
  · rename_i unfinished
    cases added
    rw [if_pos unfinished]
    rfl
  rename_i finished
  rw [if_neg finished]
  split at added
  · cases added
  rename_i valid
  rw [if_neg valid]
  cases character : charOfBytes? (reader.bytes ++ [byte]) with
  | some c =>
      rw [character] at added
      cases added
      exact congrArg Except.ok (addChar_within around below { reader with bytes := [] } c)
  | none =>
      rw [character] at added
      cases added
      rfl

/-- A token adds to the pattern in its place what it adds to the pattern alone. -/
theorem add_within {reader next : Reader} {token : Token} (rooted : Rooted outside reader.places)
    (added : reader.add token = .ok next)
    (room : ∀ opening, token = .opening opening →
      reader.outer.length + below.length + 1 < deepestGroup) :
    (reader.within around below).add (token.raisedBy around.count) =
      .ok (next.within around below) := by
  cases token with
  | skipped =>
      cases added
      rfl
  | byte value => exact addByte_within around below added
  | char c =>
      obtain ⟨bytes, added⟩ := (add_eq_ok_iff rfl).mp added
      cases added
      apply (add_eq_ok_iff rfl).mpr
      exact ⟨bytes, congrArg Except.ok (addChar_within around below reader c)⟩
  | node tree =>
      obtain ⟨bytes, added⟩ := (add_eq_ok_iff rfl).mp added
      cases added
      exact (add_eq_ok_iff rfl).mpr ⟨bytes, rfl⟩
  | repetition repetition =>
      obtain ⟨bytes, added⟩ := (add_eq_ok_iff rfl).mp added
      exact (add_eq_ok_iff rfl).mpr ⟨bytes, repeatLast_within around below added⟩
  | opening opening =>
      obtain ⟨bytes, added⟩ := (add_eq_ok_iff rfl).mp added
      exact (add_eq_ok_iff rfl).mpr ⟨bytes, openGroup_within around below added (room opening rfl)⟩
  | closing =>
      obtain ⟨bytes, added⟩ := (add_eq_ok_iff rfl).mp added
      exact (add_eq_ok_iff rfl).mpr ⟨bytes, closeGroup_within around below rooted added⟩
  | bar =>
      obtain ⟨bytes, added⟩ := (add_eq_ok_iff rfl).mp added
      cases added
      have ended := Frame.endBranch_within around.count reader.current
      refine (add_eq_ok_iff rfl).mpr ⟨bytes, congrArg Except.ok ?_⟩
      simp only [within, ended]

end Reader

end Highlight.Pattern
