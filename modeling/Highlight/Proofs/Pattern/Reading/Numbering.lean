import Highlight.Proofs.Pattern.Reading.Placing

set_option autoImplicit false

/-! The groups of a pattern that is being read. Those in what has been gathered so far have been opened,
and the start of a match is not moved as long as no token moves it. -/

namespace Highlight.Pattern

open Outcome

/-- A token that writes nothing down, but for the one that moves the start of the match. -/
def Token.Plain (token : Token) : Prop :=
  ∀ tree, token = .node tree → tree.marks = [] ∨ tree = .keep

namespace Token.Plain

theorem unmarked {token : Token} (plain : token.Plain) (unkept : .node .keep ≠ token) {tree : Node}
    (same : token = .node tree) : tree.marks = [] := by
  rcases plain tree same with unmarked | keep
  · exact unmarked
  · rw [same, keep] at unkept
    exact absurd rfl unkept

theorem ofNode {tree : Node} (unmarked : tree.marks = []) : Plain (.node tree) := by
  intro other same
  cases same
  exact .inl unmarked

theorem namedReference {mark : Char} {ignoreCase : Bool} {groups : GroupNames}
    {input rest : List Char} {token : Token}
    (read : Pattern.namedReference mark ignoreCase groups input = .ok (token, rest)) :
    token.Plain := by
  obtain ⟨referent, level, _, refers⟩ := namedReference_eq_ok read
  obtain ⟨numbers, rfl⟩ := referTo_eq_ok refers
  apply ofNode
  split <;> rfl

theorem octalByte {most : Nat} {input rest : List Char} {token : Token}
    (read : Pattern.octalByte most input = .ok (token, rest)) : token.Plain := by
  unfold Pattern.octalByte at read
  dsimp only at read
  split at read
  · cases read
  · cases read
    exact fun _ impossible => by cases impossible

theorem escapeToken {options : Options} {groups : GroupNames} {input rest : List Char} {token : Token}
    (read : Pattern.escapeToken options groups input = .ok (token, rest)) : token.Plain := by
  cases input with
  | nil => cases read
  | cons c input =>
      simp only [Pattern.escapeToken] at read
      split at read
      · cases read
        exact .ofNode rfl
      split at read
      case h_7 =>
          cases read
          intro tree same
          cases same
          exact .inr rfl
      case h_11 => exact .namedReference read
      case h_12 => exact .namedReference read
      case h_13 | h_14 =>
          split at read
          · obtain ⟨⟨set, after⟩, _, read⟩ := bind_eq_ok.mp read
            cases read
            exact .ofNode rfl
          · cases read
            exact fun _ impossible => by cases impossible
      case h_15 => exact .octalByte read
      case h_16 | h_17 | h_18 | h_19 | h_20 => cases read
      case h_21 =>
          split at read
          · unfold numberEscape at read
            split at read
            · split at read
              · cases read
                exact .ofNode rfl
              split at read
              · cases read
                exact fun _ impossible => by cases impossible
              · exact .octalByte read
            · cases read
              exact fun _ impossible => by cases impossible
          · obtain ⟨⟨written, after⟩, _, read⟩ := bind_eq_ok.mp read
            cases written with
            | point code =>
                obtain ⟨c, _, read⟩ := bind_eq_ok.mp read
                cases read
                exact fun _ impossible => by cases impossible
            | byte value base =>
                cases read
                exact fun _ impossible => by cases impossible
      all_goals
        cases read
        exact .ofNode rfl

theorem braceToken {input rest : List Char} {token : Token}
    (read : Pattern.braceToken input = .ok (token, rest)) : token.Plain := by
  rw [braceToken_eq] at read
  obtain ⟨bounds, _, read⟩ := bind_eq_ok.mp read
  cases bounds with
  | none =>
      cases read
      exact fun _ impossible => by cases impossible
  | some bounds =>
      obtain ⟨least, most, fixed, after⟩ := bounds
      have repeats : ∃ repetition, (boundsToken least most fixed after).1 = .repetition repetition := by
        unfold boundsToken lazyMark
        repeat' split
        all_goals exact ⟨_, rfl⟩
      obtain ⟨repetition, same⟩ := repeats
      rw [Except.ok.inj read] at same
      cases same
      exact fun _ impossible => by cases impossible

theorem optionToken {options : Options} {off : Bool} {input rest : List Char} {token : Token}
    (read : Pattern.optionToken options off input = .ok (token, rest)) : token.Plain := by
  fun_induction Pattern.optionToken options off input with
  | case2 | case3 =>
      cases read
      exact fun _ impossible => by cases impossible
  | case4 options off input ih | case5 options off input ih | case6 options off input ih
  | case7 options off input ih => exact ih read
  | _ => cases read

theorem namedOpening {mark : Char} {input rest : List Char} {token : Token}
    (read : extendedOpening.namedOpening mark input = .ok (token, rest)) : token.Plain := by
  obtain ⟨⟨name, after⟩, _, read⟩ := bind_eq_ok.mp read
  cases read
  exact fun _ impossible => by cases impossible

theorem noteToken {input rest : List Char} {token : Token}
    (read : Pattern.noteToken input = .ok (token, rest)) : token.Plain := by
  obtain ⟨skipped, _, read⟩ := bind_eq_ok.mp read
  split at read
  · cases read
  · cases read
    exact .ofNode rfl
  · cases read

theorem extendedOpening {options : Options} {input rest : List Char} {token : Token}
    (read : Pattern.extendedOpening options input = .ok (token, rest)) : token.Plain := by
  unfold Pattern.extendedOpening at read
  split at read
  case h_3 =>
      obtain ⟨after, _, read⟩ := bind_eq_ok.mp read
      cases read
      exact fun _ impossible => by cases impossible
  case h_11 => exact .namedOpening read
  case h_12 => exact .namedOpening read
  case h_13 =>
      split at read
      · exact .noteToken read
      · exact .optionToken read
  all_goals
    cases read
    try exact fun _ impossible => by cases impossible

theorem conditionToken {input rest : List Char} {token : Token}
    (read : Pattern.conditionToken input = .ok (token, rest)) : token.Plain := by
  simp only [Pattern.conditionToken] at read
  repeat' split at read
  all_goals cases read
  exact .ofNode rfl

theorem repetitionMark {least : Nat} {most : Option Nat} {input rest : List Char} {token : Token}
    (read : (.ok (Pattern.repetitionMark least most input) :
      Except PatternError (Token × List Char)) = .ok (token, rest)) : token.Plain := by
  have read := Except.ok.inj read
  unfold Pattern.repetitionMark at read
  split at read
  all_goals
    cases read
    exact fun _ impossible => by cases impossible

theorem ofRead {options : Options} {groups : GroupNames} {c : Char} {input rest : List Char}
    {token : Token} (read : Pattern.token options groups c input = .ok (token, rest)) :
    token.Plain := by
  unfold Pattern.token at read
  split at read
  case h_1 => exact .escapeToken read
  case h_5 | h_6 | h_7 => exact .repetitionMark read
  case h_10 =>
      split at read
      · cases read
      · exact .extendedOpening read
      · exact .conditionToken read
      · cases read
        exact fun _ impossible => by cases impossible
  case h_11 =>
      obtain ⟨⟨members, after⟩, _, read⟩ := bind_eq_ok.mp read
      cases read
      apply Plain.ofNode
      split <;> rfl
  case h_12 =>
      split at read
      · exact .braceToken read
      · repeat' split at read
        all_goals
          cases read
          exact fun _ impossible => by cases impossible
  case h_8 | h_9 =>
      cases read
      exact fun _ impossible => by cases impossible
  all_goals
    cases read
    exact .ofNode rfl

end Token.Plain

namespace Frame

def marks (frame : Frame) : List (Option Nat) :=
  (frame.branches ++ frame.nodes).flatMap Node.marks

theorem mem_marks_iff {frame : Frame} {mark : Option Nat} :
    mark ∈ frame.marks ↔ ∃ node ∈ frame.branches ++ frame.nodes, mark ∈ node.marks :=
  List.mem_flatMap

theorem mem_marks_push {frame : Frame} {node : Node} {isGroup : Bool} {mark : Option Nat} :
    mark ∈ (frame.push node isGroup).marks ↔ mark ∈ node.marks ∨ mark ∈ frame.marks := by
  simp only [marks, push, List.flatMap_append, List.flatMap_cons, List.mem_append]
  exact or_left_comm

theorem mem_marks_endBranch {frame : Frame} {mark : Option Nat} :
    mark ∈ frame.endBranch.marks ↔ mark ∈ frame.marks := by
  simp only [marks, endBranch, Node.marks_ofList, List.flatMap_append, List.flatMap_cons,
    List.append_nil, List.mem_append, List.mem_flatMap, List.mem_reverse]
  exact or_comm

/-- A group writes down what it holds and, if it remembers its text, itself. -/
theorem mem_marks_node {frame : Frame} {mark : Option Nat} (written : mark ∈ frame.node.marks) :
    mark ∈ frame.marks ∨ ∃ number, frame.enclosure = .capture number ∧ mark = some number := by
  have body : mark ∈ (Node.ofAlternatives frame.endBranch.branches.reverse).marks →
      mark ∈ frame.marks := by
    intro inside
    rw [Node.marks_ofAlternatives] at inside
    obtain ⟨node, among, inside⟩ := List.mem_flatMap.mp inside
    rw [← mem_marks_endBranch, mem_marks_iff]
    exact ⟨node, List.mem_append_left _ (List.mem_reverse.mp among), inside⟩
  unfold node at written
  generalize Node.ofAlternatives frame.endBranch.branches.reverse = tree at body written
  cases kind : frame.enclosure with
  | capture number =>
      rw [kind] at written
      rcases List.mem_cons.mp written with same | inside
      · exact .inr ⟨number, rfl, same⟩
      · exact .inl (body inside)
  | look behind negated =>
      rw [kind] at written
      cases behind with
      | false => exact .inl (body written)
      | true =>
          rw [Enclosure.wrap, Node.marks, Node.marks_withFewestBehind] at written
          exact .inl (body written)
  | _ =>
      rw [kind] at written
      exact .inl (body written)

end Frame

namespace Reader

/-- The groups that a reader has gathered have been opened, and nothing moves the start. -/
structure Numbered (reader : Reader) (outside : Options) : Prop where
  rooted : Rooted outside reader.places
  opened : ∀ number options, (.capture number, options) ∈ reader.places →
    number ≤ reader.groups.count
  marks : ∀ frame ∈ reader.current :: reader.outer, ∀ mark ∈ frame.marks,
    ∃ number ≤ reader.groups.count, mark = some number

namespace Numbered

variable {reader next : Reader} {outside : Options}

theorem start (options : Options) : (Reader.start options).Numbered options := by
  constructor
  · exact .whole
  · intro number options impossible
    cases List.mem_singleton.mp impossible
  · intro frame among mark written
    rw [List.mem_singleton.mp among] at written
    cases written

theorem update (numbered : reader.Numbered outside) {frame : Frame} {bytes : List Nat}
    (same : frame.place = reader.current.place)
    (marks : ∀ mark ∈ frame.marks,
      mark ∈ reader.current.marks ∨ ∃ number ≤ reader.groups.count, mark = some number) :
    Reader.Numbered { reader with current := frame, bytes } outside := by
  have places : Reader.places { reader with current := frame, bytes } = reader.places :=
    congrArg (· :: reader.outer.map Frame.place) same
  constructor
  · rw [places]
    exact numbered.rooted
  · rw [places]
    exact numbered.opened
  · intro other among mark written
    rcases List.mem_cons.mp among with rfl | beyond
    · rcases marks mark written with before | opened
      · exact numbered.marks _ List.mem_cons_self mark before
      · exact opened
    · exact numbered.marks other (List.mem_cons_of_mem _ beyond) mark written

theorem leave (numbered : reader.Numbered outside) : reader.leave.Numbered outside := by
  have inner : ∀ mark ∈ reader.current.node.marks,
      ∃ number ≤ reader.groups.count, mark = some number := by
    intro mark written
    rcases Frame.mem_marks_node written with inside | ⟨number, enclosure, same⟩
    · exact numbered.marks _ List.mem_cons_self mark inside
    · refine ⟨number, numbered.opened number reader.current.outside ?_, same⟩
      rw [← enclosure]
      exact List.mem_cons_self
  cases behind : reader.outer with
  | nil =>
      simp only [Reader.leave, behind]
      exact numbered
  | cons frame outer =>
      have places := places_leave behind
      constructor
      · exact rooted_leave numbered.rooted
      · intro number options among
        rw [places] at among
        have opened := numbered.opened number options (List.mem_of_mem_tail among)
        simp only [Reader.leave, behind]
        exact opened
      · simp only [Reader.leave, behind]
        intro other among mark written
        have before := numbered.marks
        rw [behind] at before
        rcases List.mem_cons.mp among with rfl | beyond
        · rcases Frame.mem_marks_push.mp written with group | within
          · exact inner mark group
          · exact before frame (List.mem_cons_of_mem _ List.mem_cons_self) mark within
        · exact before other (List.mem_cons_of_mem _ (List.mem_cons_of_mem _ beyond)) mark written

theorem leaveRests (numbered : reader.Numbered outside) : reader.leaveRests.Numbered outside :=
  leaveRests_of_leave (Numbered · outside) (fun _ => leave) numbered

theorem enter_groups {enclosure : Enclosure} {options : Options}
    (entered : reader.enter enclosure options = .ok next) :
    next.groups.count = reader.groups.count := by
  unfold Reader.enter at entered
  split at entered
  · cases entered
  · cases entered
    rfl

theorem enter (numbered : reader.Numbered outside) {enclosure : Enclosure} {options : Options}
    {groups : GroupNames} (inner : enclosure ≠ .whole)
    (opened : ∀ number, enclosure = .capture number → number ≤ groups.count)
    (more : reader.groups.count ≤ groups.count)
    (entered : reader.enter enclosure options = .ok next) :
    Reader.Numbered { next with groups } outside := by
  unfold Reader.enter at entered
  split at entered
  · cases entered
  cases entered
  constructor
  · exact .inner inner numbered.rooted
  · intro number options among
    rcases List.mem_cons.mp among with same | beyond
    · exact opened number (congrArg Prod.fst same).symm
    · exact Nat.le_trans (numbered.opened number options beyond) more
  · intro frame among mark written
    rcases List.mem_cons.mp among with rfl | beyond
    · cases written
    · obtain ⟨number, before, same⟩ := numbered.marks frame beyond mark written
      exact ⟨number, Nat.le_trans before more, same⟩

theorem push (numbered : reader.Numbered outside) {tree : Node} (unmarked : tree.marks = []) :
    (reader.push tree).Numbered outside := by
  refine @update reader outside numbered (reader.current.push tree false) reader.bytes rfl ?_
  intro mark written
  rcases Frame.mem_marks_push.mp written with added | before
  · rw [unmarked] at added
    cases added
  · exact .inl before

theorem addChar (numbered : reader.Numbered outside) (c : Char) : (reader.addChar c).Numbered outside := by
  simp only [Reader.addChar]
  split
  · rename_i text sameCase nodes chars joined
    split
    · refine numbered.update rfl ?_
      intro mark written
      apply Or.inl
      simpa [Frame.marks, chars, Node.marks] using written
    · exact numbered.push rfl
  · exact numbered.push rfl

theorem addByte (numbered : reader.Numbered outside) {byte : Nat} (added : reader.addByte byte = .ok next) :
    next.Numbered outside := by
  have bytes : ∀ bytes, Reader.Numbered { reader with bytes } outside :=
    fun bytes => numbered.update rfl fun mark before => .inl before
  simp only [Reader.addByte] at added
  split at added
  · cases added
    exact bytes _
  split at added
  · cases added
  split at added
  · cases added
    exact (bytes []).addChar _
  · cases added
    exact (bytes []).push rfl

theorem repeatLast (numbered : reader.Numbered outside) {repetition : Repetition}
    (repeated : reader.repeatLast repetition = .ok next) : next.Numbered outside := by
  unfold Reader.repeatLast at repeated
  dsimp only at repeated
  split at repeated
  · cases repeated
  rename_i node nodes latest
  split at repeated
  · cases repeated
  split at repeated
  · rename_i text ignoreCase single joined
    cases repeated
    refine numbered.update rfl ?_
    intro mark written
    apply Or.inl
    rw [Frame.marks, latest]
    simp only [Frame.marks, List.flatMap_append, List.mem_append, List.flatMap_cons,
      Node.marks_repeatedBy] at written ⊢
    split at written
    · simpa [Node.marks] using written
    · simpa [Node.marks] using written
  · cases repeated
    refine numbered.update rfl ?_
    intro mark written
    apply Or.inl
    rw [Frame.marks, latest]
    simpa only [Frame.marks, List.flatMap_append, List.flatMap_cons,
      Node.marks_repeatedBy] using written

theorem openGroup (numbered : reader.Numbered outside) {opening : Opening}
    (opened : reader.openGroup opening = .ok next) : next.Numbered outside := by
  cases opening with
  | capture name =>
      obtain ⟨inner, entered, opened⟩ := bind_eq_ok.mp opened
      cases opened
      refine numbered.enter Enclosure.noConfusion ?_ (Nat.le_succ _) entered
      intro number same
      cases same
      exact Nat.le_refl _
  | _ =>
      refine numbered.enter Enclosure.noConfusion ?_ (Nat.le_of_eq (enter_groups opened).symm) opened
      intro number impossible
      cases impossible

theorem closeGroup (numbered : reader.Numbered outside) (closed : reader.closeGroup = .ok next) :
    next.Numbered outside := by
  unfold Reader.closeGroup at closed
  dsimp only at closed
  split at closed
  · cases closed
  · cases closed
    exact numbered.leaveRests.leave

theorem add (numbered : reader.Numbered outside) {token : Token}
    (unmarked : ∀ tree, token = .node tree → tree.marks = [])
    (added : reader.add token = .ok next) : next.Numbered outside := by
  cases token with
  | skipped =>
      cases added
      exact numbered
  | byte value => exact numbered.addByte added
  | char c =>
      cases ((add_eq_ok_iff rfl).mp added).2
      exact numbered.addChar c
  | node tree =>
      cases ((add_eq_ok_iff rfl).mp added).2
      exact numbered.push (unmarked tree rfl)
  | repetition repetition => exact numbered.repeatLast ((add_eq_ok_iff rfl).mp added).2
  | opening opening => exact numbered.openGroup ((add_eq_ok_iff rfl).mp added).2
  | closing => exact numbered.closeGroup ((add_eq_ok_iff rfl).mp added).2
  | bar =>
      cases ((add_eq_ok_iff rfl).mp added).2
      exact numbered.update rfl fun mark written => .inl (Frame.mem_marks_endBranch.mp written)

theorem finish (numbered : reader.Numbered outside) {node : Node}
    (finished : reader.finish = .ok node) :
    ∀ mark ∈ node.marks, ∃ number ≤ reader.groups.count, mark = some number := by
  have rested := numbered.leaveRests
  have groups := (leaveRests_keeps reader).1
  simp only [Reader.finish] at finished
  split at finished
  · cases finished
  split at finished
  · rename_i whole
    cases finished
    intro mark written
    rw [← groups]
    rcases Frame.mem_marks_node written with inside | ⟨number, capture, _⟩
    · exact rested.marks _ List.mem_cons_self mark inside
    · rw [whole] at capture
      cases capture
  · cases finished

end Numbered

theorem Reads.numbered {outside : Options} {reader last : Reader} {input rest : List Char}
    {tokens : List Token} (reads : Reads reader input tokens last rest)
    (numbered : reader.Numbered outside) (unkept : .node .keep ∉ tokens) :
    last.Numbered outside := by
  induction reads with
  | nothing => exact numbered
  | @next _ _ _ _ _ _ _ token tokens read added _ ih =>
      obtain ⟨here, later⟩ := List.ne_and_not_mem_of_not_mem_cons unkept
      exact ih (numbered.add (fun _ same => (Token.Plain.ofRead read).unmarked here same) added) later

end Reader

end Highlight.Pattern
