import Highlight.Proofs.Pattern.Reading.Basic

set_option autoImplicit false

/-! Reading names: those of properties and groups, and what a reference names. -/

namespace Highlight.Pattern

open Outcome

theorem propertyName_readsTo {name input rest : List Char} {found : String}
    (read : propertyName name input = .ok (found, rest)) :
    ReadsTo (propertyName name) (fun rest => .ok (found, rest)) input rest := by
  induction input generalizing name with
  | nil => cases read
  | cons c input ih =>
      rw [propertyName] at read
      split at read
      · rename_i brace
        cases read
        apply ReadsTo.taken [c]
        intro other
        rw [List.singleton_append, propertyName, if_pos brace]
      · rename_i brace
        split at read
        · cases read
        · rename_i letter
          apply (ih read).onward [c]
          intro other
          rw [List.singleton_append, propertyName, if_neg brace, if_neg letter]

def propertyOf (flipped : Bool) (input : List Char) : Except PatternError (CharSet × List Char) := do
  let (name, after) ← propertyName [] input
  match CharSet.ofProperty? name with
  | some set => return (if flipped then .complement set else set, after)
  | none => .error (.unknownProperty name)

theorem property_flipped (negated : Bool) (input : List Char) :
    property negated ('^' :: input) = propertyOf (!negated) input := rfl

theorem property_plain (negated : Bool) {c : Char} (other : c ≠ '^') (input : List Char) :
    property negated (c :: input) = propertyOf negated (c :: input) := by
  unfold property
  split
  rename_i flipped rest found
  split at found
  · rename_i same
    cases same
    exact absurd rfl other
  · cases found
    rfl

theorem propertyOf_readsTo {flipped : Bool} {input rest : List Char} {set : CharSet}
    (read : propertyOf flipped input = .ok (set, rest)) :
    ReadsTo (propertyOf flipped) (fun rest => .ok (set, rest)) input rest := by
  obtain ⟨⟨name, after⟩, named, read⟩ := bind_eq_ok.mp read
  dsimp only at read
  split at read
  · rename_i found
    cases read
    obtain ⟨used, taken, reads⟩ := propertyName_readsTo named
    refine ⟨used, taken, ?_⟩
    intro other alike
    simp only [propertyOf, reads other alike, ok_bind, found]
    rfl
  · cases read

theorem property_readsTo {negated : Bool} {input rest : List Char} {set : CharSet}
    (read : property negated input = .ok (set, rest)) :
    ReadsTo (property negated) (fun rest => .ok (set, rest)) input rest := by
  cases input with
  | nil => cases read
  | cons c input =>
      by_cases circumflex : c = '^'
      · subst circumflex
        rw [property_flipped] at read
        exact (propertyOf_readsTo read).onward ['^'] fun _ => rfl
      · rw [property_plain negated circumflex] at read
        exact (propertyOf_readsTo read).sameHead fun other => property_plain negated circumflex other

theorem ofName_eq_ok {name rest : List Char} {referent : Referent}
    (named : Referent.ofName name rest = .ok referent) (other : List Char) :
    Referent.ofName name other = .ok referent := by
  cases name with
  | nil => cases named
  | cons first body =>
      simp only [Referent.ofName] at named ⊢
      generalize ofDigits 10 _ = number at named ⊢
      split at named
      · rw [if_pos ‹_›]
        split at named
        · cases named
        · rw [if_neg ‹_›]
          split at named
          · cases named
          · rw [if_neg ‹_›]
            exact named
      · rw [if_neg ‹_›]
        exact named

theorem referent_readsTo {mark : Char} {input rest : List Char} {referent : Referent}
    {level : Option Int} (read : Referent.read mark input = .ok (referent, level, rest)) :
    ReadsTo (Referent.read mark) (fun rest => .ok (referent, level, rest)) input rest := by
  cases input with
  | nil => cases read
  | cons first input =>
      simp only [Referent.read] at read
      split at read
      · cases read
      rename_i named
      obtain ⟨used, taken, again⟩ := takeWhile_again
        (fun c => c ≠ mark && c ≠ ')' && c ≠ '+' && c ≠ '-') input
      rw [drop_takeWhile] at read
      generalize input.takeWhile _ = body at read again
      generalize input.dropWhile _ = beyond at read taken again
      split at read
      · cases read
      · cases read
      · split at read <;> cases read
      rename_i c after sound
      simp only [List.isEmpty_cons] at sound
      split at read
      · rename_i marked
        obtain ⟨found, same, read⟩ := bind_eq_ok.mp read
        cases read
        refine ⟨first :: (used ++ [c]), by simp [taken], ?_⟩
        intro other alike
        obtain ⟨takes, drops⟩ := again (c :: other) (alike.same c)
        simp only [List.cons_append, List.append_assoc, List.nil_append, Referent.read, if_neg named,
          takes, drops, List.isEmpty_cons, sound, if_pos marked, ofName_eq_ok same, ok_bind]
        rfl
      · rename_i marked
        split at read
        · cases read
        rename_i inside
        split at read
        · rename_i depth end_ beyond found
          obtain ⟨digits, among, readsDepth⟩ := takeNumber?_readsTo found
          split at read
          · cases read
          rename_i small
          split at read
          · rename_i ends
            obtain ⟨found, same, read⟩ := bind_eq_ok.mp read
            cases read
            refine ⟨first :: (used ++ c :: (digits ++ [end_])), by simp [taken, among], ?_⟩
            intro other alike
            have more : Alike after (digits ++ end_ :: other) := by
              rw [among]
              exact (alike.same end_).append digits
            obtain ⟨takes, drops⟩ := again (c :: (digits ++ end_ :: other)) (more.same c)
            have depth := readsDepth (end_ :: other) (alike.same end_)
            simp only [List.cons_append, List.append_assoc, List.nil_append, Referent.read,
              if_neg named, takes, drops, List.isEmpty_cons, sound, if_neg marked, if_neg inside,
              depth, if_neg small, if_pos ends, ofName_eq_ok same, ok_bind]
            rfl
          · cases read
        · cases read
        · split at read <;> cases read

def referTo (ignoreCase : Bool) (groups : GroupNames) (referent : Referent) (level : Option Int) :
    Except PatternError Token :=
  let node (numbers : List Nat) : Token :=
    .node (if level.all (· = 0) then .reference numbers ignoreCase else .set .empty)
  let numbered (number : Int) : Except PatternError Token :=
    if number ≤ 0 then .error .badReference else .ok (node [number.toNat])
  match referent with
  | .absolute number => numbered number
  | .relative distance =>
    numbered (if 0 < distance then groups.count + distance else groups.count + 1 + distance)
  | .name name =>
    match groups.numbers name with
    | [] => .error (.unknownName name)
    | numbers => .ok (node numbers)

theorem referTo_eq_ok {ignoreCase : Bool} {groups : GroupNames} {referent : Referent}
    {level : Option Int} {token : Token}
    (refers : referTo ignoreCase groups referent level = .ok token) :
    ∃ numbers, token =
      .node (if level.all (· = 0) then .reference numbers ignoreCase else .set .empty) := by
  cases referent with
  | absolute number =>
      dsimp only [referTo] at refers
      split at refers
      · cases refers
      · exact ⟨_, (Except.ok.inj refers).symm⟩
  | relative distance =>
      dsimp only [referTo] at refers
      generalize (if 0 < distance then (groups.count : Int) + distance
        else groups.count + 1 + distance) = number at refers
      split at refers
      · cases refers
      · exact ⟨_, (Except.ok.inj refers).symm⟩
  | name name =>
      dsimp only [referTo] at refers
      split at refers
      · cases refers
      · exact ⟨_, (Except.ok.inj refers).symm⟩

theorem namedReference_eq (mark : Char) (ignoreCase : Bool) (groups : GroupNames)
    (input : List Char) :
    namedReference mark ignoreCase groups input =
      Referent.read mark input >>= fun found =>
        (referTo ignoreCase groups found.1 found.2.1).map fun token => (token, found.2.2) := by
  unfold namedReference
  congr 1
  funext found
  obtain ⟨referent, level, after⟩ := found
  cases referent with
  | absolute number =>
      dsimp only [referTo]
      split <;> rfl
  | relative distance =>
      dsimp only [referTo]
      generalize (if 0 < distance then (groups.count : Int) + distance
        else groups.count + 1 + distance) = number
      split <;> rfl
  | name name =>
      dsimp only [referTo]
      cases groups.numbers name <;> rfl

theorem namedReference_eq_ok {mark : Char} {ignoreCase : Bool} {groups : GroupNames}
    {input rest : List Char} {token : Token}
    (read : namedReference mark ignoreCase groups input = .ok (token, rest)) :
    ∃ referent level, Referent.read mark input = .ok (referent, level, rest) ∧
      referTo ignoreCase groups referent level = .ok token := by
  rw [namedReference_eq] at read
  obtain ⟨⟨referent, level, after⟩, found, read⟩ := bind_eq_ok.mp read
  cases refers : referTo ignoreCase groups referent level with
  | error failure =>
      rw [refers] at read
      cases read
  | ok token =>
      rw [refers] at read
      cases read
      exact ⟨referent, level, found, refers⟩

theorem namedReference_readsTo {mark : Char} {ignoreCase : Bool} {groups : GroupNames}
    {input rest : List Char} {token : Token}
    (read : namedReference mark ignoreCase groups input = .ok (token, rest)) :
    ReadsTo (namedReference mark ignoreCase groups) (fun rest => .ok (token, rest)) input rest := by
  obtain ⟨referent, level, found, refers⟩ := namedReference_eq_ok read
  obtain ⟨used, taken, reads⟩ := referent_readsTo found
  refine ⟨used, taken, ?_⟩
  intro other alike
  rw [namedReference_eq, reads other alike, ok_bind]
  dsimp only
  rw [refers]
  rfl

theorem readName_readsTo {mark : Char} {input rest : List Char} {name : String}
    (read : GroupNames.readName mark input = .ok (name, rest)) :
    ReadsTo (GroupNames.readName mark) (fun rest => .ok (name, rest)) input rest := by
  cases input with
  | nil => cases read
  | cons first input =>
      simp only [GroupNames.readName, List.length_cons, List.drop_succ_cons, drop_takeWhile] at read
      split at read
      · cases read
      rename_i marked
      split at read
      · cases read
      rename_i letter
      split at read
      · cases read
      rename_i word
      obtain ⟨used, taken, again⟩ := takeWhile_again (fun c => c ≠ mark && c ≠ ')') input
      split at read
      · cases read
      rename_i c after beyond
      rw [beyond] at taken again
      split at read
      · rename_i ends
        cases read
        refine ⟨first :: (used ++ [c]), by simp [taken], ?_⟩
        intro other alike
        obtain ⟨takes, drops⟩ := again (c :: other) (alike.same c)
        simp only [List.cons_append, List.append_assoc, List.nil_append, GroupNames.readName,
          if_neg marked, if_neg letter, if_neg word, List.length_cons, List.drop_succ_cons, takes,
          drops, if_pos ends]
      · cases read

end Highlight.Pattern
