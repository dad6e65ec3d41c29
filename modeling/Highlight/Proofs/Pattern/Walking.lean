import Highlight.Pattern.Composition

set_option autoImplicit false

/-! Going through a fragment piece by piece. Most characters are taken as they are; only at an opening
bracket, a backslash and an opening parenthesis does the walk look at what stands behind. For each kind of
piece there is one equation: what it adds to the source and to the groups, with any text behind it. -/

namespace Highlight.Pattern

def looksBehind (c : Char) : Bool :=
  c = '[' || c = '\\' || c = '('

/-- A text in which the walk looks behind no character. -/
def Plain (text : List Char) : Prop :=
  ∀ c ∈ text, looksBehind c = false

instance (text : List Char) : Decidable (Plain text) :=
  decidable_of_iff (text.all fun c => !looksBehind c) (by simp [Plain])

theorem Plain.append {first second : List Char} (left : Plain first) (right : Plain second) :
    Plain (first ++ second) := by
  intro c among
  rcases List.mem_append.mp among with inFirst | inSecond
  · exact left c inFirst
  · exact right c inSecond

theorem looksBehind_of_ne {c : Char} (bracket : c ≠ '[') (backslash : c ≠ '\\')
    (parenthesis : c ≠ '(') : looksBehind c = false := by
  simp [looksBehind, bracket, backslash, parenthesis]

/-- A character is taken as it is if something holds of it that does not hold of the three others. -/
theorem looksBehind_of_passes (passes : Char → Bool) {c : Char} (passed : passes c = true)
    (others : passes '[' = false ∧ passes '\\' = false ∧ passes '(' = false) :
    looksBehind c = false := by
  apply looksBehind_of_ne
  · rintro rfl
    exact absurd passed (Bool.eq_false_iff.mp others.1)
  · rintro rfl
    exact absurd passed (Bool.eq_false_iff.mp others.2.1)
  · rintro rfl
    exact absurd passed (Bool.eq_false_iff.mp others.2.2)

namespace Raised

def behind (raised : Raised) (text : List Char) (groups : Nat) : Raised where
  source := text ++ raised.source
  groups := groups + raised.groups

@[simp] theorem source_behind (raised : Raised) (text : List Char) (groups : Nat) :
    (raised.behind text groups).source = text ++ raised.source := rfl

@[simp] theorem groups_behind (raised : Raised) (text : List Char) (groups : Nat) :
    (raised.behind text groups).groups = groups + raised.groups := rfl

@[simp] theorem behind_nil (raised : Raised) : raised.behind [] 0 = raised := by
  simp [behind]

@[simp] theorem behind_behind (raised : Raised) (first second : List Char) (more less : Nat) :
    (raised.behind second less).behind first more = raised.behind (first ++ second) (more + less) := by
  simp [behind, Nat.add_assoc]

theorem push_eq_behind (raised : Raised) (c : Char) : raised.push c = raised.behind [c] 0 := by
  simp [push, behind]

end Raised

attribute [local simp] raiseFrom

variable (offset : Nat)

theorem raiseFrom_copied (text rest : List Char) :
    raiseFrom offset text.length 0 (text ++ rest) = (raiseFrom offset 0 0 rest).behind text 0 := by
  induction text with
  | nil => simp
  | cons c text ih =>
      rw [List.length_cons, List.cons_append, raiseFrom, ih, Raised.push_eq_behind,
        Raised.behind_behind]
      rfl

theorem raiseFrom_dropped (text rest : List Char) :
    raiseFrom offset 0 text.length (text ++ rest) = raiseFrom offset 0 0 rest := by
  induction text with
  | nil => rfl
  | cons c text ih => rw [List.length_cons, List.cons_append, raiseFrom, ih]

theorem raiseFrom_plain {c : Char} (plain : looksBehind c = false) (rest : List Char) :
    raiseFrom offset 0 0 (c :: rest) = (raiseFrom offset 0 0 rest).behind [c] 0 := by
  simp only [looksBehind, Bool.or_eq_false_iff, decide_eq_false_iff_not] at plain
  rw [raiseFrom]
  · exact Raised.push_eq_behind _ _
  · exact plain.1.1
  · exact plain.1.2
  · exact plain.2

theorem raiseFrom_plainText {text : List Char} (plain : Plain text)
    (rest : List Char) :
    raiseFrom offset 0 0 (text ++ rest) = (raiseFrom offset 0 0 rest).behind text 0 := by
  induction text with
  | nil => simp
  | cons c text ih =>
      have others := ih fun other among => plain other (List.mem_cons_of_mem _ among)
      rw [List.cons_append, raiseFrom_plain offset (plain c List.mem_cons_self), others,
        Raised.behind_behind]
      rfl

/-- A backslash that starts no reference takes the next character with it. -/
theorem raiseFrom_escape {c : Char} {rest : List Char} (other : reference? (c :: rest) = none) :
    raiseFrom offset 0 0 ('\\' :: c :: rest) =
      (raiseFrom offset 0 0 rest).behind ['\\', c] 0 := by
  simp only [raiseFrom, other, Raised.push_eq_behind, Raised.behind_behind]
  rfl

theorem raiseFrom_reference {written rest : List Char} {number : Nat}
    (refers : reference? (written ++ rest) = some (number, written.length)) :
    raiseFrom offset 0 0 ('\\' :: (written ++ rest)) =
      (raiseFrom offset 0 0 rest).behind (writtenReference (number + offset)) 0 := by
  simp only [raiseFrom, refers, raiseFrom_dropped]
  simp [Raised.behind]

/-- A class is taken as it is up to where it is found to end. -/
theorem raiseFrom_class {members rest : List Char}
    (ends : classLength? (members ++ rest) = some members.length) :
    raiseFrom offset 0 0 ('[' :: (members ++ rest)) =
      (raiseFrom offset 0 0 rest).behind ('[' :: members) 0 := by
  simp only [raiseFrom, ends, Option.getD_some, raiseFrom_copied, Raised.push_eq_behind,
    Raised.behind_behind]
  rfl

theorem raiseFrom_opening (rest : List Char) :
    raiseFrom offset 0 0 ('(' :: rest) =
      (raiseFrom offset 0 0 rest).behind ['('] (if opensCapture rest then 1 else 0) := by
  simp only [raiseFrom, Raised.push_eq_behind]
  split
  · simp [Raised.behind, Nat.add_comm]
  · rfl

end Highlight.Pattern
