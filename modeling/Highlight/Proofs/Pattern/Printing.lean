import Highlight.Proofs.Pattern.Walking
import Highlight.Proofs.Text.Digits
import Highlight.Unicode.Letters
import Mathlib.Data.List.Forall2

set_option autoImplicit false

/-! Composing acts on syntax trees. An `Expression` is a tree of literals, escapes, flat classes, groups,
choices, repetitions and references by number; `source` prints it. The composition of printed trees is the
print of the trees with their references raised, each in a group of its own, and the numbers that it gives
are those under which the groups are found in the tree of the whole.

A reference is printed with all its digits, so a tree can be printed where none of its references stands
before a literal digit: that is what `placedBefore` says. -/

namespace Highlight.Pattern

def metacharacters : List Char :=
  "\\^$.|?*+()[]".toList ++ [Char.ofNat 123, Char.ofNat 125]

namespace Expression

inductive Item where
  | char (c : Char) (flat : c ∉ ['[', ']', '\\'])
  | escaped (c : Char)
deriving DecidableEq

inductive NameMark where
  | angle
  | quote
  | python
deriving DecidableEq

inductive GroupKind where
  | capture
  | named (mark : NameMark) (first : Char) (others : List Char)
      (word : ∀ c ∈ first :: others, Unicode.isWordInText c = true)
  | plain
  | atomic
  | look (behind negated : Bool)
deriving DecidableEq

inductive Amount where
  | star
  | plus
  | optional
  | exactly (number : Nat)
  | atLeast (number : Nat)
  | atMost (number : Nat)
  | between (least most : Nat)
deriving DecidableEq

inductive Greed where
  | greedy
  | lazy
  | possessive
deriving DecidableEq

def Item.text : Item → List Char
  | char c _ => [c]
  | escaped c => ['\\', c]

def GroupKind.text : GroupKind → List Char
  | capture => []
  | named .angle first others _ => '?' :: '<' :: first :: others ++ ['>']
  | named .quote first others _ => '?' :: '\'' :: first :: others ++ ['\'']
  | named .python first others _ => '?' :: 'P' :: '<' :: first :: others ++ ['>']
  | plain => ['?', ':']
  | atomic => ['?', '>']
  | look false false => ['?', '=']
  | look false true => ['?', '!']
  | look true false => ['?', '<', '=']
  | look true true => ['?', '<', '!']

def GroupKind.isCapture : GroupKind → Bool
  | capture | named _ _ _ _ => true
  | _ => false

def digits (number : Nat) : List Char :=
  Nat.toDigits 10 number

def braced (bounds : List Char) : List Char :=
  Char.ofNat 123 :: bounds ++ [Char.ofNat 125]

def Amount.text : Amount → List Char
  | star => ['*']
  | plus => ['+']
  | optional => ['?']
  | exactly number => braced (digits number)
  | atLeast number => braced (digits number ++ [','])
  | atMost number => braced (',' :: digits number)
  | between least most => braced (digits least ++ ',' :: digits most)

def Greed.text : Greed → List Char
  | greedy => []
  | lazy => ['?']
  | possessive => ['+']

end Expression

open Expression in
inductive Expression where
  | empty
  | literal (c : Char) (plain : c ∉ metacharacters)
  | escaped (c : Char) (ordinary : c.isDigit = false ∧ c ≠ 'k')
  | bracket (negated : Bool) (first : Item) (others : List Item)
  | group (kind : GroupKind) (body : Expression)
  | reference (number : Nat) (positive : 0 < number)
  | concat (first second : Expression)
  | either (first second : Expression)
  | repeated (amount : Amount) (greed : Greed) (body : Expression)
deriving DecidableEq

namespace Expression

/-- A tree as text, its references written in some way. -/
def write (refer : Nat → List Char) : Expression → List Char
  | empty => []
  | literal c _ => [c]
  | escaped c _ => ['\\', c]
  | bracket negated first others =>
    '[' :: (if negated then ['^'] else []) ++ (first :: others).flatMap Item.text ++ [']']
  | group kind body => '(' :: kind.text ++ body.write refer ++ [')']
  | reference number _ => refer number
  | concat first second => first.write refer ++ second.write refer
  | either first second => first.write refer ++ '|' :: second.write refer
  | repeated amount greed body => body.write refer ++ amount.text ++ greed.text

def shortReference (number : Nat) : List Char :=
  '\\' :: digits number

/-- A reference as it is written in a composition: in the short form up to nine, between marks beyond. -/
def markedReference (number : Nat) : List Char :=
  if number ≤ 9 then shortReference number else '\\' :: 'k' :: '<' :: digits number ++ ['>']

def source (tree : Expression) : String :=
  String.ofList (tree.write shortReference)

def placedSource (tree : Expression) : String :=
  String.ofList (tree.write markedReference)

/-- The tree with a number added to that of each reference. -/
def raisedBy (offset : Nat) : Expression → Expression
  | group kind body => group kind (body.raisedBy offset)
  | reference number positive => reference (number + offset) (Nat.add_pos_left positive offset)
  | concat first second => concat (first.raisedBy offset) (second.raisedBy offset)
  | either first second => either (first.raisedBy offset) (second.raisedBy offset)
  | repeated amount greed body => repeated amount greed (body.raisedBy offset)
  | tree => tree

/-- The groups of the tree that remember their text, by what they hold, in the order in which they are
opened. -/
def captures : Expression → List Expression
  | group kind body => if kind.isCapture then body :: body.captures else body.captures
  | concat first second | either first second => first.captures ++ second.captures
  | repeated _ _ body => body.captures
  | _ => []

def group? (tree : Expression) : Nat → Option Expression
  | 0 => none
  | number + 1 => tree.captures[number]?

def references : Expression → List Nat
  | group _ body | repeated _ _ body => body.references
  | reference number _ => [number]
  | concat first second | either first second => first.references ++ second.references
  | _ => []

/-- Whether the tree can be printed before a character, or at the end: no reference in it stands before a
digit, and what is repeated is there. -/
def placedBefore : Expression → Option Char → Bool
  | group _ body, _ => body.placedBefore (some ')')
  | reference _ _, next => next.all (!·.isDigit)
  | concat first second, next =>
    first.placedBefore ((second.write shortReference).head?.or next) && second.placedBefore next
  | either first second, next => first.placedBefore (some '|') && second.placedBefore next
  | repeated amount _ body, _ =>
    !(body.write shortReference).isEmpty && body.placedBefore amount.text.head?
  | _, _ => true

attribute [local simp] write raisedBy captures

/-! ### What the walk makes of the pieces -/

theorem isDigit_of_mem_digits {number : Nat} {c : Char} (among : c ∈ digits number) :
    c.isDigit = true :=
  Nat.isDigit_of_mem_toDigits (by decide) (by decide) among

theorem foldl_digits (number : Nat) :
    (digits number).foldl (fun value digit => value * 10 + (digit.toNat - 48)) 0 = number := by
  have same := Nat.ofDigitChars_ten_toDigits (n := number)
  simp only [Nat.ofDigitChars, Nat.mul_comm 10] at same
  exact same

theorem referenceNumber?_digits {number : Nat} (positive : 0 < number)
    (small : number ≤ largestReference) : referenceNumber? (digits number) = some number := by
  have filled : digits number ≠ [] := Nat.toDigits_ne_nil
  have all : (digits number).all Char.isDigit = true :=
    List.all_eq_true.mpr fun c among => isDigit_of_mem_digits among
  have start : (digits number).head? ≠ some '0' := by
    intro zero
    obtain ⟨others, same⟩ := List.head?_eq_some_iff.mp zero
    exact Text.toDigits_ne_zero_cons positive others same
  unfold referenceNumber?
  rw [if_neg (by simp [filled, start, all]), foldl_digits, if_pos small]

/-- The digits of a reference are read as its number where no digit stands behind them. -/
theorem reference?_digits {number : Nat} (positive : 0 < number) (small : number ≤ largestReference)
    {rest : List Char} (ends : ∀ c ∈ rest.head?, c.isDigit = false) :
    reference? (digits number ++ rest) = some (number, (digits number).length) := by
  have taken := Text.takeWhile_toDigits number ends
  have read := referenceNumber?_digits positive small
  change (digits number ++ rest).takeWhile Char.isDigit = digits number at taken
  unfold reference?
  split
  · rename_i start
    cases first : digits number with
    | nil => exact absurd first Nat.toDigits_ne_nil
    | cons digit others =>
        rw [first, List.cons_append] at start
        have among : digit ∈ digits number := first ▸ List.mem_cons_self
        have passed := isDigit_of_mem_digits among
        rw [(List.cons.inj start).1] at passed
        exact absurd passed (by decide)
  · simp only [taken, read, Option.map_some]

theorem reference?_escaped {c : Char} (ordinary : c.isDigit = false ∧ c ≠ 'k') (rest : List Char) :
    reference? (c :: rest) = none := by
  unfold reference?
  split
  · rename_i start
    exact absurd (List.cons.inj start).1 ordinary.2
  · simp [ordinary.1, referenceNumber?]

theorem plain_digits (number : Nat) : Plain (digits number) :=
  fun _ among => looksBehind_of_passes Char.isDigit (isDigit_of_mem_digits among) (by decide)

theorem plain_braced {bounds : List Char} (plain : Plain bounds) : Plain (braced bounds) := by
  have opening : Plain [Char.ofNat 123] := by decide
  have closing : Plain [Char.ofNat 125] := by decide
  exact (opening.append plain).append closing

theorem plain_amount (amount : Amount) : Plain amount.text := by
  have comma : Plain [','] := by decide
  cases amount with
  | star => decide
  | plus => decide
  | optional => decide
  | exactly number => exact plain_braced (plain_digits number)
  | atLeast number => exact plain_braced ((plain_digits number).append comma)
  | atMost number => exact plain_braced (comma.append (plain_digits number))
  | between least most =>
      exact plain_braced ((plain_digits least).append (comma.append (plain_digits most)))

theorem plain_greed (greed : Greed) : Plain greed.text := by
  cases greed <;> decide

theorem plain_groupKind (kind : GroupKind) : Plain kind.text := by
  cases kind with
  | capture => decide
  | plain => decide
  | atomic => decide
  | look behind negated => cases behind <;> cases negated <;> decide
  | named mark first others word =>
      have name : Plain (first :: others) := fun c among =>
        looksBehind_of_passes Unicode.isWordInText (word c among) (by decide)
      cases mark with
      | angle =>
          have opening : Plain ['?', '<'] := by decide
          have closing : Plain ['>'] := by decide
          exact (opening.append name).append closing
      | quote =>
          have opening : Plain ['?', '\''] := by decide
          have closing : Plain ['\''] := by decide
          exact (opening.append name).append closing
      | python =>
          have opening : Plain ['?', 'P', '<'] := by decide
          have closing : Plain ['>'] := by decide
          exact (opening.append name).append closing

/-- A group is told from the others by what its parenthesis stands before, unless a plain one holds
something that starts with a question mark. -/
theorem opensCapture_groupKind (kind : GroupKind) {rest : List Char} (start : rest.head? ≠ some '?') :
    opensCapture (kind.text ++ rest) = kind.isCapture := by
  cases kind with
  | capture =>
      cases rest with
      | nil => rfl
      | cons c rest =>
          have other : c ≠ '?' := fun same => start (congrArg some same)
          simp only [GroupKind.text, List.nil_append, opensCapture]
          split <;> simp_all [GroupKind.isCapture]
  | plain => rfl
  | atomic => rfl
  | look behind negated => cases behind <;> cases negated <;> rfl
  | named mark first others word =>
      have named := word first List.mem_cons_self
      cases mark with
      | angle =>
          have equal : first ≠ '=' := fun same => absurd (same ▸ named) (by decide)
          have bang : first ≠ '!' := fun same => absurd (same ▸ named) (by decide)
          simp [GroupKind.text, opensCapture, GroupKind.isCapture, equal, bang]
      | quote => rfl
      | python => rfl

theorem classLength?_items (items : List Item) (rest : List Char) :
    classLength? (items.flatMap Item.text ++ ']' :: rest) =
      some ((items.flatMap Item.text).length + 1) := by
  induction items with
  | nil => simp [classLength?]
  | cons item items ih =>
      rw [List.flatMap_cons, List.append_assoc]
      cases item with
      | char c flat =>
          have closing : c ≠ ']' := fun same => flat (by simp [same])
          have backslash : c ≠ '\\' := fun same => flat (by simp [same])
          simp only [Item.text, List.singleton_append, List.length_cons]
          rw [classLength?]
          · rw [if_neg closing, ih]
            rfl
          · exact fun same _ => backslash same
          · exact fun _ _ same _ => backslash same
      | escaped c => simp [Item.text, classLength?, ih]

theorem writtenReference_eq (number : Nat) : writtenReference number = markedReference number := by
  have written : (toString number).toList = digits number := Nat.toList_repr
  unfold writtenReference markedReference
  rw [written]
  split <;> rfl

/-- No tree starts with the mark of a repetition where it is printed, so none turns a parenthesis before it
into another. -/
theorem head?_write {c : Char} (repeats : c ∈ ['*', '+', '?']) {tree : Expression} {next : Option Char}
    (placed : tree.placedBefore next = true) : (tree.write shortReference).head? ≠ some c := by
  have others : c ∈ metacharacters ∧ c ≠ '\\' ∧ c ≠ '[' ∧ c ≠ '(' ∧ c ≠ '|' := by
    simp only [List.mem_cons, List.not_mem_nil, or_false] at repeats
    rcases repeats with rfl | rfl | rfl <;> decide
  obtain ⟨sign, backslash, bracket, parenthesis, bar⟩ := others
  induction tree generalizing next with
  | empty => simp
  | literal d plain =>
      intro same
      cases same
      exact plain sign
  | escaped d ordinary => simp [backslash.symm]
  | bracket negated first others => simp [bracket.symm]
  | group kind body _ => simp [parenthesis.symm]
  | reference number positive => simp [shortReference, backslash.symm]
  | concat first second ihFirst ihSecond =>
      simp only [placedBefore, Bool.and_eq_true] at placed
      have start := ihFirst placed.1
      rw [write, List.head?_append]
      cases head : (first.write shortReference).head? with
      | none => exact ihSecond placed.2
      | some d => rwa [head] at start
  | either first second ihFirst _ =>
      simp only [placedBefore, Bool.and_eq_true] at placed
      have start := ihFirst placed.1
      rw [write, List.head?_append]
      cases head : (first.write shortReference).head? with
      | none => simp [bar.symm]
      | some d => rwa [head] at start
  | repeated amount greed body ih =>
      simp only [placedBefore, Bool.and_eq_true, Bool.not_eq_true', List.isEmpty_eq_false_iff]
        at placed
      rw [write, List.append_assoc, List.head?_append_of_ne_nil _ placed.1]
      exact ih placed.2

theorem head?_body {c : Char} (repeats : c ∈ ['*', '+', '?']) {body : Expression} {rest : List Char}
    (inside : body.placedBefore (some ')') = true) :
    (body.write shortReference ++ ')' :: rest).head? ≠ some c := by
  have start := head?_write repeats inside
  rw [List.head?_append]
  cases head : (body.write shortReference).head? with
  | none =>
      rintro same
      cases same
      exact absurd repeats (by decide)
  | some d => rwa [head] at start

theorem head?_amount (amount : Amount) (rest : List Char) :
    (amount.text ++ rest).head? = amount.text.head? := by
  cases amount <;> rfl

variable (offset : Nat)

theorem raiseFrom_bracket (negated : Bool) (first : Item) (others : List Item) (rest : List Char) :
    raiseFrom offset 0 0 ((bracket negated first others).write shortReference ++ rest) =
      (raiseFrom offset 0 0 rest).behind ((bracket negated first others).write markedReference) 0 := by
  have sign : '^' ∉ ['[', ']', '\\'] := by decide
  obtain ⟨items, members⟩ : ∃ items : List Item,
      (if negated then ['^'] else []) ++ (first :: others).flatMap Item.text =
        items.flatMap Item.text := by
    cases negated with
    | false => exact ⟨first :: others, rfl⟩
    | true => exact ⟨.char '^' sign :: first :: others, rfl⟩
  have ends : classLength? ((items.flatMap Item.text ++ [']']) ++ rest) =
      some (items.flatMap Item.text ++ [']']).length := by
    simpa using classLength?_items items rest
  have walked := raiseFrom_class offset ends
  simp only [write, ← members, List.cons_append, List.append_assoc] at walked ⊢
  exact walked

/-- What the walk makes of a printed tree, whatever stands behind it. -/
theorem raiseFrom_write {tree : Expression} {rest : List Char}
    (placed : tree.placedBefore rest.head? = true)
    (small : ∀ number ∈ tree.references, number ≤ largestReference) :
    raiseFrom offset 0 0 (tree.write shortReference ++ rest) =
      (raiseFrom offset 0 0 rest).behind ((tree.raisedBy offset).write markedReference)
        tree.captures.length := by
  -- what stands behind a part of the tree is not what stands behind the tree
  induction tree generalizing rest with
  | empty => simp
  | literal c plain =>
      have other : looksBehind c = false :=
        looksBehind_of_passes (· ∉ metacharacters) (decide_eq_true plain) (by decide)
      exact raiseFrom_plain offset other rest
  | escaped c ordinary => exact raiseFrom_escape offset (reference?_escaped ordinary rest)
  | bracket negated first others => exact raiseFrom_bracket offset negated first others rest
  | group kind body ih =>
      have inside : body.placedBefore (')' :: rest).head? = true := placed
      have start : (body.write shortReference ++ ')' :: rest).head? ≠ some '?' :=
        head?_body (by decide) inside
      have opened := opensCapture_groupKind kind start
      have closed := raiseFrom_plain offset (c := ')') (by decide) rest
      simp only [write, List.cons_append, List.append_assoc, List.nil_append] at opened ⊢
      rw [raiseFrom_opening, opened, raiseFrom_plainText offset (plain_groupKind kind),
        ih inside small, closed]
      cases capture : kind.isCapture <;> simp [capture, Nat.add_comm]
  | reference number positive =>
      have ends : ∀ c ∈ rest.head?, c.isDigit = false := by
        simpa [placedBefore, Option.all_eq_true] using placed
      have read := reference?_digits positive (small number List.mem_cons_self) ends
      rw [write, shortReference, List.cons_append, raiseFrom_reference offset read,
        writtenReference_eq]
      rfl
  | concat first second ihFirst ihSecond =>
      simp only [placedBefore, Bool.and_eq_true, ← List.head?_append] at placed
      simp only [references, List.mem_append] at small
      rw [write, List.append_assoc, ihFirst placed.1 fun number among => small number (.inl among),
        ihSecond placed.2 fun number among => small number (.inr among)]
      simp
  | either first second ihFirst ihSecond =>
      simp only [placedBefore, Bool.and_eq_true] at placed
      simp only [references, List.mem_append] at small
      have left := @ihFirst ('|' :: (second.write shortReference ++ rest)) placed.1
        fun number among => small number (.inl among)
      have right := ihSecond placed.2 fun number among => small number (.inr among)
      have bar := raiseFrom_plain offset (c := '|') (by decide) (second.write shortReference ++ rest)
      rw [write, List.append_assoc, List.cons_append, left, bar, right]
      simp
  | repeated amount greed body ih =>
      simp only [placedBefore, Bool.and_eq_true] at placed
      have inner := @ih (amount.text ++ (greed.text ++ rest))
        (by rw [head?_amount]; exact placed.2) small
      rw [write, List.append_assoc, List.append_assoc, inner,
        raiseFrom_plainText offset (plain_amount amount),
        raiseFrom_plainText offset (plain_greed greed)]
      simp

/-! ### Composing printed trees -/

/-- The number of the group of a fragment: one more than the groups before it, where each tree before it
has its own groups and the one around it. -/
def wrapper (trees : List Expression) (position : Nat) : Nat :=
  1 + ((trees.take position).map fun tree => 1 + tree.captures.length).sum

def wrapped (trees : List Expression) : List Expression :=
  trees.mapIdx fun position tree => group .capture (tree.raisedBy (wrapper trees position))

theorem wrapper_cons_succ (tree : Expression) (trees : List Expression) (position : Nat) :
    wrapper (tree :: trees) (position + 1) = 1 + tree.captures.length + wrapper trees position := by
  simp only [wrapper, List.take_succ_cons, List.map_cons, List.sum_cons]
  omega

theorem captures_raisedBy (tree : Expression) :
    (tree.raisedBy offset).captures = tree.captures.map (raisedBy offset) := by
  induction tree with
  | group kind body ih =>
      simp only [raisedBy, captures, ih]
      split <;> rfl
  | concat first second ihFirst ihSecond => simp [ihFirst, ihSecond]
  | either first second ihFirst ihSecond => simp [ihFirst, ihSecond]
  | repeated amount greed body ih => exact ih
  | _ => rfl

theorem raise_source {tree : Expression} (placed : tree.placedBefore none = true)
    (small : ∀ number ∈ tree.references, number ≤ largestReference) :
    raise offset tree.source =
      { source := (tree.raisedBy offset).write markedReference, groups := tree.captures.length } := by
  have walked : raiseFrom offset 0 0 (tree.write shortReference ++ []) = _ :=
    raiseFrom_write offset placed small
  simpa [raise, source, raiseFrom, Raised.behind] using walked

theorem placedSource_group (body : Expression) :
    (group .capture body).placedSource = "(" ++ body.placedSource ++ ")" := by
  simp [placedSource, GroupKind.text, String.ext_iff]

theorem wrapFragments_sources {trees : List Expression}
    (placed : ∀ tree ∈ trees, tree.placedBefore none = true)
    (small : ∀ tree ∈ trees, ∀ number ∈ tree.references, number ≤ largestReference) (seen : Nat) :
    wrapFragments seen (trees.map source) = trees.mapIdx fun position tree =>
      (seen + wrapper trees position, tree.captures.length,
        "(" ++ (tree.raisedBy (seen + wrapper trees position)).placedSource ++ ")") := by
  induction trees generalizing seen with
  | nil => rfl
  | cons tree trees ih =>
      have raised := raise_source (seen + 1) (placed tree List.mem_cons_self)
        (small tree List.mem_cons_self)
      have others := ih (fun other among => placed other (List.mem_cons_of_mem _ among))
        (fun other among => small other (List.mem_cons_of_mem _ among))
        (seen + 1 + tree.captures.length)
      have behind : ∀ position, seen + 1 + tree.captures.length + wrapper trees position =
          seen + wrapper (tree :: trees) (position + 1) := by
        intro position
        rw [wrapper_cons_succ]
        omega
      simp only [List.map_cons, wrapFragments, raised, others, List.mapIdx_cons, behind]
      rfl

/-- A way to put two trees side by side that prints a text between them and opens no group. -/
structure Joins (joint : String) (join : Expression → Expression → Expression) : Prop where
  written (first second : Expression) : (join first second).write markedReference =
    first.write markedReference ++ joint.toList ++ second.write markedReference
  unopened (first second : Expression) :
    (join first second).captures = first.captures ++ second.captures

theorem joins_either : Joins "|" either where
  written first second := by simp
  unopened _ _ := rfl

theorem joins_concat : Joins "" concat where
  written first second := by simp
  unopened _ _ := rfl

theorem joins_between {separator : Expression} (unopened : separator.captures = []) :
    Joins separator.placedSource fun first second => concat first (concat separator second) where
  written first second := by simp [placedSource]
  unopened first second := by simp [unopened]

def joined (join : Expression → Expression → Expression) : List Expression → Expression
  | [] => empty
  | [tree] => tree
  | tree :: trees => join tree (joined join trees)

section Joining

variable {joint : String} {join : Expression → Expression → Expression}

theorem joined_cons_cons (first second : Expression) (others : List Expression) :
    joined join (first :: second :: others) = join first (joined join (second :: others)) := rfl

theorem placedSource_joined (joins : Joins joint join) (trees : List Expression) :
    (joined join trees).placedSource = joint.intercalate (trees.map placedSource) := by
  induction trees with
  | nil => rfl
  | cons tree trees ih =>
      cases trees with
      | nil => simp [joined]
      | cons next others =>
          have behind : (joined join (next :: others)).write markedReference =
              (joint.intercalate ((next :: others).map placedSource)).toList := by
            rw [← ih, placedSource, String.toList_ofList]
          rw [joined_cons_cons, List.map_cons, List.map_cons, String.intercalate_cons_cons,
            ← List.map_cons, placedSource, joins.written, behind]
          simp [placedSource, String.ext_iff]

theorem captures_joined (joins : Joins joint join) (trees : List Expression) :
    (joined join trees).captures = trees.flatMap captures := by
  induction trees with
  | nil => rfl
  | cons tree trees ih =>
      cases trees with
      | nil => simp [joined]
      | cons next others =>
          rw [joined_cons_cons, joins.unopened, ih]
          exact List.flatMap_cons.symm

theorem getElem?_flatMap_captures {trees : List Expression} {position k : Nat}
    (inside : position < trees.length) (held : k < trees[position].captures.length) :
    (trees.flatMap captures)[((trees.take position).map (·.captures.length)).sum + k]? =
      trees[position].captures[k]? := by
  induction trees generalizing position with
  | nil => exact absurd inside (Nat.not_lt_zero _)
  | cons tree trees ih =>
      cases position with
      | zero => simpa using List.getElem?_append_left held
      | succ position =>
          rw [List.flatMap_cons, List.take_succ_cons, List.map_cons, List.sum_cons, Nat.add_assoc,
            List.getElem?_append_right (Nat.le_add_right _ _), Nat.add_sub_cancel_left]
          exact ih (Nat.lt_of_succ_lt_succ inside) held

theorem sum_captures_wrapped (trees : List Expression) (position : Nat) :
    1 + (((wrapped trees).take position).map (·.captures.length)).sum = wrapper trees position := by
  have lengths : (wrapped trees).map (·.captures.length) =
      trees.map fun tree => 1 + tree.captures.length := by
    apply List.ext_getElem
    · simp [wrapped]
    · intro at_ here there
      simp [wrapped, GroupKind.isCapture, captures_raisedBy, Nat.add_comm]
  rw [wrapper, List.map_take, List.map_take, lengths]

theorem group?_joined (joins : Joins joint join) {trees : List Expression} {position k : Nat}
    (inside : position < trees.length) (held : k ≤ trees[position].captures.length) :
    (joined join (wrapped trees)).group? (wrapper trees position + k) =
      (group .capture (trees[position].raisedBy (wrapper trees position))).group? (k + 1) := by
  have inside_ : position < (wrapped trees).length := by simpa [wrapped] using inside
  have here : (wrapped trees)[position] =
      group .capture (trees[position].raisedBy (wrapper trees position)) := by
    simp [wrapped]
  have held_ : k < (wrapped trees)[position].captures.length := by
    rw [here]
    simpa [GroupKind.isCapture, captures_raisedBy] using Nat.lt_succ_of_le held
  have counted := getElem?_flatMap_captures inside_ held_
  have number : wrapper trees position + k =
      (((wrapped trees).take position).map (·.captures.length)).sum + k + 1 := by
    have sum := sum_captures_wrapped trees position
    omega
  rw [number, group?, captures_joined joins, counted, here, group?]

end Joining

/-- The composition of printed trees is the print of the trees with their references raised, each in a
group of its own. The groups of each tree are numbered behind those of the trees before it, so that its
groups are found under the number of the group around it and their own, wherever the trees are put side
by side with a joint that opens no group. -/
theorem compose_trees {trees : List Expression} (joint : String)
    (placed : ∀ tree ∈ trees, tree.placedBefore none = true)
    (small : ∀ position (inside : position < trees.length),
      ∀ number ∈ trees[position].references, number + wrapper trees position ≤ largestReference) :
    compose (trees.map source) joint =
      { source := joint.intercalate ((wrapped trees).map placedSource)
        wrappers := (List.range trees.length).map (wrapper trees)
        groupCounts := trees.map (·.captures.length) } ∧
    ∀ join, Joins joint join →
      (joined join (wrapped trees)).placedSource = (compose (trees.map source) joint).source ∧
      ∀ position (inside : position < trees.length), ∀ k ≤ trees[position].captures.length,
        (joined join (wrapped trees)).group? (wrapper trees position + k) =
          (group .capture (trees[position].raisedBy (wrapper trees position))).group? (k + 1) := by
  have bounded : ∀ tree ∈ trees, ∀ number ∈ tree.references, number ≤ largestReference := by
    intro tree among number refers
    obtain ⟨position, inside, rfl⟩ := List.getElem_of_mem among
    exact (Nat.le_add_right _ _).trans (small position inside number refers)
  have composed : compose (trees.map source) joint =
      { source := joint.intercalate ((wrapped trees).map placedSource)
        wrappers := (List.range trees.length).map (wrapper trees)
        groupCounts := trees.map (·.captures.length) } := by
    have fragments := wrapFragments_sources placed bounded 0
    have sources : (wrapFragments 0 (trees.map source)).map (·.2.2) =
        (wrapped trees).map placedSource := by
      rw [fragments]
      apply List.ext_getElem <;> simp [wrapped, placedSource_group]
    have numbers : (wrapFragments 0 (trees.map source)).map (·.1) =
        (List.range trees.length).map (wrapper trees) := by
      rw [fragments]
      apply List.ext_getElem <;> simp
    have counts : (wrapFragments 0 (trees.map source)).map (·.2.1) =
        trees.map (·.captures.length) := by
      rw [fragments]
      apply List.ext_getElem <;> simp
    simp only [compose, sources, numbers, counts]
  constructor
  · exact composed
  · intro join joins
    constructor
    · rw [composed, placedSource_joined joins]
    · intro position inside k held
      exact group?_joined joins inside held

/-- The trees of `(a)\1` and `(?<n>b)\1`, as a choice, one after the other and with a comma between them. -/
theorem compose_trees_doubled :
    let trees := [
      concat (group .capture (literal 'a' (by decide))) (reference 1 (by decide)),
      concat (group (.named .angle 'n' [] (List.forall_mem_singleton.mpr (by decide)))
        (literal 'b' (by decide))) (reference 1 (by decide))]
    let comma := literal ',' (by decide)
    let apart := fun first second => concat first (concat comma second)
    (∀ tree ∈ trees, tree.placedBefore none = true) ∧
    (∀ position (inside : position < trees.length),
      ∀ number ∈ trees[position].references, number + wrapper trees position ≤ largestReference) ∧
    compose (trees.map source) "|" =
      { source := "|".intercalate ((wrapped trees).map placedSource)
        wrappers := [1, 3]
        groupCounts := [1, 1] } ∧
    (Joins "|" either ∧ (joined either (wrapped trees)).group? 4 = some (literal 'b' (by decide))) ∧
    (Joins "" concat ∧ (joined concat (wrapped trees)).group? 4 = some (literal 'b' (by decide))) ∧
    Joins comma.placedSource apart ∧
      (joined apart (wrapped trees)).group? 4 = some (literal 'b' (by decide)) := by
  intro trees comma apart
  have placed : ∀ tree ∈ trees, tree.placedBefore none = true := by decide
  have small : ∀ position (inside : position < trees.length),
      ∀ number ∈ trees[position].references,
        number + wrapper trees position ≤ largestReference := by decide
  have found : ∀ {joint join}, Joins joint join →
      (joined join (wrapped trees)).group? 4 = some (literal 'b' (by decide)) := fun {joint join} joins =>
    ((compose_trees joint placed small).2 join joins).2 1 (by decide) 1 (by decide)
  have between : Joins comma.placedSource apart := joins_between rfl
  exact ⟨placed, small, (compose_trees "|" placed small).1, ⟨joins_either, found joins_either⟩,
    ⟨joins_concat, found joins_concat⟩, between, found between⟩

/-- A reference that is too large for a group is left as it is. The groups of a joint are not counted: behind `(x)`
the second group is the one of the joint. -/
theorem compose_trees_bounded :
    (compose [source (reference 99999999999999999999999 (by decide))] "|").source ≠
      "(" ++ (raisedBy 1 (reference 99999999999999999999999 (by decide))).placedSource ++ ")" ∧
    (let trees := [literal 'a' (by decide), literal 'b' (by decide)]
    let between := group .capture (literal 'x' (by decide))
    let whole := joined (fun first second => concat first (concat between second)) (wrapped trees)
    (compose (trees.map source) between.source).source = whole.source ∧
    (compose (trees.map source) between.source).wrappers = [1, 2] ∧
    whole.group? 2 ≠ some (literal 'b' (by decide))) := by
  decide +kernel

end Expression

end Highlight.Pattern
