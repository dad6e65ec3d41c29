import Highlight.Tree.Html
import Mathlib.Logic.Basic

set_option autoImplicit false

/-! What the HTML of a tree is made of: an escaped text has no character that markup is written
with, and the classes of a container have such a character only if the prefix or the name has it. -/

namespace Highlight

def ContainerKind.name : ContainerKind → String
  | .scope name => name
  | .subLanguage language => language

namespace TreeNode

/-- What a text on a walk adds to the whole text. -/
def eventText : TreeEvent → List Char
  | .text content => content.toList
  | .enter _ => []
  | .leave => []

mutual

theorem walk_text (node : TreeNode) : node.walk.flatMap eventText = node.leafText.toList := by
  cases node with
  | text content => simp [walk, leafText, eventText]
  | container kind children => simp [walk, leafText, eventText, walkAll_text children]

theorem walkAll_text (nodes : List TreeNode) :
    (walkAll nodes).flatMap eventText = (leafTexts nodes).toList := by
  cases nodes with
  | nil => simp [walkAll, leafTexts]
  | cons node rest =>
    simp [walkAll, leafTexts, walk_text node, walkAll_text rest]

end

theorem walkAll_append (first second : List TreeNode) :
    walkAll (first ++ second) = walkAll first ++ walkAll second := by
  induction first with
  | nil => rfl
  | cons node rest ih => rw [List.cons_append, walkAll, walkAll, ih, List.append_assoc]

end TreeNode

theorem TokenTree.walk_text (tree : TokenTree) :
    tree.walk.flatMap TreeNode.eventText = tree.text.toList :=
  TreeNode.walkAll_text tree.children

namespace Html

theorem render_toList (classPrefix : String) (tree : TokenTree) :
    (render classPrefix tree).toList =
      tree.walk.flatMap fun event => (renderEvent classPrefix event).toList := by
  simp [render, List.flatMap_map]

@[simp] theorem toList_escape (text : String) :
    (escape text).toList = text.toList.flatMap escapeChar := by
  simp [escape]

/-- A character that starts or ends a tag, or the value of an attribute. -/
def IsMarkup (c : Char) : Prop :=
  c = '<' ∨ c = '>' ∨ c = '"'

instance (c : Char) : Decidable (IsMarkup c) :=
  inferInstanceAs (Decidable (_ ∨ _))

theorem isMarkup_less : IsMarkup '<' := .inl rfl

theorem isMarkup_more : IsMarkup '>' := .inr (.inl rfl)

theorem isMarkup_quote : IsMarkup '"' := .inr (.inr rfl)

/-- A text without any character that markup is written with. -/
def Tame (text : String) : Prop :=
  ∀ c ∈ text.toList, ¬IsMarkup c

instance (text : String) : Decidable (Tame text) :=
  List.decidableBAll (fun c => ¬IsMarkup c) text.toList

theorem not_isMarkup_escapeChar (c other : Char) (inside : other ∈ escapeChar c) :
    ¬IsMarkup other := by
  unfold escapeChar at inside
  split at inside
  iterate 5 exact @of_decide_eq_true _ (List.decidableBAll (fun c => ¬IsMarkup c) _) rfl other inside
  rename_i notMore notLess _ _ notQuote
  obtain rfl : other = c := by simpa using inside
  rintro (less | more | quote)
  · exact notLess less
  · exact notMore more
  · exact notQuote quote

theorem tame_escape (text : String) : Tame (escape text) := by
  intro c inside
  rw [toList_escape, List.mem_flatMap] at inside
  obtain ⟨written, _, inside⟩ := inside
  exact not_isMarkup_escapeChar written c inside

/-! ### The classes of a container -/

theorem mem_deeperClasses {c : Char} (notBlank : c ≠ ' ') (notUnderscore : c ≠ '_')
    (depth : Nat) (parts : List String) :
    c ∈ (deeperClasses depth parts).toList ↔ ∃ part ∈ parts, c ∈ part.toList := by
  induction parts generalizing depth with
  | nil => simp [deeperClasses]
  | cons part rest ih =>
    have notRepeated : c ∉ List.replicate depth '_' := fun inside =>
      notUnderscore (List.eq_of_mem_replicate inside)
    simp [deeperClasses, ih, notBlank, notRepeated]

theorem mem_splitOn {c separator : Char} (other : c ≠ separator) (chars : List Char) :
    (∃ part ∈ chars.splitOn separator, c ∈ part) ↔ c ∈ chars := by
  induction chars with
  | nil => simp
  | cons first rest ih =>
    rw [List.splitOn_cons_eq_if_modifyHead]
    split
    · rename_i separates
      obtain rfl : first = separator := by simpa using separates
      simpa [other] using ih
    · obtain ⟨head, tail, parts⟩ := List.exists_cons_of_ne_nil (List.splitOn_ne_nil separator rest)
      rw [parts] at ih ⊢
      simp only [List.modifyHead_cons, List.mem_cons, exists_eq_or_imp, ← ih, or_assoc]

/-- Apart from dots, blanks and underscores the classes of a scope have the characters of its name
and of the prefix. -/
theorem mem_scopeClass {c : Char} (notDot : c ≠ '.') (notBlank : c ≠ ' ') (notUnderscore : c ≠ '_')
    (classPrefix scope : String) :
    c ∈ (scopeClass classPrefix scope).toList ↔ c ∈ classPrefix.toList ∨ c ∈ scope.toList := by
  obtain ⟨first, deeper, parts⟩ :=
    List.exists_cons_of_ne_nil (List.splitOn_ne_nil '.' scope.toList)
  have inParts := mem_splitOn notDot scope.toList
  rw [parts] at inParts
  unfold scopeClass
  simp only [parts, List.map_cons, String.toList_append, List.mem_append, String.toList_ofList,
    mem_deeperClasses notBlank notUnderscore, List.mem_map, exists_exists_and_eq_and, ← inParts,
    List.mem_cons, exists_eq_or_imp, or_assoc]

/-- The characters of markup come into the classes of a container from its name and, for a scope,
from the prefix. -/
theorem mem_containerClass {c : Char} (markup : IsMarkup c) (classPrefix : String)
    (kind : ContainerKind) :
    c ∈ (containerClass classPrefix kind).toList ↔
      (∃ name, kind = .scope name ∧ c ∈ classPrefix.toList) ∨ c ∈ kind.name.toList := by
  cases kind with
  | scope name =>
    have others : c ≠ '.' ∧ c ≠ ' ' ∧ c ≠ '_' := by
      rcases markup with rfl | rfl | rfl <;> decide
    simp [containerClass, ContainerKind.name,
      mem_scopeClass others.1 others.2.1 others.2.2 classPrefix name]
  | subLanguage language =>
    have notFixed : c ∉ "language-".toList := by
      rcases markup with rfl | rfl | rfl <;> decide
    simp only [containerClass, ContainerKind.name, String.toList_append, List.mem_append, notFixed,
      false_or, reduceCtorEq, false_and, exists_false]

theorem tame_containerClass {classPrefix : String} {kind : ContainerKind}
    (tamePrefix : Tame classPrefix) (tameName : Tame kind.name) :
    Tame (containerClass classPrefix kind) := by
  intro c inside markup
  rcases (mem_containerClass markup classPrefix kind).mp inside with ⟨_, _, inside⟩ | inside
  · exact tamePrefix c inside markup
  · exact tameName c inside markup

end Html

end Highlight
