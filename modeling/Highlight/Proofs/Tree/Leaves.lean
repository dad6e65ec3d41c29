import Highlight.Tree.Builder

set_option autoImplicit false

/-! The text of a tree while it is being built. A builder holds its children in reverse and its open
scopes from the inside out; read from left to right they give one text. Every operation adds to the
end of that text what it was given, and opening and closing scopes leave it as it is. -/

namespace Highlight

namespace TreeNode

@[simp] theorem leafTexts_append (first second : List TreeNode) :
    leafTexts (first ++ second) = leafTexts first ++ leafTexts second := by
  induction first with
  | nil => simp [leafTexts]
  | cons node rest ih => simp only [List.cons_append, leafTexts, ih, String.append_assoc]

@[simp] theorem leafTexts_singleton (node : TreeNode) : leafTexts [node] = leafText node := by
  simp [leafTexts]

end TreeNode

namespace TreeBuilder

open TreeNode

/-- The text of the open scopes, the outermost first. -/
def openText : List OpenScope → String
  | [] => ""
  | scope :: outer => openText outer ++ leafTexts scope.children.reverse

def text (builder : TreeBuilder) : String :=
  leafTexts builder.root.reverse ++ openText builder.opened

def openNames (builder : TreeBuilder) : List String :=
  builder.opened.map OpenScope.name

@[simp] theorem text_empty : ({} : TreeBuilder).text = "" := by
  simp [text, openText, leafTexts]

@[simp] theorem openNames_empty : ({} : TreeBuilder).openNames = [] := rfl

/-- A change of the innermost children that puts a text behind them does the same to the whole. -/
theorem text_mapChildren (builder : TreeBuilder) (change : List TreeNode → List TreeNode)
    (added : String)
    (extends_ : ∀ children,
      leafTexts (change children).reverse = leafTexts children.reverse ++ added) :
    (builder.mapChildren change).text = builder.text ++ added := by
  obtain ⟨root, opened⟩ := builder
  cases opened with
  | nil => simp [mapChildren, text, openText, extends_]
  | cons scope outer => simp [mapChildren, text, openText, extends_, String.append_assoc]

theorem openNames_mapChildren (builder : TreeBuilder)
    (change : List TreeNode → List TreeNode) :
    (builder.mapChildren change).openNames = builder.openNames := by
  obtain ⟨root, opened⟩ := builder
  cases opened <;> rfl

theorem leafTexts_appendText (added : String) (children : List TreeNode) :
    leafTexts (appendText added children).reverse = leafTexts children.reverse ++ added := by
  unfold appendText
  split
  · simp [leafText, String.append_assoc]
  · simp [leafText]

@[simp] theorem text_addText (builder : TreeBuilder) (added : String) :
    (builder.addText added).text = builder.text ++ added := by
  unfold addText
  split
  · rename_i empty
    obtain rfl : added = "" := by simpa using empty
    simp
  · exact text_mapChildren builder _ added (leafTexts_appendText added)

@[simp] theorem openNames_addText (builder : TreeBuilder) (added : String) :
    (builder.addText added).openNames = builder.openNames := by
  unfold addText
  split
  · rfl
  · exact openNames_mapChildren builder _

@[simp] theorem text_addNode (builder : TreeBuilder) (node : TreeNode) :
    (builder.addNode node).text = builder.text ++ leafText node :=
  text_mapChildren builder _ _ (fun children => by simp)

@[simp] theorem openNames_addNode (builder : TreeBuilder) (node : TreeNode) :
    (builder.addNode node).openNames = builder.openNames :=
  openNames_mapChildren builder _

@[simp] theorem text_openScope (builder : TreeBuilder) (scope : String) :
    (builder.openScope scope).text = builder.text := by
  simp [openScope, text, openText, leafTexts]

@[simp] theorem openNames_openScope (builder : TreeBuilder) (scope : String) :
    (builder.openScope scope).openNames = scope :: builder.openNames := rfl

@[simp] theorem text_closeScope (builder : TreeBuilder) :
    builder.closeScope.text = builder.text := by
  obtain ⟨root, opened⟩ := builder
  cases opened with
  | nil => rfl
  | cons scope outer =>
      change (TreeBuilder.addNode ⟨root, outer⟩ _).text = _
      rw [text_addNode]
      simp [text, openText, leafText, String.append_assoc]

@[simp] theorem openNames_closeScope (builder : TreeBuilder) :
    builder.closeScope.openNames = builder.openNames.tail := by
  obtain ⟨root, opened⟩ := builder
  cases opened with
  | nil => rfl
  | cons scope outer =>
      change (TreeBuilder.addNode ⟨root, outer⟩ _).openNames = _
      rw [openNames_addNode]
      rfl

@[simp] theorem text_addScoped (builder : TreeBuilder) (added scope : String) :
    (builder.addScoped added scope).text = builder.text ++ added := by
  unfold addScoped
  split
  · rename_i empty
    obtain rfl : added = "" := by simpa using empty
    simp
  · simp

@[simp] theorem openNames_addScoped (builder : TreeBuilder) (added scope : String) :
    (builder.addScoped added scope).openNames = builder.openNames := by
  unfold addScoped
  split
  · rfl
  · simp

@[simp] theorem text_addSubLanguage (builder : TreeBuilder) (tree : TokenTree)
    (language : String) :
    (builder.addSubLanguage tree language).text = builder.text ++ tree.text :=
  text_addNode builder _

@[simp] theorem openNames_addSubLanguage (builder : TreeBuilder) (tree : TokenTree)
    (language : String) :
    (builder.addSubLanguage tree language).openNames = builder.openNames :=
  openNames_addNode builder _

private theorem closeAll_steps (scopes : List OpenScope) (builder : TreeBuilder) :
    (scopes.foldl (fun builder _ => builder.closeScope) builder).text = builder.text ∧
      (scopes.foldl (fun builder _ => builder.closeScope) builder).openNames =
        builder.openNames.drop scopes.length := by
  induction scopes generalizing builder with
  | nil => simp
  | cons scope rest ih =>
      obtain ⟨sameText, dropped⟩ := ih builder.closeScope
      refine ⟨by simpa using sameText, ?_⟩
      simpa [Nat.add_comm] using dropped

@[simp] theorem text_closeAll (builder : TreeBuilder) : builder.closeAll.text = builder.text :=
  (closeAll_steps builder.opened builder).1

theorem opened_closeAll (builder : TreeBuilder) : builder.closeAll.opened = [] := by
  have dropped : builder.closeAll.openNames = [] := by
    rw [closeAll, (closeAll_steps builder.opened builder).2]
    simp [openNames]
  exact List.map_eq_nil_iff.mp dropped

/-- What is still open at the end is closed without any text being lost. -/
@[simp] theorem text_finish (builder : TreeBuilder) : builder.finish.text = builder.text := by
  rw [← text_closeAll builder]
  simp [finish, TokenTree.text, text, opened_closeAll, openText]

end TreeBuilder

@[simp] theorem TokenTree.text_plain (text : String) : (TokenTree.plain text).text = text := by
  simp [TokenTree.plain]

end Highlight
