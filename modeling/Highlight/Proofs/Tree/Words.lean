import Highlight.Proofs.Tree.Leaves

set_option autoImplicit false

/-! The scoped words of a tree while it is being built: the texts that stand alone in a scope, in their
order. What a builder is given comes behind the words that it has, and none of them gets lost. What was
scanned with another grammar has its own words, which are not counted here. -/

namespace Highlight

open scoped List

namespace TreeNode

mutual

/-- The texts below a node that stand alone in a scope, with the names of their scopes. -/
def words : TreeNode → List (String × String)
  | .text _ => []
  | .container (.scope name) [.text word] => [(name, word)]
  | .container (.scope _) children => wordsAll children
  | .container (.subLanguage _) _ => []

def wordsAll : List TreeNode → List (String × String)
  | [] => []
  | node :: rest => words node ++ wordsAll rest

end

attribute [local simp] words wordsAll

@[simp] theorem words_text (text : String) : (TreeNode.text text).words = [] := by
  simp

@[simp] theorem words_subLanguage (language : String) (children : List TreeNode) :
    (TreeNode.container (.subLanguage language) children).words = [] := by
  simp

@[simp] theorem wordsAll_append (first second : List TreeNode) :
    wordsAll (first ++ second) = wordsAll first ++ wordsAll second := by
  induction first with
  | nil => simp
  | cons node rest ih => simp only [List.cons_append, wordsAll, ih, List.append_assoc]

@[simp] theorem wordsAll_singleton (node : TreeNode) : wordsAll [node] = node.words := by
  simp

theorem wordsAll_sublist_scope (name : String) (children : List TreeNode) :
    wordsAll children <+ (TreeNode.container (.scope name) children).words := by
  unfold words
  split
  · rename_i same
    cases same
  · rename_i same
    obtain ⟨_, rfl⟩ := TreeNode.container.inj same
    simp
  · rename_i same
    obtain ⟨_, rfl⟩ := TreeNode.container.inj same
    exact List.Sublist.refl _
  · rename_i same
    cases same

end TreeNode

def TokenTree.words (tree : TokenTree) : List (String × String) :=
  TreeNode.wordsAll tree.children

namespace TreeBuilder

open TreeNode

def openWords : List OpenScope → List (String × String)
  | [] => []
  | scope :: outer => openWords outer ++ wordsAll scope.children.reverse

def words (builder : TreeBuilder) : List (String × String) :=
  wordsAll builder.root.reverse ++ openWords builder.opened

theorem words_mapChildren (builder : TreeBuilder) (change : List TreeNode → List TreeNode)
    (added : List (String × String))
    (extends_ : ∀ children, wordsAll (change children).reverse = wordsAll children.reverse ++ added) :
    (builder.mapChildren change).words = builder.words ++ added := by
  obtain ⟨root, opened⟩ := builder
  cases opened with
  | nil => simp [mapChildren, words, openWords, extends_]
  | cons scope outer => simp [mapChildren, words, openWords, extends_, List.append_assoc]

@[simp] theorem words_addNode (builder : TreeBuilder) (node : TreeNode) :
    (builder.addNode node).words = builder.words ++ node.words :=
  words_mapChildren builder _ _ (fun children => by simp)

theorem wordsAll_appendText (added : String) (children : List TreeNode) :
    wordsAll (appendText added children).reverse = wordsAll children.reverse := by
  unfold appendText
  split
  · simp
  · simp

@[simp] theorem words_addText (builder : TreeBuilder) (added : String) :
    (builder.addText added).words = builder.words := by
  unfold addText
  split
  · rfl
  · have mapped := words_mapChildren builder (appendText added) []
      (fun children => by rw [wordsAll_appendText, List.append_nil])
    rwa [List.append_nil] at mapped

@[simp] theorem words_openScope (builder : TreeBuilder) (scope : String) :
    (builder.openScope scope).words = builder.words := by
  simp [openScope, words, openWords, wordsAll]

theorem words_closeScope (builder : TreeBuilder) : builder.words <+ builder.closeScope.words := by
  obtain ⟨root, opened⟩ := builder
  cases opened with
  | nil => exact List.Sublist.refl _
  | cons scope outer =>
      change _ <+ (TreeBuilder.addNode ⟨root, outer⟩ _).words
      rw [words_addNode]
      have same : TreeBuilder.words ⟨root, scope :: outer⟩ =
          TreeBuilder.words ⟨root, outer⟩ ++ wordsAll scope.children.reverse := by
        simp [words, openWords]
      rw [same]
      exact (wordsAll_sublist_scope scope.name scope.children.reverse).append_left _

theorem addScoped_eq_addNode (builder : TreeBuilder) {text : String} (filled : text.isEmpty = false)
    (scope : String) :
    builder.addScoped text scope = builder.addNode (.container (.scope scope) [.text text]) := by
  unfold addScoped addText
  rw [filled]
  rfl

theorem words_addScoped (builder : TreeBuilder) {text : String} (filled : text.isEmpty = false)
    (scope : String) : (builder.addScoped text scope).words = builder.words ++ [(scope, text)] := by
  rw [addScoped_eq_addNode builder filled, words_addNode]
  simp [TreeNode.words]

theorem words_addScoped_sublist (builder : TreeBuilder) (text scope : String) :
    builder.words <+ (builder.addScoped text scope).words := by
  cases filled : text.isEmpty with
  | true =>
      unfold addScoped
      rw [filled]
      exact List.Sublist.refl _
  | false =>
      rw [words_addScoped builder filled]
      exact List.sublist_append_left _ _

@[simp] theorem words_addSubLanguage (builder : TreeBuilder) (tree : TokenTree)
    (language : String) : (builder.addSubLanguage tree language).words = builder.words := by
  unfold addSubLanguage
  rw [words_addNode, words_subLanguage, List.append_nil]

theorem words_closeAll (builder : TreeBuilder) : builder.words <+ builder.closeAll.words := by
  have steps : ∀ (scopes : List OpenScope) (builder : TreeBuilder),
      builder.words <+ (scopes.foldl (fun builder _ => builder.closeScope) builder).words := by
    intro scopes
    induction scopes with
    | nil => exact fun builder => List.Sublist.refl _
    | cons scope rest ih => exact fun builder => (words_closeScope builder).trans (ih _)
  exact steps builder.opened builder

/-- What is still open at the end is closed without any word being lost. -/
theorem words_finish (builder : TreeBuilder) : builder.words <+ builder.finish.words := by
  have closed := words_closeAll builder
  rw [words, words, opened_closeAll, openWords, List.append_nil] at closed
  exact closed

end TreeBuilder

end Highlight
