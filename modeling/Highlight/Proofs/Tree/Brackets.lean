import Highlight.Tree.Builder

set_option autoImplicit false

/-! Reading brackets. The reader goes through a text character by character and keeps a stack of what it has
read within the brackets that are open; it knows nothing of patterns or modes. What it has read is what a
builder holds that opens a scope in front of each opening bracket and closes it behind the closing one. -/

namespace Highlight

namespace TreeBuilder

theorem mapChildren_mapChildren (builder : TreeBuilder) (first second : List TreeNode → List TreeNode) :
    (builder.mapChildren first).mapChildren second = builder.mapChildren (second ∘ first) := by
  obtain ⟨root, opened⟩ := builder
  cases opened <;> rfl

@[simp] theorem addText_empty (builder : TreeBuilder) : builder.addText "" = builder := rfl

theorem appendText_appendText (first second : String) (children : List TreeNode) :
    appendText second (appendText first children) = appendText (first ++ second) children := by
  rcases children with _ | ⟨_ | _, rest⟩
  · rfl
  · simp only [appendText, String.append_assoc]
  · rfl

theorem addText_addText (builder : TreeBuilder) (first second : String) :
    (builder.addText first).addText second = builder.addText (first ++ second) := by
  by_cases firstEmpty : first = ""
  · rw [firstEmpty, addText_empty, String.empty_append]
  · by_cases secondEmpty : second = ""
    · rw [secondEmpty, addText_empty, String.append_empty]
    · simp only [addText, String.isEmpty_iff, String.append_eq_empty_iff, firstEmpty, secondEmpty,
        and_self, if_false, mapChildren_mapChildren]
      exact congrArg _ (funext (appendText_appendText first second))

end TreeBuilder

namespace Brackets

/-- What has been read of a text. The nodes outside of all brackets and those within each open bracket
stand in reverse, the innermost bracket first. -/
structure Reader where
  outside : List TreeNode := []
  opened : List (List TreeNode) := []
  /-- How many brackets have been closed. -/
  closed : Nat := 0

def addChar (c : Char) : List TreeNode → List TreeNode
  | .text last :: rest => .text (last.push c) :: rest
  | nodes => .text (String.singleton c) :: nodes

def bracket (nodes : List TreeNode) : TreeNode :=
  .container (.scope "paren") nodes.reverse

namespace Reader

/-- Changes the nodes within the innermost open bracket, or those outside if none is open. -/
def change (f : List TreeNode → List TreeNode) (reader : Reader) : Reader :=
  match reader.opened with
  | [] => { reader with outside := f reader.outside }
  | nodes :: outer => { reader with opened := f nodes :: outer }

def close (reader : Reader) : Reader :=
  match reader.opened with
  | [] => reader
  | nodes :: outer => { reader with opened := outer }.change (bracket nodes :: ·)

def readChar (reader : Reader) (c : Char) : Reader :=
  if c = '(' then { reader with opened := [.text "("] :: reader.opened }
  else if c = ')' && !reader.opened.isEmpty then
    { (reader.change (addChar c)).close with closed := reader.closed + 1 }
  else reader.change (addChar c)

def readFrom (reader : Reader) (chars : List Char) : Reader :=
  chars.foldl readChar reader

def closeMany : Nat → Reader → Reader
  | 0, reader => reader
  | count + 1, reader => closeMany count reader.close

/-- The nodes of the text, where brackets that are open at its end are closed there. -/
def tree (reader : Reader) : TokenTree :=
  ⟨(closeMany reader.opened.length reader).outside.reverse⟩

end Reader

def read (text : String) : Reader :=
  Reader.readFrom {} text.toList

example : (read "a(b)c)(").tree = ⟨[.text "a", .container (.scope "paren") [.text "(b)"],
    .text "c)", .container (.scope "paren") [.text "("]]⟩ := by
  rfl

namespace Reader

def builder (reader : Reader) : TreeBuilder where
  root := reader.outside
  opened := reader.opened.map fun nodes => { name := "paren", children := nodes }

variable {reader : Reader}

def depth (reader : Reader) : Nat :=
  reader.opened.length

theorem builder_change (f : List TreeNode → List TreeNode) (reader : Reader) :
    (reader.change f).builder = reader.builder.mapChildren f := by
  obtain ⟨outside, opened, closed⟩ := reader
  cases opened <;> rfl

theorem depth_change (f : List TreeNode → List TreeNode) (reader : Reader) :
    (reader.change f).depth = reader.depth := by
  obtain ⟨outside, opened, closed⟩ := reader
  cases opened <;> rfl

theorem closed_change (f : List TreeNode → List TreeNode) (reader : Reader) :
    (reader.change f).closed = reader.closed := by
  obtain ⟨outside, opened, closed⟩ := reader
  cases opened <;> rfl

theorem builder_close (reader : Reader) : reader.close.builder = reader.builder.closeScope := by
  obtain ⟨outside, opened, closed⟩ := reader
  cases opened with
  | nil => rfl
  | cons nodes outer => exact builder_change _ ⟨outside, outer, closed⟩

theorem depth_close (reader : Reader) : reader.close.depth = reader.depth - 1 := by
  obtain ⟨outside, opened, closed⟩ := reader
  cases opened with
  | nil => rfl
  | cons nodes outer => exact depth_change _ ⟨outside, outer, closed⟩

theorem builder_closeMany (scopes : List OpenScope) (reader : Reader) :
    (closeMany scopes.length reader).builder =
      scopes.foldl (fun builder _ => builder.closeScope) reader.builder := by
  induction scopes generalizing reader with
  | nil => rfl
  | cons scope rest ih => rw [List.foldl_cons, ← builder_close, ← ih]; rfl

theorem tree_eq_finish (reader : Reader) : reader.tree = reader.builder.finish := by
  have closes := builder_closeMany reader.builder.opened reader
  have count : reader.builder.opened.length = reader.opened.length := by simp [builder]
  rw [count] at closes
  rw [tree, TreeBuilder.finish, TreeBuilder.closeAll, ← closes]
  rfl

/-! ### Reading one character -/

/-- Whether a character is text where so many brackets are open. -/
def isPlain (depth : Nat) (c : Char) : Bool :=
  c ≠ '(' && (c ≠ ')' || depth = 0)

theorem mapChildren_addChar (builder : TreeBuilder) (c : Char) :
    builder.mapChildren (addChar c) = builder.addText (String.singleton c) := by
  have same : addChar c = TreeBuilder.appendText (String.singleton c) := by
    funext nodes
    rcases nodes with _ | ⟨_ | _, rest⟩
    · rfl
    · simp only [addChar, TreeBuilder.appendText, String.append_singleton]
    · rfl
  rw [same]
  unfold TreeBuilder.addText
  simp

theorem readChar_plain {c : Char} (plain : isPlain reader.depth c = true) :
    reader.readChar c = reader.change (addChar c) := by
  obtain ⟨notOpen, text⟩ : c ≠ '(' ∧ (c ≠ ')' ∨ reader.depth = 0) := by
    simpa [isPlain] using plain
  have keeps : (c = ')' && !reader.opened.isEmpty) = false := by
    rcases text with notClose | empty
    · simp [notClose]
    · simp [List.length_eq_zero_iff.mp empty]
  rw [readChar, if_neg notOpen, keeps, if_neg Bool.false_ne_true]

theorem builder_readChar_open (reader : Reader) :
    (reader.readChar '(').builder = (reader.builder.openScope "paren").addText "(" := rfl

/-- A closing bracket is the last text of the bracket that it closes. -/
theorem readChar_close (inside : reader.depth ≠ 0) :
    (reader.readChar ')').builder = (reader.builder.addText ")").closeScope ∧
      (reader.readChar ')').depth = reader.depth - 1 ∧
      (reader.readChar ')').closed = reader.closed + 1 := by
  have some_ : reader.opened.isEmpty = false := by
    simpa [depth, List.length_eq_zero_iff] using inside
  have read : reader.readChar ')' =
      { (reader.change (addChar ')')).close with closed := reader.closed + 1 } := by
    simp [readChar, some_]
  rw [read]
  refine ⟨?_, ?_, rfl⟩
  · calc ({ (reader.change (addChar ')')).close with closed := reader.closed + 1 } : Reader).builder
        = (reader.change (addChar ')')).close.builder := rfl
      _ = (reader.builder.mapChildren (addChar ')')).closeScope := by
        rw [builder_close, builder_change]
      _ = (reader.builder.addText ")").closeScope := by rw [mapChildren_addChar]; rfl
  · exact (depth_close _).trans (by rw [depth_change])

theorem readFrom_plain {chars : List Char} (plain : ∀ c ∈ chars, isPlain reader.depth c = true) :
    (reader.readFrom chars).builder = reader.builder.addText (String.ofList chars) ∧
      (reader.readFrom chars).depth = reader.depth ∧
      (reader.readFrom chars).closed = reader.closed := by
  induction chars generalizing reader with
  | nil => exact ⟨rfl, rfl, rfl⟩
  | cons c rest ih =>
      have first := readChar_plain (plain c List.mem_cons_self)
      have others : ∀ d ∈ rest, isPlain (reader.readChar c).depth d = true := by
        rw [first, depth_change]
        exact fun d member => plain d (List.mem_cons_of_mem _ member)
      obtain ⟨built, depth, closed⟩ := ih others
      rw [first] at built depth closed
      rw [builder_change, mapChildren_addChar, TreeBuilder.addText_addText] at built
      rw [depth_change] at depth
      rw [closed_change] at closed
      have joined : String.singleton c ++ String.ofList rest = String.ofList (c :: rest) := by
        rw [String.singleton_eq_ofList, ← String.ofList_append]
        rfl
      rw [joined] at built
      rw [← first] at built depth closed
      exact ⟨built, depth, closed⟩

theorem readFrom_append (reader : Reader) (first second : List Char) :
    reader.readFrom (first ++ second) = (reader.readFrom first).readFrom second :=
  List.foldl_append

theorem closed_readChar_le (reader : Reader) (c : Char) :
    (reader.readChar c).closed ≤ reader.closed + 1 := by
  unfold readChar
  split
  · exact Nat.le_succ _
  · split
    · exact Nat.le_refl _
    · rw [closed_change]
      exact Nat.le_succ _

/-- No more brackets are closed than there are characters. -/
theorem closed_readFrom_le (reader : Reader) (chars : List Char) :
    (reader.readFrom chars).closed ≤ reader.closed + chars.length := by
  induction chars generalizing reader with
  | nil => exact Nat.le_refl _
  | cons c rest ih =>
      have onward := ih (reader.readChar c)
      have first := closed_readChar_le reader c
      rw [List.length_cons]
      exact Nat.le_trans onward (by omega)

end Reader

end Brackets

end Highlight
