import Highlight.Proofs.Tree.Leaves
import Highlight.Proofs.Tree.Markup
import Mathlib.Data.List.Chain

set_option autoImplicit false

/-! What comes of the operations on a tree builder, in whatever order and number they are made. The
builder keeps the open scopes with their children; seen from outside there is only a row of events, of
which each operation adds its own at the end. Walking through the finished tree gives these events
back, the texts that follow each other merged, and the tree has no other leaves than these texts. -/

namespace Highlight

/-! ### Trees in normal form -/

namespace TreeNode

def isText : TreeNode → Bool
  | text _ => true
  | container _ _ => false

/-- Whether two nodes can stand beside each other: two leaves would have become one. -/
def Apart (left right : TreeNode) : Prop :=
  left.isText = true → right.isText = false

/-- No leaf is empty, and no two leaves stand beside each other. -/
inductive Normal : TreeNode → Prop where
  | text {content : String} (filled : content ≠ "") : Normal (.text content)
  | container {kind : ContainerKind} {children : List TreeNode} (apart : children.IsChain Apart)
      (each : ∀ child ∈ children, Normal child) : Normal (.container kind children)

structure NormalAll (nodes : List TreeNode) : Prop where
  apart : nodes.IsChain Apart
  each : ∀ node ∈ nodes, node.Normal

namespace NormalAll

variable {nodes : List TreeNode}

theorem nil : NormalAll [] :=
  ⟨List.IsChain.nil, by simp⟩

theorem tail {node : TreeNode} (normal : NormalAll (node :: nodes)) : NormalAll nodes :=
  ⟨normal.apart.tail, fun child member => normal.each child (List.mem_cons_of_mem _ member)⟩

theorem reverse (normal : NormalAll nodes) : NormalAll nodes.reverse where
  apart := by
    rw [List.isChain_reverse]
    refine normal.apart.imp fun left right apart isText => ?_
    by_contra leftText
    have clash := apart (by simpa using leftText)
    rw [isText] at clash
    cases clash
  each := fun node member => normal.each node (List.mem_reverse.mp member)

theorem container (normal : NormalAll nodes) (kind : ContainerKind) :
    (TreeNode.container kind nodes).Normal :=
  .container normal.apart normal.each

theorem cons {node : TreeNode} (normal : NormalAll nodes) (itself : node.Normal)
    (apart : ∀ next ∈ nodes.head?, node.Apart next) : NormalAll (node :: nodes) where
  apart := List.isChain_cons.mpr ⟨apart, normal.apart⟩
  each := fun child member => by
    rcases List.mem_cons.mp member with rfl | later
    · exact itself
    · exact normal.each child later

end NormalAll

end TreeNode

def TokenTree.Normal (tree : TokenTree) : Prop :=
  TreeNode.NormalAll tree.children

/-! ### Events with texts merged -/

namespace TreeEvent

/-- Puts a text in front of events, as part of the first one if that is text. -/
def mergeText (content : String) : List TreeEvent → List TreeEvent
  | .text next :: rest => .text (content ++ next) :: rest
  | events => .text content :: events

/-- The events with each run of texts as one text. -/
def merged : List TreeEvent → List TreeEvent
  | [] => []
  | .text content :: rest => mergeText content (merged rest)
  | .enter kind :: rest => .enter kind :: merged rest
  | .leave :: rest => .leave :: merged rest

def StartsApart (events : List TreeEvent) : Prop :=
  ∀ content rest, events ≠ .text content :: rest

theorem mergeText_apart {events : List TreeEvent} (apart : StartsApart events) (content : String) :
    mergeText content events = .text content :: events := by
  unfold mergeText
  split
  · exact absurd rfl (apart _ _)
  · rfl

theorem mergeText_mergeText (first second : String) (events : List TreeEvent) :
    mergeText first (mergeText second events) = mergeText (first ++ second) events := by
  rcases events with _ | ⟨_ | _ | _, rest⟩
  · rfl
  · simp only [mergeText, String.append_assoc]
  · rfl
  · rfl

/-- What is merged behind some events depends only on what comes of it when merged alone. -/
theorem merged_append_congr (front : List TreeEvent) {first second : List TreeEvent}
    (same : merged first = merged second) : merged (front ++ first) = merged (front ++ second) := by
  induction front with
  | nil => exact same
  | cons event rest ih => cases event <;> simp only [List.cons_append, merged, ih]

theorem merged_mergeText (content : String) (events rest : List TreeEvent) :
    merged (mergeText content events ++ rest) = mergeText content (merged (events ++ rest)) := by
  rcases events with _ | ⟨next | _ | _, others⟩
  · rfl
  · rw [mergeText, List.cons_append, merged, List.cons_append, merged, mergeText_mergeText]
  · rfl
  · rfl

theorem merged_merged_append (events rest : List TreeEvent) :
    merged (merged events ++ rest) = merged (events ++ rest) := by
  induction events with
  | nil => rfl
  | cons event others ih =>
      cases event with
      | text content => rw [merged, merged_mergeText, ih, List.cons_append, merged]
      | enter kind => simp only [merged, List.cons_append, ih]
      | leave => simp only [merged, List.cons_append, ih]

theorem merged_congr_append {first second : List TreeEvent} (same : merged first = merged second)
    (rest : List TreeEvent) : merged (first ++ rest) = merged (second ++ rest) := by
  rw [← merged_merged_append first, same, merged_merged_append]

end TreeEvent

namespace TreeNode

open TreeEvent

theorem startsApart_walk {node : TreeNode} (inner : node.isText = false) (rest : List TreeEvent) :
    StartsApart (node.walk ++ rest) := by
  cases node with
  | text content => cases inner
  | container kind children =>
      intro text others same
      rw [walk] at same
      cases same

mutual

/-- A walk through what is in normal form has no texts to merge. -/
theorem merged_walk {node : TreeNode} (normal : node.Normal) {rest : List TreeEvent}
    (apart : node.isText = true → StartsApart (merged rest)) :
    merged (node.walk ++ rest) = node.walk ++ merged rest := by
  cases node with
  | text content =>
      rw [walk, List.cons_append, List.nil_append, merged, mergeText_apart (apart rfl)]
      rfl
  | container kind children =>
      cases normal with
      | container between each =>
          have behind : StartsApart (merged (.leave :: rest)) := fun _ _ same => by cases same
          have inner := merged_walkAll ⟨between, each⟩ behind
          rw [walk, List.append_assoc, List.cons_append, merged, List.singleton_append, inner, merged]
          simp

theorem merged_walkAll {nodes : List TreeNode} (normal : NormalAll nodes) {rest : List TreeEvent}
    (apart : StartsApart (merged rest)) :
    merged (walkAll nodes ++ rest) = walkAll nodes ++ merged rest := by
  cases nodes with
  | nil => rfl
  | cons node others =>
      have behind := merged_walkAll normal.tail apart
      have between : node.isText = true → StartsApart (merged (walkAll others ++ rest)) := by
        intro isText
        rw [behind]
        cases others with
        | nil => exact apart
        | cons next later =>
            have inner := (List.isChain_cons_cons.mp normal.apart).1 isText
            rw [walkAll, List.append_assoc]
            exact startsApart_walk inner _
      have itself := merged_walk (normal.each node List.mem_cons_self) between
      rw [walkAll, List.append_assoc, itself, behind, List.append_assoc]

end

end TreeNode

theorem TokenTree.Normal.merged_walk {tree : TokenTree} (normal : tree.Normal) :
    TreeEvent.merged tree.walk = tree.walk := by
  have nothing : TreeEvent.StartsApart (TreeEvent.merged []) := fun _ _ same => by cases same
  have walked := TreeNode.merged_walkAll normal nothing
  simpa [TreeEvent.merged, TokenTree.walk] using walked

/-! ### Operations -/

namespace TreeBuilder

inductive Operation where
  | text (text : String)
  /-- Adds a text with a scope of its own. -/
  | word (text scope : String)
  | openScope (scope : String)
  | closeScope
  | closeAll
  /-- Adds a tree that was built of operations of its own. -/
  | subLanguage (operations : List Operation) (language : String)

namespace Operation

mutual

def apply (builder : TreeBuilder) : Operation → TreeBuilder
  | text content => builder.addText content
  | word content scope => builder.addScoped content scope
  | openScope scope => builder.openScope scope
  | closeScope => builder.closeScope
  | closeAll => builder.closeAll
  | subLanguage operations language =>
    builder.addSubLanguage (applyAll {} operations).finish language

def applyAll (builder : TreeBuilder) : List Operation → TreeBuilder
  | [] => builder
  | operation :: rest => applyAll (operation.apply builder) rest

end

/-- How many scopes are open after an operation, given how many were before. -/
def opensTo (depth : Nat) : Operation → Nat
  | openScope _ => depth + 1
  | closeScope => depth - 1
  | closeAll => 0
  | text _ | word _ _ | subLanguage _ _ => depth

mutual

/-- What an operation stands for while so many scopes are open: an empty text for nothing, and a close
for nothing if there is no scope to close. -/
def events (depth : Nat) : Operation → List TreeEvent
  | text content => if content.isEmpty then [] else [.text content]
  | word content scope =>
    if content.isEmpty then [] else [.enter (.scope scope), .text content, .leave]
  | openScope scope => [.enter (.scope scope)]
  | closeScope => if depth = 0 then [] else [.leave]
  | closeAll => List.replicate depth .leave
  | subLanguage operations language =>
    .enter (.subLanguage language) :: allEvents 0 operations ++ [.leave]

/-- What operations stand for one after another, the missing closes at the end. -/
def allEvents (depth : Nat) : List Operation → List TreeEvent
  | [] => List.replicate depth .leave
  | operation :: rest => operation.events depth ++ allEvents (operation.opensTo depth) rest

end

mutual

def addedText : Operation → String
  | text content => content
  | word content _ => content
  | openScope _ | closeScope | closeAll => ""
  | subLanguage operations _ => allText operations

def allText : List Operation → String
  | [] => ""
  | operation :: rest => operation.addedText ++ allText rest

end

end Operation

open TreeNode TreeEvent

/-! ### A builder as a row of events -/

/-- The events that have led to the open scopes, the outermost first. -/
def openWalk : List OpenScope → List TreeEvent
  | [] => []
  | scope :: outer => openWalk outer ++ .enter (.scope scope.name) :: walkAll scope.children.reverse

def walked (builder : TreeBuilder) : List TreeEvent :=
  walkAll builder.root.reverse ++ openWalk builder.opened

variable {builder : TreeBuilder}

/-- A change of the innermost children changes the end of the events only. -/
theorem exists_walked_mapChildren (builder : TreeBuilder) : ∃ front children,
    builder.walked = front ++ walkAll children.reverse ∧
      ∀ change, (builder.mapChildren change).walked = front ++ walkAll (change children).reverse := by
  obtain ⟨root, opened⟩ := builder
  cases opened with
  | nil => exact ⟨[], root, by simp [walked, openWalk], by simp [walked, mapChildren, openWalk]⟩
  | cons scope outer =>
      refine ⟨walkAll root.reverse ++ openWalk outer ++ [.enter (.scope scope.name)],
        scope.children, ?_, fun change => ?_⟩
      · simp [walked, openWalk]
      · simp [walked, mapChildren, openWalk]

theorem walked_addNode (builder : TreeBuilder) (node : TreeNode) :
    (builder.addNode node).walked = builder.walked ++ node.walk := by
  obtain ⟨front, children, before, after⟩ := builder.exists_walked_mapChildren
  rw [addNode, after, before, List.reverse_cons, walkAll_append, List.append_assoc]
  simp [walkAll]

theorem walkAll_appendText (text : String) (children : List TreeNode) (rest : List TreeEvent) :
    merged (walkAll (appendText text children).reverse ++ rest) =
      merged (walkAll children.reverse ++ .text text :: rest) := by
  unfold appendText
  split
  · -- the text becomes part of the last leaf
    rename_i last others
    simp only [List.reverse_cons, walkAll_append, List.append_assoc]
    apply merged_append_congr
    simp only [walkAll, walk, List.append_nil, List.cons_append, List.nil_append, merged,
      mergeText_mergeText]
  · simp [walkAll_append, walkAll, walk]

theorem merged_addText (builder : TreeBuilder) {text : String} (filled : text.isEmpty = false)
    (rest : List TreeEvent) :
    merged ((builder.addText text).walked ++ rest) = merged (builder.walked ++ .text text :: rest) := by
  obtain ⟨front, children, before, after⟩ := builder.exists_walked_mapChildren
  rw [addText, filled, if_neg Bool.false_ne_true, after, before, List.append_assoc, List.append_assoc]
  exact merged_append_congr front (walkAll_appendText text children rest)

theorem walked_openScope (builder : TreeBuilder) (scope : String) :
    (builder.openScope scope).walked = builder.walked ++ [.enter (.scope scope)] := by
  simp [openScope, walked, openWalk, walkAll]

theorem length_openNames (builder : TreeBuilder) :
    builder.opened.length = builder.openNames.length := by
  simp [openNames]

theorem length_closeScope (builder : TreeBuilder) :
    builder.closeScope.opened.length = builder.opened.length - 1 := by
  simp [length_openNames]

theorem walked_closeScope (builder : TreeBuilder) :
    builder.closeScope.walked =
      builder.walked ++ if builder.opened.length = 0 then [] else [.leave] := by
  obtain ⟨root, opened⟩ := builder
  cases opened with
  | nil => simp [closeScope]
  | cons scope outer =>
      change (TreeBuilder.addNode ⟨root, outer⟩ _).walked = _
      rw [walked_addNode]
      simp [walked, openWalk, walk]

private theorem walked_closeAllFrom (scopes : List OpenScope) (builder : TreeBuilder)
    (open_ : builder.opened.length = scopes.length) :
    (scopes.foldl (fun builder _ => builder.closeScope) builder).walked =
      builder.walked ++ List.replicate scopes.length .leave := by
  induction scopes generalizing builder with
  | nil => simp
  | cons scope rest ih =>
      rw [List.length_cons] at open_
      have closed : builder.closeScope.opened.length = rest.length := by
        rw [length_closeScope, open_, Nat.add_sub_cancel]
      rw [List.foldl_cons, ih builder.closeScope closed, walked_closeScope, open_,
        if_neg (Nat.succ_ne_zero _), List.append_assoc, List.length_cons, List.replicate_succ]
      rfl

theorem walked_closeAll (builder : TreeBuilder) :
    builder.closeAll.walked = builder.walked ++ List.replicate builder.opened.length .leave :=
  walked_closeAllFrom builder.opened builder rfl

theorem walk_finish (builder : TreeBuilder) :
    builder.finish.walk = builder.walked ++ List.replicate builder.opened.length .leave := by
  rw [← walked_closeAll, walked, opened_closeAll, openWalk, List.append_nil]
  rfl

/-! ### Builders in normal form -/

structure Normal (builder : TreeBuilder) : Prop where
  root : NormalAll builder.root
  opened : ∀ scope ∈ builder.opened, NormalAll scope.children

theorem Normal.mapChildren (normal : builder.Normal) {change : List TreeNode → List TreeNode}
    (keeps : ∀ children, NormalAll children → NormalAll (change children)) :
    (builder.mapChildren change).Normal := by
  obtain ⟨root, opened⟩ := builder
  cases opened with
  | nil => exact ⟨keeps root normal.root, normal.opened⟩
  | cons scope outer =>
      refine ⟨normal.root, fun other member => ?_⟩
      rcases List.mem_cons.mp member with rfl | outside
      · exact keeps _ (normal.opened scope List.mem_cons_self)
      · exact normal.opened other (List.mem_cons_of_mem _ outside)

theorem Normal.addText (normal : builder.Normal) (text : String) : (builder.addText text).Normal := by
  unfold TreeBuilder.addText
  split
  · exact normal
  · rename_i filled
    refine normal.mapChildren fun children inside => ?_
    unfold appendText
    split
    · rename_i last rest
      have joined : last ++ text ≠ "" := by
        intro empty
        exact filled (by simpa using (String.append_eq_empty_iff.mp empty).2)
      exact inside.tail.cons (.text joined) (List.isChain_cons.mp inside.apart).1
    · rename_i noText
      refine inside.cons (.text (by simpa using filled)) fun next first _ => ?_
      cases next with
      | container kind children => rfl
      | text last =>
          obtain ⟨rest, rfl⟩ := List.head?_eq_some_iff.mp first
          exact absurd rfl (noText last rest)

theorem Normal.addContainer (normal : builder.Normal) {kind : ContainerKind}
    {children : List TreeNode} (inside : NormalAll children) :
    (builder.addNode (.container kind children)).Normal :=
  normal.mapChildren fun _ others =>
    others.cons (inside.container kind) fun _ _ isText => by cases isText

theorem Normal.openScope (normal : builder.Normal) (scope : String) :
    (builder.openScope scope).Normal where
  root := normal.root
  opened := fun other member => by
    rcases List.mem_cons.mp member with rfl | outside
    · exact NormalAll.nil
    · exact normal.opened other outside

theorem Normal.closeScope (normal : builder.Normal) : builder.closeScope.Normal := by
  obtain ⟨root, opened⟩ := builder
  cases opened with
  | nil => exact normal
  | cons scope outer =>
      have around : (⟨root, outer⟩ : TreeBuilder).Normal :=
        ⟨normal.root, fun other member => normal.opened other (List.mem_cons_of_mem _ member)⟩
      exact around.addContainer (normal.opened scope List.mem_cons_self).reverse

theorem Normal.addScoped (normal : builder.Normal) (text scope : String) :
    (builder.addScoped text scope).Normal := by
  unfold TreeBuilder.addScoped
  split
  · exact normal
  · exact ((normal.openScope scope).addText text).closeScope

theorem Normal.closeAll (normal : builder.Normal) : builder.closeAll.Normal := by
  have steps : ∀ (scopes : List OpenScope) (builder : TreeBuilder), builder.Normal →
      (scopes.foldl (fun builder _ => builder.closeScope) builder).Normal := by
    intro scopes
    induction scopes with
    | nil => exact fun builder normal => normal
    | cons scope rest ih => exact fun builder normal => ih _ normal.closeScope
  exact steps builder.opened builder normal

theorem Normal.finish (normal : builder.Normal) : builder.finish.Normal :=
  normal.closeAll.root.reverse

theorem normal_empty : ({} : TreeBuilder).Normal :=
  ⟨NormalAll.nil, by simp⟩

/-! ### What comes of operations -/

namespace Operation

theorem length_apply (operation : Operation) (builder : TreeBuilder) :
    (operation.apply builder).opened.length = operation.opensTo builder.opened.length := by
  cases operation with
  | closeAll => simp [apply, opensTo, opened_closeAll]
  | text text => simp [apply, opensTo, length_openNames]
  | word text scope => simp [apply, opensTo, length_openNames]
  | openScope scope => simp [apply, opensTo, length_openNames]
  | closeScope => simp [apply, opensTo, length_openNames]
  | subLanguage operations language => simp [apply, opensTo, length_openNames]

mutual

/-- Each operation adds its events, except that texts which follow each other become one. -/
theorem merged_apply (operation : Operation) (builder : TreeBuilder) (rest : List TreeEvent) :
    merged ((operation.apply builder).walked ++ rest) =
      merged (builder.walked ++ (operation.events builder.opened.length ++ rest)) := by
  cases operation with
  | text text =>
      cases filled : text.isEmpty with
      | true => simp [apply, events, addText, filled]
      | false => simp [apply, events, filled, merged_addText]
  | word text scope =>
      cases filled : text.isEmpty with
      | true => simp [apply, events, addScoped, filled]
      | false =>
          have open_ : ((builder.openScope scope).addText text).opened.length ≠ 0 := by
            simp [length_openNames]
          simp only [apply, events, addScoped, filled, Bool.false_eq_true, if_false,
            walked_closeScope, if_neg open_, List.append_assoc]
          rw [merged_addText _ filled, walked_openScope]
          simp
  | openScope scope => simp [apply, events, walked_openScope]
  | closeScope => simp [apply, events, walked_closeScope]
  | closeAll => simp [apply, events, walked_closeAll]
  | subLanguage operations language =>
      have inner := merged_applyAll operations {}
      rw [apply, addSubLanguage, walked_addNode, List.append_assoc]
      apply merged_append_congr
      simp only [walk, events, List.cons_append, List.append_assoc, merged]
      exact congrArg _ (merged_congr_append inner _)

theorem merged_applyAll (operations : List Operation) (builder : TreeBuilder) :
    merged (applyAll builder operations).finish.walk =
      merged (builder.walked ++ allEvents builder.opened.length operations) := by
  cases operations with
  | nil => rw [applyAll, allEvents, walk_finish]
  | cons operation rest =>
      have first := merged_apply operation builder
        (allEvents (operation.opensTo builder.opened.length) rest)
      rw [applyAll, allEvents, merged_applyAll rest, length_apply, first]

end

mutual

theorem normal_apply (operation : Operation) {builder : TreeBuilder} (normal : builder.Normal) :
    (operation.apply builder).Normal := by
  cases operation with
  | text text => exact normal.addText text
  | word text scope => exact normal.addScoped text scope
  | openScope scope => exact normal.openScope scope
  | closeScope => exact normal.closeScope
  | closeAll => exact normal.closeAll
  | subLanguage operations language =>
      exact normal.addContainer (normal_applyAll operations normal_empty).finish

theorem normal_applyAll (operations : List Operation) {builder : TreeBuilder}
    (normal : builder.Normal) : (applyAll builder operations).Normal := by
  cases operations with
  | nil => exact normal
  | cons operation rest => exact normal_applyAll rest (normal_apply operation normal)

end

mutual

theorem text_apply (operation : Operation) (builder : TreeBuilder) :
    (operation.apply builder).text = builder.text ++ operation.addedText := by
  cases operation with
  | text text => simp [apply, addedText]
  | word text scope => simp [apply, addedText]
  | openScope scope => simp [apply, addedText]
  | closeScope => simp [apply, addedText]
  | closeAll => simp [apply, addedText]
  | subLanguage operations language =>
      simp [apply, addedText, text_applyAll operations {}]

theorem text_applyAll (operations : List Operation) (builder : TreeBuilder) :
    (applyAll builder operations).text = builder.text ++ allText operations := by
  cases operations with
  | nil => simp [applyAll, allText]
  | cons operation rest =>
      simp [applyAll, allText, text_applyAll rest, text_apply operation, String.append_assoc]

end

/-- Whatever is done with a builder, the finished tree is in normal form, has the texts that were added
as its text, and is walked through as the operations say: without empty texts, closes that close nothing
and open ends, and with the texts merged that follow each other. -/
theorem finish_applyAll (operations : List Operation) :
    (applyAll {} operations).finish.Normal ∧
      (applyAll {} operations).finish.text = allText operations ∧
      (applyAll {} operations).finish.walk = merged (allEvents 0 operations) := by
  have normal := (normal_applyAll operations normal_empty).finish
  have walked := merged_applyAll operations {}
  refine ⟨normal, ?_, ?_⟩
  · rw [text_finish, text_applyAll, text_empty, String.empty_append]
  · rw [← normal.merged_walk]
    exact walked

/-- Texts are merged over a close that closes nothing, but not over the end of a scope. -/
example : (applyAll {} [.text "a", .closeScope, .text "", .text "b", .openScope "s", .text "c",
    .subLanguage [.closeAll, .openScope "t"] "l"]).finish.walk =
      [.text "ab", .enter (.scope "s"), .text "c", .enter (.subLanguage "l"), .enter (.scope "t"),
        .leave, .leave, .leave] := by
  decide

end Operation

end TreeBuilder

end Highlight
