import Highlight.Proofs.Tree.Markup

set_option autoImplicit false

/-! The tags of the HTML of a tree. Each container gives one opening and one closing tag around the
tags of its children, and outside of the tags stands the text, in which the five characters that
mean something in HTML are written as entities. -/

namespace Highlight.Html

open TreeNode

/-- A piece of written markup: a tag, from a `<` to the next `>`, or a character outside of tags. -/
inductive Piece where
  | char (c : Char)
  | tag (content : String)
deriving DecidableEq, Repr

/-- The pieces of a text, or those that follow when a tag has been read up to some content. A `<`
with no `>` behind it starts no tag. -/
def piecesFrom : Option (List Char) → List Char → List Piece
  | none, [] => []
  | none, c :: rest =>
    if c = '<' then piecesFrom (some []) rest else .char c :: piecesFrom none rest
  | some content, [] => ('<' :: content).map .char
  | some content, c :: rest =>
    if c = '>' then .tag (String.ofList content) :: piecesFrom none rest
    else piecesFrom (some (content ++ [c])) rest

def pieces (text : String) : List Piece :=
  piecesFrom none text.toList

def Piece.tag? : Piece → Option String
  | .char _ => none
  | .tag content => some content

def Piece.char? : Piece → Option Char
  | .char c => some c
  | .tag _ => none

def tags (text : String) : List String :=
  (pieces text).filterMap Piece.tag?

/-- A text after its tags have been deleted. -/
def withoutTags (text : String) : List Char :=
  (pieces text).filterMap Piece.char?

/-- The characters that a text with entities stands for. -/
def decode : List Char → List Char
  | '&' :: 'a' :: 'm' :: 'p' :: ';' :: rest => '&' :: decode rest
  | '&' :: 'l' :: 't' :: ';' :: rest => '<' :: decode rest
  | '&' :: 'g' :: 't' :: ';' :: rest => '>' :: decode rest
  | '&' :: 'q' :: 'u' :: 'o' :: 't' :: ';' :: rest => '"' :: decode rest
  | '&' :: '#' :: 'x' :: '2' :: '7' :: ';' :: rest => '\'' :: decode rest
  | c :: rest => c :: decode rest
  | [] => []

def openingTag (classes : String) : String :=
  "span class=\"" ++ classes ++ "\""

def closingTag : String :=
  "/span"

mutual

/-- The tags that a node calls for: those of its children, between one opening and one closing
tag if it is a container. -/
def nodeTags (classPrefix : String) : TreeNode → List String
  | .text _ => []
  | .container kind children =>
    openingTag (containerClass classPrefix kind) :: nestedTags classPrefix children ++ [closingTag]

def nestedTags (classPrefix : String) : List TreeNode → List String
  | [] => []
  | node :: rest => nodeTags classPrefix node ++ nestedTags classPrefix rest

end

mutual

/-- The containers of a node, nested as they are, without any text. -/
def nodeOutline : TreeNode → List TreeNode
  | .text _ => []
  | .container kind children => [.container kind (outline children)]

def outline : List TreeNode → List TreeNode
  | [] => []
  | node :: rest => nodeOutline node ++ outline rest

end

/-! ### The pieces of what is written -/

theorem piecesFrom_chars {chars : List Char} (noTag : '<' ∉ chars) (rest : List Char) :
    piecesFrom none (chars ++ rest) = chars.map .char ++ piecesFrom none rest := by
  induction chars with
  | nil => rfl
  | cons c more ih =>
    obtain ⟨other, noMore⟩ := not_or.mp (mt List.mem_cons.mpr noTag)
    rw [List.cons_append, piecesFrom, if_neg (Ne.symm other), ih noMore, List.map_cons,
      List.cons_append]

theorem piecesFrom_content {content : List Char} (noEnd : '>' ∉ content)
    (seen rest : List Char) :
    piecesFrom (some seen) (content ++ '>' :: rest) =
      .tag (String.ofList (seen ++ content)) :: piecesFrom none rest := by
  induction content generalizing seen with
  | nil => simp [piecesFrom]
  | cons c more ih =>
    obtain ⟨other, noMore⟩ := not_or.mp (mt List.mem_cons.mpr noEnd)
    rw [List.cons_append, piecesFrom, if_neg (Ne.symm other), ih noMore, List.append_assoc,
      List.singleton_append]

theorem piecesFrom_tag {content : String} (noEnd : '>' ∉ content.toList) (rest : List Char) :
    piecesFrom none ('<' :: (content.toList ++ '>' :: rest)) =
      .tag content :: piecesFrom none rest := by
  rw [piecesFrom, if_pos rfl, piecesFrom_content noEnd, List.nil_append, String.ofList_toList]

def eventPieces (classPrefix : String) : TreeEvent → List Piece
  | .text content => (escape content).toList.map .char
  | .enter kind => [.tag (openingTag (containerClass classPrefix kind))]
  | .leave => [.tag closingTag]

theorem piecesFrom_event {classPrefix : String} (tamePrefix : Tame classPrefix) (event : TreeEvent)
    (tameName : ∀ kind, event = .enter kind → Tame kind.name) (rest : List Char) :
    piecesFrom none ((renderEvent classPrefix event).toList ++ rest) =
      eventPieces classPrefix event ++ piecesFrom none rest := by
  cases event with
  | text content =>
    have noTag : '<' ∉ (escape content).toList := fun inside =>
      tame_escape content '<' inside isMarkup_less
    exact piecesFrom_chars noTag rest
  | enter kind =>
    have tameClasses := tame_containerClass tamePrefix (tameName kind rfl)
    have noEnd : '>' ∉ (openingTag (containerClass classPrefix kind)).toList := by
      have notInside : '>' ∉ (containerClass classPrefix kind).toList := fun inside =>
        tameClasses '>' inside isMarkup_more
      simp [openingTag, notInside]
    have written : (renderEvent classPrefix (.enter kind)).toList ++ rest =
        '<' :: ((openingTag (containerClass classPrefix kind)).toList ++ '>' :: rest) := by
      simp [renderEvent, openingTag]
    rw [written, piecesFrom_tag noEnd]
    rfl
  | leave =>
    have written : (renderEvent classPrefix .leave).toList ++ rest =
        '<' :: (closingTag.toList ++ '>' :: rest) := by
      simp [renderEvent, closingTag]
    rw [written, piecesFrom_tag (by decide)]
    rfl

theorem piecesFrom_events {classPrefix : String} (tamePrefix : Tame classPrefix)
    (events : List TreeEvent) (tameNames : ∀ kind, .enter kind ∈ events → Tame kind.name) :
    piecesFrom none (events.flatMap fun event => (renderEvent classPrefix event).toList) =
      events.flatMap (eventPieces classPrefix) := by
  induction events with
  | nil => rfl
  | cons event rest ih =>
    have ofFirst := fun kind (same : event = .enter kind) =>
      tameNames kind (same ▸ List.mem_cons_self)
    rw [List.flatMap_cons, piecesFrom_event tamePrefix event ofFirst,
      ih fun kind inside => tameNames kind (List.mem_cons_of_mem event inside), List.flatMap_cons]

theorem pieces_render {classPrefix : String} {tree : TokenTree} (tamePrefix : Tame classPrefix)
    (tameNames : ∀ kind, .enter kind ∈ tree.walk → Tame kind.name) :
    pieces (render classPrefix tree) = tree.walk.flatMap (eventPieces classPrefix) := by
  rw [pieces, render_toList, piecesFrom_events tamePrefix tree.walk tameNames]

/-! ### The tags and the containers -/

theorem filterMap_tag_text (classPrefix content : String) :
    (eventPieces classPrefix (.text content)).filterMap Piece.tag? = [] :=
  List.filterMap_eq_nil_iff.mpr fun piece inside => by
    obtain ⟨c, _, rfl⟩ := List.mem_map.mp inside
    rfl

mutual

theorem nodeTags_eq (classPrefix : String) (node : TreeNode) :
    (node.walk.flatMap (eventPieces classPrefix)).filterMap Piece.tag? =
      nodeTags classPrefix node := by
  cases node with
  | text content =>
    rw [walk, List.flatMap_singleton, filterMap_tag_text, nodeTags]
  | container kind children =>
    simp [walk, eventPieces, Piece.tag?, nodeTags, nestedTags_eq classPrefix children]

theorem nestedTags_eq (classPrefix : String) (nodes : List TreeNode) :
    ((walkAll nodes).flatMap (eventPieces classPrefix)).filterMap Piece.tag? =
      nestedTags classPrefix nodes := by
  cases nodes with
  | nil => rfl
  | cons node rest =>
    rw [walkAll, List.flatMap_append, List.filterMap_append, nodeTags_eq classPrefix node,
      nestedTags_eq classPrefix rest, nestedTags]

end

theorem nestedTags_append (classPrefix : String) (first second : List TreeNode) :
    nestedTags classPrefix (first ++ second) =
      nestedTags classPrefix first ++ nestedTags classPrefix second := by
  induction first with
  | nil => rfl
  | cons node rest ih => rw [List.cons_append, nestedTags, nestedTags, ih, List.append_assoc]

mutual

theorem nestedTags_nodeOutline (classPrefix : String) (node : TreeNode) :
    nestedTags classPrefix (nodeOutline node) = nodeTags classPrefix node := by
  cases node with
  | text content => rfl
  | container kind children =>
    simp [nodeOutline, nestedTags, nodeTags, nestedTags_outline classPrefix children]

theorem nestedTags_outline (classPrefix : String) (nodes : List TreeNode) :
    nestedTags classPrefix (outline nodes) = nestedTags classPrefix nodes := by
  cases nodes with
  | nil => rfl
  | cons node rest =>
    rw [outline, nestedTags_append, nestedTags_nodeOutline classPrefix node,
      nestedTags_outline classPrefix rest, nestedTags]

end

mutual

theorem enter_mem_nodeOutline (kind : ContainerKind) (node : TreeNode) :
    .enter kind ∈ walkAll (nodeOutline node) ↔ .enter kind ∈ node.walk := by
  cases node with
  | text content => simp [nodeOutline, walkAll, walk]
  | container other children =>
    simp [nodeOutline, walkAll, walk, enter_mem_outline kind children]

theorem enter_mem_outline (kind : ContainerKind) (nodes : List TreeNode) :
    .enter kind ∈ walkAll (outline nodes) ↔ .enter kind ∈ walkAll nodes := by
  cases nodes with
  | nil => rfl
  | cons node rest =>
    rw [outline, walkAll_append, walkAll, List.mem_append, List.mem_append,
      enter_mem_nodeOutline kind node, enter_mem_outline kind rest]

end

theorem tag_of_event {classPrefix : String} (tamePrefix : Tame classPrefix) (event : TreeEvent)
    (tameName : ∀ kind, event = .enter kind → Tame kind.name) {piece : Piece}
    (inside : piece ∈ eventPieces classPrefix event) {content : String}
    (isTag : piece.tag? = some content) :
    content = closingTag ∨ ∃ classes : String, '"' ∉ classes.toList ∧ content = openingTag classes := by
  cases event with
  | text written =>
    obtain ⟨c, _, rfl⟩ := List.mem_map.mp inside
    cases isTag
  | enter kind =>
    obtain rfl := List.mem_singleton.mp inside
    have tameClasses := tame_containerClass tamePrefix (tameName kind rfl)
    exact .inr ⟨_, fun quote => tameClasses '"' quote isMarkup_quote, (Option.some.inj isTag).symm⟩
  | leave =>
    obtain rfl := List.mem_singleton.mp inside
    exact .inl (Option.some.inj isTag).symm

/-! ### The text outside of the tags -/

theorem decode_cons {c : Char} (notAnd : c ≠ '&') (rest : List Char) :
    decode (c :: rest) = c :: decode rest :=
  decode.eq_6 c rest (fun _ same _ => notAnd same) (fun _ same _ => notAnd same)
    (fun _ same _ => notAnd same) (fun _ same _ => notAnd same) (fun _ same _ => notAnd same)

theorem decode_escapeChar (c : Char) (rest : List Char) :
    decode (escapeChar c ++ rest) = c :: decode rest := by
  unfold escapeChar
  split
  iterate 5 rfl
  rename_i notAnd _ _
  exact decode_cons notAnd rest

theorem decode_escape (chars rest : List Char) :
    decode (chars.flatMap escapeChar ++ rest) = chars ++ decode rest := by
  induction chars with
  | nil => rfl
  | cons c more ih =>
    rw [List.flatMap_cons, List.append_assoc, decode_escapeChar, ih, List.cons_append]

theorem decode_events (classPrefix : String) (events : List TreeEvent) :
    decode ((events.flatMap (eventPieces classPrefix)).filterMap Piece.char?) =
      events.flatMap eventText := by
  induction events with
  | nil => rfl
  | cons event rest ih =>
    rw [List.flatMap_cons, List.filterMap_append, List.flatMap_cons]
    cases event with
    | text content =>
      have written : (eventPieces classPrefix (.text content)).filterMap Piece.char? =
          content.toList.flatMap escapeChar := by
        simp [eventPieces, Piece.char?, List.filterMap_map, Function.comp_def]
      rw [written, decode_escape, ih, eventText]
    | enter kind => exact ih
    | leave => exact ih

/-! ### A rendered tree -/

/-- Where neither the prefix nor a name has a character of markup, the tags of a rendered tree are
one opening and one closing tag for each container, nested like the containers, and each opening
tag is a span with one class attribute. Without its tags and with its entities decoded, what is
written is the text of the tree. A tree with the same containers has the same tags, whatever texts
stand in it and wherever they stand. -/
theorem render_keeps_text (classPrefix : String) (tree : TokenTree)
    (tamePrefix : Tame classPrefix)
    (tameNames : ∀ kind, .enter kind ∈ tree.walk → Tame kind.name) :
    tags (render classPrefix tree) = nestedTags classPrefix tree.children ∧
      (∀ content ∈ tags (render classPrefix tree),
        content = closingTag ∨
          ∃ classes : String, '"' ∉ classes.toList ∧ content = openingTag classes) ∧
      decode (withoutTags (render classPrefix tree)) = tree.text.toList ∧
      ∀ other : TokenTree, outline other.children = outline tree.children →
        tags (render classPrefix other) = tags (render classPrefix tree) := by
  have written := pieces_render tamePrefix tameNames
  have sameTags : tags (render classPrefix tree) = nestedTags classPrefix tree.children := by
    rw [tags, written]
    exact nestedTags_eq classPrefix tree.children
  refine ⟨sameTags, ?_, ?_, ?_⟩
  case refine_1 =>
    intro content inside
    rw [tags, written, List.mem_filterMap] at inside
    obtain ⟨piece, inside, isTag⟩ := inside
    obtain ⟨event, met, inside⟩ := List.mem_flatMap.mp inside
    exact tag_of_event tamePrefix event (fun kind same => tameNames kind (same ▸ met)) inside isTag
  case refine_2 =>
    rw [withoutTags, written, decode_events, tree.walk_text]
  case refine_3 =>
    intro other sameOutline
    rw [sameTags, ← nestedTags_outline, ← sameOutline, nestedTags_outline]
    have tameOthers : ∀ kind, .enter kind ∈ other.walk → Tame kind.name := by
      intro kind met
      exact tameNames kind ((enter_mem_outline kind tree.children).mp
        (sameOutline ▸ (enter_mem_outline kind other.children).mpr met))
    rw [tags, pieces_render tamePrefix tameOthers]
    exact nestedTags_eq classPrefix other.children

/-- A text that looks like a closing tag and an entity, within nested containers. -/
theorem render_keeps_text_like_markup :
    ∃ tree other : TokenTree,
      Tame "hljs-" ∧ (∀ kind, .enter kind ∈ tree.walk → Tame kind.name) ∧
        tree.text = "</span>&lt;'\"" ∧ other.text = "<" ∧
        outline other.children = outline tree.children ∧
        tags (render "hljs-" tree) =
          [openingTag "hljs-title function_", openingTag "language-xml", closingTag,
            closingTag] ∧
        decode (withoutTags (render "hljs-" tree)) = tree.text.toList ∧
        tags (render "hljs-" other) = tags (render "hljs-" tree) := by
  let tree : TokenTree :=
    { children := [.container (.scope "title.function")
        [.text "</span>", .container (.subLanguage "xml") [.text "&lt;'"], .text "\""]] }
  let other : TokenTree :=
    { children := [.text "<", .container (.scope "title.function")
        [.container (.subLanguage "xml") []]] }
  have tamePrefix : Tame "hljs-" := by decide
  have tameNames : ∀ kind, .enter kind ∈ tree.walk → Tame kind.name := by
    intro kind met
    have known : kind = .scope "title.function" ∨ kind = .subLanguage "xml" := by
      simpa [tree, TokenTree.walk, walkAll, walk] using met
    rcases known with rfl | rfl <;> decide
  obtain ⟨nested, _, decoded, alike⟩ := render_keeps_text "hljs-" tree tamePrefix tameNames
  exact ⟨tree, other, tamePrefix, tameNames, by decide +kernel, by decide +kernel, rfl,
    nested.trans (by decide +kernel), decoded, alike other rfl⟩

end Highlight.Html
