import Highlight.Proofs.Tree.Markup

set_option autoImplicit false

/-! Reading the HTML of a tree back. A reader that knows nothing but the shape of the two tags and
the five entities recovers the walk through the tree, unless a quotation mark stands in the classes
of a container: names are written into the attribute as they are, and there such a mark ends it. -/

namespace Highlight.Html

inductive Item where
  | char (c : Char)
  | enter (classes : String)
  | leave
deriving DecidableEq, Repr

/-- Where a reader of markup stands: outside of tags, within an entity, within a tag, within the
value of a class attribute, or behind that value. It knows what it has read there so far. -/
inductive Place where
  | outside
  | entity (seen : List Char)
  | tag (seen : List Char)
  | value (seen : List Char)
  | behindValue (classes : List Char)

def entityChar? : List Char → Option Char
  | ['a', 'm', 'p'] => some '&'
  | ['l', 't'] => some '<'
  | ['g', 't'] => some '>'
  | ['q', 'u', 'o', 't'] => some '"'
  | ['#', 'x', '2', '7'] => some '\''
  | _ => none

/-- What follows `<` at the start of a container, up to the value of its class attribute. -/
def enterTag : List Char :=
  ['s', 'p', 'a', 'n', ' ', 'c', 'l', 'a', 's', 's', '=', '"']

def leaveTag : List Char :=
  ['/', 's', 'p', 'a', 'n', '>']

/-- Reads markup: text with entities, `<span class="` up to the next quotation mark, then `>`, and
`</span>`. Nothing else that starts with `<` or `&` can be read. -/
def readFrom : Place → List Char → Option (List Item)
  | .outside, [] => some []
  | .outside, c :: rest =>
    if c = '<' then readFrom (.tag []) rest
    else if c = '&' then readFrom (.entity []) rest
    else (readFrom .outside rest).map (.char c :: ·)
  | .entity seen, c :: rest =>
    if c = ';' then
      match entityChar? seen with
      | some meant => (readFrom .outside rest).map (.char meant :: ·)
      | none => none
    else readFrom (.entity (seen ++ [c])) rest
  | .tag seen, c :: rest =>
    if seen ++ [c] = leaveTag then (readFrom .outside rest).map (.leave :: ·)
    else if seen ++ [c] = enterTag then readFrom (.value []) rest
    else readFrom (.tag (seen ++ [c])) rest
  | .value seen, c :: rest =>
    if c = '"' then readFrom (.behindValue seen) rest else readFrom (.value (seen ++ [c])) rest
  | .behindValue classes, c :: rest =>
    if c = '>' then (readFrom .outside rest).map (.enter (String.ofList classes) :: ·) else none
  | _, [] => none

def read (text : String) : Option (List Item) :=
  readFrom .outside text.toList

/-- What there is to recover from an event. -/
def eventItems (classPrefix : String) : TreeEvent → List Item
  | .text content => content.toList.map .char
  | .enter kind => [.enter (containerClass classPrefix kind)]
  | .leave => [.leave]

/-- An event as it can be recovered: a container with its classes instead of its name. -/
inductive Recovered where
  | text (content : String)
  | enter (classes : String)
  | leave
deriving DecidableEq, Repr

def addChar (c : Char) : List Recovered → List Recovered
  | .text content :: rest => .text (String.ofList (c :: content.toList)) :: rest
  | others => .text (String.ofList [c]) :: others

def grouped : List Item → List Recovered
  | [] => []
  | .char c :: rest => addChar c (grouped rest)
  | .enter classes :: rest => .enter classes :: grouped rest
  | .leave :: rest => .leave :: grouped rest

def recoverable (classPrefix : String) : TreeEvent → Recovered
  | .text content => .text content
  | .enter kind => .enter (containerClass classPrefix kind)
  | .leave => .leave

/-- No text is empty or follows another one, as nothing in markup tells such texts apart. -/
def Separate : List TreeEvent → Bool
  | [] => true
  | .text _ :: .text _ :: _ => false
  | .text content :: rest => content != "" && Separate rest
  | _ :: rest => Separate rest

attribute [local simp] readFrom

/-! ### Reading what an event is written as -/

theorem readFrom_escapeChar (c : Char) (rest : List Char) :
    readFrom .outside (escapeChar c ++ rest) = (readFrom .outside rest).map (.char c :: ·) := by
  unfold escapeChar
  split
  iterate 5 simp [entityChar?]
  rename_i _ notLess notAnd _ _
  rw [List.singleton_append, readFrom, if_neg notLess, if_neg notAnd]

theorem readFrom_escape (chars rest : List Char) :
    readFrom .outside (chars.flatMap escapeChar ++ rest) =
      (readFrom .outside rest).map (chars.map .char ++ ·) := by
  induction chars with
  | nil => simp
  | cons c more ih =>
    rw [List.flatMap_cons, List.append_assoc, readFrom_escapeChar, ih, Option.map_map]
    rfl

theorem readFrom_enterTag (rest : List Char) :
    readFrom .outside ('<' :: (enterTag ++ rest)) = readFrom (.value []) rest := by
  simp [enterTag, leaveTag]

theorem readFrom_leaveTag (rest : List Char) :
    readFrom .outside ('<' :: (leaveTag ++ rest)) =
      (readFrom .outside rest).map (.leave :: ·) := by
  simp [enterTag, leaveTag]

theorem readFrom_value {value : List Char} (noQuote : '"' ∉ value) (seen rest : List Char) :
    readFrom (.value seen) (value ++ '"' :: rest) = readFrom (.behindValue (seen ++ value)) rest := by
  induction value generalizing seen with
  | nil => simp
  | cons c more ih =>
    obtain ⟨other, noMore⟩ := not_or.mp (mt List.mem_cons.mpr noQuote)
    rw [List.cons_append, readFrom, if_neg (Ne.symm other), ih noMore, List.append_assoc,
      List.singleton_append]

theorem toList_enter (classPrefix : String) (kind : ContainerKind) (rest : List Char) :
    (renderEvent classPrefix (.enter kind)).toList ++ rest =
      '<' :: (enterTag ++ ((containerClass classPrefix kind).toList ++ '"' :: '>' :: rest)) := by
  simp [renderEvent, enterTag]

theorem readFrom_event {classPrefix : String} (event : TreeEvent)
    (noQuote : ∀ kind, event = .enter kind → '"' ∉ (containerClass classPrefix kind).toList)
    (rest : List Char) :
    readFrom .outside ((renderEvent classPrefix event).toList ++ rest) =
      (readFrom .outside rest).map (eventItems classPrefix event ++ ·) := by
  cases event with
  | text content =>
    rw [renderEvent, toList_escape, readFrom_escape]
    rfl
  | enter kind =>
    rw [toList_enter, readFrom_enterTag, readFrom_value (noQuote kind rfl), List.nil_append,
      readFrom, if_pos rfl, String.ofList_toList]
    rfl
  | leave =>
    have written : (renderEvent classPrefix .leave).toList ++ rest = '<' :: (leaveTag ++ rest) := by
      simp [renderEvent, leaveTag]
    rw [written, readFrom_leaveTag]
    rfl

/-- Classes with a quotation mark are not read back, whatever follows them. -/
theorem readFrom_enter_ne {classPrefix : String} {kind : ContainerKind}
    (quote : '"' ∈ (containerClass classPrefix kind).toList) (rest : List Char)
    (items : List Item) :
    readFrom .outside ((renderEvent classPrefix (.enter kind)).toList ++ rest) ≠
      some (.enter (containerClass classPrefix kind) :: items) := by
  obtain ⟨before, after, classes, noQuote⟩ := List.eq_append_cons_of_mem quote
  intro recovered
  rw [toList_enter, readFrom_enterTag, classes, List.append_assoc, List.cons_append,
    readFrom_value noQuote, List.nil_append] at recovered
  obtain ⟨next, more, follows⟩ : ∃ next more, after ++ '"' :: '>' :: rest = next :: more := by
    cases after with
    | nil => exact ⟨_, _, rfl⟩
    | cons next more => exact ⟨_, _, rfl⟩
  rw [follows, readFrom] at recovered
  split at recovered
  · obtain ⟨_, _, same⟩ := Option.map_eq_some_iff.mp recovered
    have shorter : before = (containerClass classPrefix kind).toList := by
      rw [← (Item.enter.inj (List.cons.inj same).1), String.toList_ofList]
    rw [classes] at shorter
    simpa using congrArg List.length shorter
  · cases recovered

theorem readFrom_events_iff (classPrefix : String) (events : List TreeEvent) :
    readFrom .outside (events.flatMap fun event => (renderEvent classPrefix event).toList) =
        some (events.flatMap (eventItems classPrefix)) ↔
      ∀ kind, .enter kind ∈ events → '"' ∉ (containerClass classPrefix kind).toList := by
  induction events with
  | nil => simp
  | cons event rest ih =>
    rw [List.flatMap_cons, List.flatMap_cons]
    by_cases quoted : ∃ kind, event = .enter kind ∧ '"' ∈ (containerClass classPrefix kind).toList
    case pos =>
      obtain ⟨kind, rfl, quote⟩ := quoted
      have notRead := readFrom_enter_ne quote
      refine iff_of_false (notRead _ _) fun none => ?_
      exact none kind List.mem_cons_self quote
    case neg =>
      have noQuote : ∀ kind, event = .enter kind → '"' ∉ (containerClass classPrefix kind).toList :=
        fun kind same quote => quoted ⟨kind, same, quote⟩
      rw [readFrom_event event noQuote, Option.map_eq_some_iff]
      constructor
      case mp =>
        rintro ⟨items, recovered, same⟩ kind (_ | inside)
        · exact noQuote kind rfl
        · rw [List.append_cancel_left same] at recovered
          exact ih.mp recovered kind ‹_›
      case mpr =>
        intro none
        exact ⟨_, ih.mpr fun kind inside => none kind (List.mem_cons_of_mem event inside), rfl⟩

/-! ### The events that were read -/

theorem grouped_chars {chars : List Char} (some_ : chars ≠ []) {items : List Item}
    (noText : ∀ content rest, grouped items ≠ .text content :: rest) :
    grouped (chars.map .char ++ items) = .text (String.ofList chars) :: grouped items := by
  induction chars with
  | nil => exact absurd rfl some_
  | cons c more ih =>
    rw [List.map_cons, List.cons_append, grouped]
    cases more with
    | nil =>
      rw [List.map_nil, List.nil_append]
      exact addChar.eq_2 c (grouped items) noText
    | cons next later => rw [ih (List.cons_ne_nil next later), addChar, String.toList_ofList]

theorem grouped_events (classPrefix : String) {events : List TreeEvent}
    (separate : Separate events) :
    grouped (events.flatMap (eventItems classPrefix)) = events.map (recoverable classPrefix) := by
  fun_induction Separate events with
  | case1 => rfl
  | case2 => cases separate
  | case3 content rest noText ih =>
    obtain ⟨notEmpty, separate⟩ : content ≠ "" ∧ Separate rest = true := by simpa using separate
    have notStarted : ∀ other later,
        grouped (rest.flatMap (eventItems classPrefix)) ≠ .text other :: later := by
      rw [ih separate]
      intro other later same
      cases rest with
      | nil => cases same
      | cons event others =>
        cases event with
        | text first => exact noText first others rfl
        | enter kind => cases same
        | leave => cases same
    have chars : content.toList ≠ [] := fun none => notEmpty (String.toList_eq_nil_iff.mp none)
    rw [List.flatMap_cons, List.map_cons, eventItems, grouped_chars chars notStarted,
      String.ofList_toList, ih separate, recoverable]
  | case4 event rest _ notText ih =>
    cases event with
    | text content => exact (notText content rfl).elim
    | enter kind => exact congrArg _ (ih separate)
    | leave => exact congrArg _ (ih separate)

/-! ### Reading a rendered tree -/

/-- What is written for a tree is read back as the walk through it exactly if no name, and in front
of the name of a scope no prefix, has a quotation mark; the other characters of names do no harm.
The items that are read make up the events of the walk, texts that markup cannot tell apart aside. -/
theorem read_render_iff (classPrefix : String) (tree : TokenTree) :
    (read (render classPrefix tree) = some (tree.walk.flatMap (eventItems classPrefix)) ↔
      (∀ name, .enter (.scope name) ∈ tree.walk →
        '"' ∉ classPrefix.toList ∧ '"' ∉ name.toList) ∧
      ∀ language, .enter (.subLanguage language) ∈ tree.walk → '"' ∉ language.toList) ∧
    (Separate tree.walk →
      grouped (tree.walk.flatMap (eventItems classPrefix)) =
        tree.walk.map (recoverable classPrefix)) := by
  refine ⟨?_, grouped_events classPrefix⟩
  rw [read, render_toList, readFrom_events_iff]
  simp only [mem_containerClass isMarkup_quote, not_or]
  constructor
  case mp =>
    intro none
    refine ⟨fun name met => ?_, fun language met => (none _ met).2⟩
    obtain ⟨notInPrefix, notInName⟩ := none _ met
    exact ⟨fun quote => notInPrefix ⟨name, rfl, quote⟩, notInName⟩
  case mpr =>
    rintro ⟨ofScopes, ofLanguages⟩ kind met
    cases kind with
    | scope name =>
      obtain ⟨notInPrefix, notInName⟩ := ofScopes name met
      exact ⟨fun ⟨_, _, quote⟩ => notInPrefix quote, notInName⟩
    | subLanguage language =>
      exact ⟨fun ⟨_, other, _⟩ => (nomatch other), ofLanguages language met⟩

/-- Markup in a name does no harm without a quotation mark. -/
theorem read_render_of_markup_in_name :
    ∃ tree : TokenTree, Separate tree.walk = true ∧
      render "" tree = "<span class=\"a><b &lt;_\">&lt;</span>" ∧
      read (render "" tree) = some (tree.walk.flatMap (eventItems "")) ∧
      grouped (tree.walk.flatMap (eventItems "")) = tree.walk.map (recoverable "") := by
  let tree : TokenTree := { children := [.container (.scope "a><b.&lt;") [.text "<"]] }
  have separate : Separate tree.walk = true := by decide
  obtain ⟨recovered, events⟩ := read_render_iff "" tree
  have noQuote : (∀ name, .enter (.scope name) ∈ tree.walk →
        '"' ∉ "".toList ∧ '"' ∉ name.toList) ∧
      ∀ language, .enter (.subLanguage language) ∈ tree.walk → '"' ∉ language.toList := by
    constructor
    case left =>
      intro name met
      obtain rfl : name = "a><b.&lt;" := by
        simpa [tree, TokenTree.walk, TreeNode.walkAll, TreeNode.walk] using met
      decide
    case right =>
      intro language met
      simp [tree, TokenTree.walk, TreeNode.walkAll, TreeNode.walk] at met
  exact ⟨tree, separate, by decide +kernel, recovered.mpr noQuote, events separate⟩

/-- A name with a quotation mark can write any markup, here the end of its own container and
the start of another one. -/
theorem read_render_of_quoted_name :
    ∃ tree : TokenTree,
      tree.walk = [.enter (.scope "a\"></span><span class=\"b"), .text "t", .leave] ∧
      render "hljs-" tree =
        "<span class=\"hljs-a\"></span><span class=\"b\">t</span>" ∧
      (read (render "hljs-" tree)).map grouped =
        some [.enter "hljs-a", .leave, .enter "b", .text "t", .leave] ∧
      read (render "hljs-" tree) ≠ some (tree.walk.flatMap (eventItems "hljs-")) := by
  let tree : TokenTree :=
    { children := [.container (.scope "a\"></span><span class=\"b") [.text "t"]] }
  exact ⟨tree, rfl, by decide +kernel, by decide +kernel, by decide +kernel⟩

end Highlight.Html
