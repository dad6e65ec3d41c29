import Highlight.Proofs.Pattern.Counting
import Highlight.Proofs.Pattern.RoundTrip
import Highlight.Proofs.Pattern.Standing

set_option autoImplicit false

/-! Printed trees in a composition. The print of a tree and its print in a composition are gone through in
step: what is read as one token of the one is read as one token of the other, with the references raised. So
trees that can be printed in a composition are compiled together and found as they are alone. -/

namespace Highlight.Pattern

open Outcome
open Expression (shortReference markedReference)

/-! ### The options stay the same -/

namespace Reader

variable {reader next : Reader} {options : Options}

theorem length_leave (reader : Reader) : reader.leave.outer.length ≤ reader.outer.length := by
  unfold leave
  split
  · exact Nat.le_refl _
  · rename_i same
    rw [same]
    exact Nat.le_succ _

/-- The options are the same in all groups that are open. -/
structure Steady (options : Options) (reader : Reader) : Prop where
  here : reader.options = options
  outside : ∀ place ∈ reader.places, place.2 = options

namespace Steady

theorem start (options : Options) : (Reader.start options).Steady options := by
  refine ⟨rfl, fun place among => ?_⟩
  rw [List.mem_singleton.mp among]
  rfl

theorem leave (steady : reader.Steady options) : reader.leave.Steady options := by
  cases behind : reader.outer with
  | nil =>
      simp only [Reader.leave, behind]
      exact steady
  | cons frame outer =>
      have places := places_leave behind
      simp only [Reader.leave, behind] at places ⊢
      constructor
      · exact steady.outside _ List.mem_cons_self
      · intro place among
        rw [places] at among
        exact steady.outside place (List.mem_of_mem_tail among)

theorem enter (steady : reader.Steady options) {enclosure : Enclosure}
    (entered : reader.enter enclosure reader.options = .ok next) :
    next.Steady options ∧ next.outer.length = reader.outer.length + 1 := by
  unfold Reader.enter at entered
  split at entered
  · cases entered
  cases entered
  refine ⟨⟨steady.here, ?_⟩, rfl⟩
  intro place among
  rcases List.mem_cons.mp among with rfl | beyond
  · exact steady.here
  · exact steady.outside place beyond

theorem closeGroup (steady : reader.Steady options) (closed : reader.closeGroup = .ok next) :
    next.Steady options ∧ next.outer.length ≤ reader.outer.length := by
  have rested := leaveRests_of_leave (Steady options) (fun _ => leave) steady
  have length := leaveRests_of_leave (fun other => other.outer.length ≤ reader.outer.length)
    (fun other => (length_leave other).trans) (Nat.le_refl _)
  unfold Reader.closeGroup at closed
  dsimp only at closed
  split at closed
  · cases closed
  · cases closed
    exact ⟨rested.leave, (length_leave _).trans length⟩

/-- As long as no token sets any, the options stay the same, and only an opening leads deeper. -/
theorem add (steady : reader.Steady options) {token : Token} (still : token.isSteady = true)
    (added : reader.add token = .ok next) :
    next.Steady options ∧ next.outer.length ≤ reader.outer.length + token.depth := by
  cases token with
  | opening opening =>
      have opened := ((add_eq_ok_iff rfl).mp added).2
      cases opening with
      | enclosed options => cases still
      | restOfGroup options => cases still
      | capture name =>
          obtain ⟨inner, entered, opened⟩ := bind_eq_ok.mp opened
          cases opened
          obtain ⟨⟨here, outside⟩, length⟩ := steady.enter entered
          exact ⟨⟨here, outside⟩, Nat.le_of_eq length⟩
      | _ => exact (steady.enter opened).imp id Nat.le_of_eq
  | closing => exact steady.closeGroup ((add_eq_ok_iff rfl).mp added).2
  | _ =>
      obtain ⟨places, same, -⟩ := beside_add rfl added
      have length := congrArg List.length places
      simp only [Reader.places, List.length_cons, List.length_map] at length
      refine ⟨⟨same.trans steady.here, ?_⟩, ?_⟩
      · rw [places]
        exact steady.outside
      · omega

end Steady

end Reader

/-! ### A text and its place -/

/-- A text up to its end and the text in its place, up to the parenthesis behind it, with so many groups
opened before them and a total in the end. A reference is raised by an offset. -/
inductive Carried (offset total : Nat) : Nat → List Char → List Char → Prop where
  | ended : Carried offset total total [] [')']
  | plain {opened : Nat} {c : Char} {text place : List Char} (plain : looksBehind c = false)
      (carried : Carried offset total opened text place) :
      Carried offset total opened (c :: text) (c :: place)
  | piece {opened more : Nat} {c : Char} {piece text place : List Char}
      (looks : looksBehind c = true) (standing : Standing more c piece text place)
      (carried : Carried offset total (opened + more) text place) :
      Carried offset total opened (c :: (piece ++ text)) (c :: (piece ++ place))
  | reference {opened number : Nat} {text place : List Char} (positive : 0 < number)
      (known : number ≤ 9 ∨ number ≤ opened) (short : number ≤ lastReference)
      (writable : number + offset ≤ Referent.largestNumber)
      (ends : ∀ c ∈ text.head?, c.isDigit = false)
      (carried : Carried offset total opened text place) :
      Carried offset total opened (shortReference number ++ text)
        (markedReference (number + offset) ++ place)

namespace Carried

variable {offset total opened : Nat} {text place : List Char}

theorem alike (carried : Carried offset total opened text place) : Alike (text ++ [')']) place := by
  induction carried with
  | ended => exact .stop ')' (.inr rfl) [] []
  | plain _ _ ih => exact ih.same _
  | @piece _ _ c piece _ _ _ _ _ ih =>
      rw [List.cons_append, List.append_assoc]
      exact (ih.append piece).same c
  | reference =>
      unfold markedReference
      split <;> exact .stop '\\' (.inl rfl) _ _

theorem of_nil (carried : Carried offset total opened [] place) : opened = total ∧ place = [')'] := by
  generalize same : [] = whole at carried
  cases carried with
  | ended => exact ⟨rfl, rfl⟩
  | _ => cases same

theorem head?_eq (carried : Carried offset total opened text place) (filled : text ≠ []) :
    place.head? = text.head? := by
  cases carried with
  | ended => exact absurd rfl filled
  | reference =>
      unfold markedReference
      split <;> rfl
  | _ => rfl

/-- What holds of the parenthesis and of the first character of the text holds of that of its place. -/
theorem head?_of_text (carried : Carried offset total opened text place) (holds : Char → Prop)
    (parenthesis : holds ')') (start : ∀ c ∈ text.head?, holds c) : ∀ c ∈ place.head?, holds c := by
  by_cases filled : text = []
  · subst filled
    rw [carried.of_nil.2]
    rintro c ⟨⟩
    exact parenthesis
  · rwa [carried.head?_eq filled]

theorem append_plain {signs : List Char} (plain : Plain signs)
    (carried : Carried offset total opened text place) :
    Carried offset total opened (signs ++ text) (signs ++ place) := by
  induction signs with
  | nil => exact carried
  | cons c signs ih =>
      exact .plain (plain c List.mem_cons_self)
        (ih fun d among => plain d (List.mem_cons_of_mem _ among))

/-- Behind characters that the walk does not look behind, the two texts still belong together. -/
theorem behind_plain {used : List Char} (plain : Plain used)
    (carried : Carried offset total opened (used ++ text) place) :
    ∃ rest, place = used ++ rest ∧ Carried offset total opened text rest := by
  induction used generalizing place with
  | nil => exact ⟨place, rfl, carried⟩
  | cons c used ih =>
      have here := plain c List.mem_cons_self
      have others : Plain used := fun d among => plain d (List.mem_cons_of_mem _ among)
      generalize same : c :: used ++ text = whole at carried
      cases carried with
      | ended => cases same
      | plain _ carriedOn =>
          obtain ⟨rfl, rfl⟩ := List.cons.inj same
          obtain ⟨rest, rfl, carriedRest⟩ := ih others carriedOn
          exact ⟨rest, rfl, carriedRest⟩
      | piece looks =>
          rw [← (List.cons.inj same).1, here] at looks
          cases looks
      | reference =>
          rw [(List.cons.inj same).1] at here
          cases here

/-- What is read of the text as one token is read of its place as one. -/
theorem token {options : Options} {groups around : GroupNames} {c : Char} {input after : List Char}
    {token : Token} (visible : options.extended = false)
    (carried : Carried around.count total groups.count (c :: input) place)
    (read : Pattern.token options groups c input = .ok (token, after)) :
    ∃ placed rest, place = c :: placed ∧
      Pattern.token options (groups.behind around) c placed =
        .ok (token.raisedBy around.count, rest) ∧
      token.isSteady = true ∧ after.count '(' + token.depth ≤ (c :: input).count '(' ∧
      Carried around.count total (groups.count + token.opened) after rest := by
  generalize same : c :: input = whole at carried
  cases carried with
  | ended => cases same
  | @plain _ _ _ placed plain carried =>
      obtain ⟨rfl, rfl⟩ := List.cons.inj same
      have unescaped : c ≠ '\\' := by
        rintro rfl
        cases plain
      obtain ⟨⟨used, taken, skipped⟩, stands, closed⟩ := token_plain plain visible read
      subst taken
      obtain ⟨rest, rfl, carriedOn⟩ := carried.behind_plain skipped
      -- the parenthesis behind the end makes the texts alike
      obtain ⟨again, taken, reads⟩ := token_readsTo unescaped closed
      rw [List.append_assoc] at taken
      obtain rfl := List.append_cancel_right taken
      have there := reads rest carriedOn.alike
      rw [token_sameGroups unescaped options groups (groups.behind around)] at there
      refine ⟨_, rest, rfl, ?_, stands.steady, ?_, ?_⟩
      · rw [stands.unraised]
        exact there
      · have depth := stands.depth
        simp only [List.count_cons, List.count_append, List.count_nil] at depth ⊢
        omega
      · rw [stands.opened]
        exact carriedOn
  | @piece _ more c piece text placed looks standing carried =>
      obtain ⟨rfl, rfl⟩ := List.cons.inj same
      obtain ⟨rfl, stands, again⟩ := standing read
      refine ⟨_, placed, rfl, ?_, stands.steady, ?_, ?_⟩
      · rw [stands.unraised]
        exact again _
      · have depth := stands.depth
        simp only [List.count_cons, List.count_append, List.count_nil] at depth ⊢
        omega
      · rw [stands.opened]
        exact carried
  | @reference _ number text placed positive known short writable ends carried =>
      obtain ⟨rfl, rfl⟩ := List.cons.inj same
      change Pattern.token options groups '\\' (Expression.digits number ++ text) = _ at read
      rw [token_shortReference positive short known ends] at read
      cases read
      obtain ⟨written, marked, reads⟩ := @exists_markedReference options (groups.behind around) _
        (Nat.add_pos_left positive around.count) writable placed
        (carried.head?_of_text (·.isDigit = false) (by decide) ends)
      refine ⟨written, placed, marked, reads, rfl, ?_, carried⟩
      simp only [Token.depth, List.count_append]
      omega

end Carried

/-- A text that is read alone to its end is read in its place in the same tokens. -/
theorem Reader.Reads.carried {options outside : Options} {around : GroupNames} {below : List Frame}
    {total : Nat} {reader last : Reader} {text place rest : List Char} {tokens : List Token}
    (reads : Reads reader text tokens last rest) (whole : rest = [])
    (carried : Carried around.count total reader.groups.count text place)
    (steady : reader.Steady options) (visible : options.extended = false)
    (numbered : reader.Numbered outside)
    (room : reader.outer.length + below.length + text.count '(' < deepestGroup) :
    last.groups.count = total ∧ .node .keep ∉ tokens ∧
      Reads (reader.within around below) place (tokens.map (Token.raisedBy around.count))
        (last.within around below) [')'] := by
  induction reads generalizing place with
  | nothing =>
      subst whole
      obtain ⟨count, rfl⟩ := carried.of_nil
      exact ⟨count, List.not_mem_nil, .nothing ..⟩
  | @next reader middle last c input after rest token tokens read added readsOn ih =>
      rw [steady.here] at read
      obtain ⟨placed, beyond, rfl, there, still, fewer, carriedOn⟩ := carried.token visible read
      have unkept : .node .keep ≠ token := by
        rintro rfl
        cases still
      have unmarked : ∀ tree, token = .node tree → tree.marks = [] :=
        fun _ same => (Token.Plain.ofRead read).unmarked unkept same
      obtain ⟨steadyOn, deeper⟩ := steady.add still added
      rw [← add_opened added] at carriedOn
      obtain ⟨count, others, readsThere⟩ :=
        ih whole carriedOn steadyOn (numbered.add unmarked added) (by omega)
      have placedThere : (reader.within around below).add (token.raisedBy around.count) =
          .ok (middle.within around below) := by
        apply add_within around below numbered.rooted added
        rintro opening rfl
        simp only [Token.depth] at fewer
        omega
      rw [← steady.here] at there
      exact ⟨count, fun among => (List.mem_cons.mp among).elim unkept others,
        .next there placedThere readsThere⟩

/-! ### Printed trees -/

namespace Expression

/-- Whether each class and each escape of the tree is read as it is printed, whatever stands behind it, and
none moves the start of a match. -/
def ends : Expression → Bool
  | escaped c _ => !readsOn c && c ≠ 'K'
  | bracket negated first others =>
    (negated || first.text ≠ ['^']) && (first :: others).all Item.ends
  | group _ body | repeated _ _ body => body.ends
  | concat first second | either first second => first.ends && second.ends
  | _ => true

/-- Whether each reference of the tree is read as one in its short form: it is one up to nine or to a group
that is opened before it, where so many are opened before the tree. -/
def refersBack : Nat → Expression → Bool
  | opened, group kind body => body.refersBack (opened + if kind.isCapture then 1 else 0)
  | opened, reference number _ => number ≤ lastReference && (number ≤ 9 || number ≤ opened)
  | opened, concat first second | opened, either first second =>
    first.refersBack opened && second.refersBack (opened + first.captures.length)
  | opened, repeated _ _ body => body.refersBack opened
  | _, _ => true

theorem le_lastReference {tree : Expression} {opened : Nat} (refers : tree.refersBack opened = true) :
    ∀ number ∈ tree.references, number ≤ lastReference := by
  intro number among
  induction tree generalizing opened with
  | group kind body ih => exact ih refers among
  | reference other positive =>
      cases List.mem_singleton.mp among
      simp only [refersBack, Bool.and_eq_true, decide_eq_true_eq] at refers
      exact refers.1
  | concat first second ihFirst ihSecond | either first second ihFirst ihSecond =>
      simp only [refersBack, Bool.and_eq_true] at refers
      rcases List.mem_append.mp among with left | right
      · exact ihFirst refers.1 left
      · exact ihSecond refers.2 right
  | repeated amount greed body ih => exact ih refers among
  | _ => cases among

theorem carried {offset total opened : Nat} {tree : Expression} {text place : List Char}
    (ends : tree.ends = true) (placed : tree.placedBefore text.head? = true)
    (refers : tree.refersBack opened = true)
    (writable : ∀ number ∈ tree.references, number + offset ≤ Referent.largestNumber)
    (carried : Carried offset total (opened + tree.captures.length) text place) :
    Carried offset total opened (tree.write shortReference ++ text)
      ((tree.raisedBy offset).write markedReference ++ place) := by
  induction tree generalizing opened text place with
  | empty => exact carried
  | literal c plain =>
      have other : looksBehind c = false :=
        looksBehind_of_passes (· ∉ metacharacters) (decide_eq_true plain) (by decide)
      exact .plain other carried
  | escaped c ordinary =>
      simp only [Expression.ends, Bool.and_eq_true, Bool.not_eq_true', decide_eq_true_eq] at ends
      exact .piece rfl (standing_escape ends.1 ends.2 text place) carried
  | bracket negated first others =>
      simp only [Expression.ends, Bool.and_eq_true] at ends
      have whole := @Carried.piece offset total opened 0 '[' _ text place rfl
        (standing_class ends.2 ends.1 text place) carried
      simpa [write, raisedBy] using whole
  | group kind body ih =>
      have inside : body.placedBefore (')' :: text).head? = true := placed
      have counts : opened + (group kind body).captures.length =
          opened + (if kind.isCapture then 1 else 0) + body.captures.length := by
        simp only [captures]
        cases kind.isCapture <;> simp [Nat.add_assoc, Nat.add_comm]
      rw [counts] at carried
      have whole := ih ends inside refers writable (.plain (c := ')') rfl carried)
      have filled : body.write shortReference ++ ')' :: text ≠ [] := by simp
      have start : ∀ c ∈ (body.write shortReference ++ ')' :: text).head?, c ≠ '?' ∧ c ≠ '*' := by
        intro c first
        constructor
        · rintro rfl
          exact head?_body (by decide) inside first
        · rintro rfl
          exact head?_body (by decide) inside first
      have piece := Carried.piece rfl
        (standing_groupKind kind start filled (whole.head?_eq filled)) whole
      simpa [write, raisedBy] using piece
  | reference number positive =>
      simp only [refersBack, Bool.and_eq_true, Bool.or_eq_true, decide_eq_true_eq] at refers
      have digitless : ∀ c ∈ text.head?, c.isDigit = false := by
        simpa [placedBefore, Option.all_eq_true] using placed
      exact .reference positive refers.2 refers.1 (writable number List.mem_cons_self) digitless
        carried
  | concat first second ihFirst ihSecond =>
      simp only [placedBefore, Bool.and_eq_true, ← List.head?_append] at placed
      simp only [references, List.mem_append] at writable
      simp only [Expression.ends, refersBack, Bool.and_eq_true] at ends refers
      simp only [captures, List.length_append, ← Nat.add_assoc] at carried
      have behind := ihSecond ends.2 placed.2 refers.2
        (fun number among => writable number (.inr among)) carried
      simp only [write, raisedBy, List.append_assoc]
      exact ihFirst ends.1 placed.1 refers.1 (fun number among => writable number (.inl among)) behind
  | either first second ihFirst ihSecond =>
      simp only [placedBefore, Bool.and_eq_true] at placed
      simp only [references, List.mem_append] at writable
      simp only [Expression.ends, refersBack, Bool.and_eq_true] at ends refers
      simp only [captures, List.length_append, ← Nat.add_assoc] at carried
      have behind := ihSecond ends.2 placed.2 refers.2
        (fun number among => writable number (.inr among)) carried
      simp only [write, raisedBy, List.append_assoc, List.cons_append]
      exact ihFirst ends.1 placed.1 refers.1 (fun number among => writable number (.inl among))
        (.plain (c := '|') rfl behind)
  | repeated amount greed body ih =>
      simp only [placedBefore, Bool.and_eq_true] at placed
      simp only [write, raisedBy, List.append_assoc]
      apply ih ends (by rw [head?_amount]; exact placed.2) refers writable
      exact (carried.append_plain (plain_greed greed)).append_plain (plain_amount amount)

/-- A tree whose print is read in a composition as it is read alone. -/
structure Portable (tree : Expression) : Prop where
  placed : tree.placedBefore none = true
  ends : tree.ends = true
  refers : tree.refersBack 0 = true
  shallow : tree.source.toList.count '(' + 1 < Reader.deepestGroup

namespace Portable

variable {tree : Expression}

theorem reads (portable : tree.Portable) {options : Options} (visible : options.extended = false)
    {seen : GroupNames}
    (writable : ∀ number ∈ tree.references, number + (seen.count + 1) ≤ Referent.largestNumber)
    {tokens : List Token} {last : Reader}
    (alone : Reader.Reads (Reader.start options) tree.source.toList tokens last []) :
    last.groups.count = tree.captures.length ∧ .node .keep ∉ tokens ∧
      Reader.Reads { Reader.start options with groups := seen }
        (Pattern.wrapped seen.count tree.source)
        (.opening (.capture none) :: tokens.map (Token.raisedBy (seen.count + 1)))
        (last.within (seen.add none) [(Reader.start options).current]) [')'] := by
  have small : ∀ number ∈ tree.references, number ≤ largestReference := by
    intro number among
    have bound := writable number among
    have less : Referent.largestNumber ≤ largestReference := by decide
    omega
  have raised := raise_source (seen.count + 1) portable.placed small
  have atEnd : Carried (seen.count + 1) tree.captures.length (0 + tree.captures.length) [] [')'] := by
    rw [Nat.zero_add]
    exact .ended
  have carried := @carried _ _ 0 tree [] _ portable.ends portable.placed portable.refers writable atEnd
  have text : tree.source.toList = tree.write shortReference := String.toList_ofList
  have shallow := portable.shallow
  rw [List.append_nil, ← text] at carried
  have room : (Reader.start options).outer.length + [(Reader.start options).current].length +
      tree.source.toList.count '(' < Reader.deepestGroup := by
    simp only [Reader.start, List.length_nil, List.length_singleton]
    omega
  obtain ⟨count, unkept, reads⟩ := @Reader.Reads.carried options options (seen.add none)
    [(Reader.start options).current] _ _ _ _ _ _ _ alone rfl carried (.start options) visible
    (.start options) room
  have start : ∀ c ∈ ((tree.raisedBy (seen.count + 1)).write markedReference ++ [')']).head?,
      c ≠ '?' ∧ c ≠ '*' := by
    apply carried.head?_of_text (fun c => c ≠ '?' ∧ c ≠ '*') (by decide)
    rw [text]
    intro c first
    constructor
    · rintro rfl
      exact head?_write (by decide) portable.placed first
    · rintro rfl
      exact head?_write (by decide) portable.placed first
  rw [Pattern.wrapped, raised]
  exact ⟨count, unkept, .next (token_capture seen start (by simp))
    (Reader.add_opening options seen _) reads⟩

theorem countGroups (portable : tree.Portable) {flags : Flags} {regex : Regex}
    (accepted : engine flags tree.source = .ok regex) :
    countGroups tree.source = regex.groups := by
  have short := le_lastReference portable.refers
  have small : ∀ number ∈ tree.references, number ≤ largestReference :=
    fun number among => Nat.le_trans (short number among) (by decide)
  have writable : ∀ number ∈ tree.references,
      number + (({} : GroupNames).count + 1) ≤ Referent.largestNumber :=
    fun number among => Nat.le_trans (Nat.add_le_add_right (short number among) _) (by decide)
  obtain ⟨parsed, plan, readAlone, _, rfl⟩ := engine_eq_ok.mp accepted
  obtain ⟨last, reads, finished⟩ := bind_eq_ok.mp readAlone
  obtain ⟨node, _, same⟩ := bind_eq_ok.mp finished
  cases same
  obtain ⟨tokens, alone⟩ := Reader.reads_of_readOn reads
  have count := (portable.reads rfl writable alone).1
  rw [Pattern.countGroups, raise_source 0 portable.placed small]
  exact count.symm

end Portable

/-- Printed trees carry over into their composition if each of them can be read alone. -/
theorem carriesOver_sources {options : Options} (visible : options.extended = false)
    {trees : List Expression} (portable : ∀ tree ∈ trees, tree.Portable)
    (read : ∀ tree ∈ trees, ∃ parsed, parse options tree.source.toList = .ok parsed)
    {seen : GroupNames}
    (writable : ∀ position (inside : position < trees.length), ∀ number ∈ trees[position].references,
      number + (seen.count + wrapper trees position) ≤ Referent.largestNumber) :
    carriesOver options seen (trees.map source) = true := by
  induction trees generalizing seen with
  | nil => rfl
  | cons tree trees ih =>
      obtain ⟨parsed, readAlone⟩ := read tree List.mem_cons_self
      obtain ⟨last, reads, _⟩ := bind_eq_ok.mp readAlone
      obtain ⟨tokens, alone⟩ := Reader.reads_of_readOn reads
      obtain ⟨count, unkept, inPlace⟩ := (portable tree List.mem_cons_self).reads visible
        (fun number among => writable 0 (Nat.succ_pos _) number among) alone
      have tokensAlone := alone.tokensUpTo (Nat.le_of_add_right_le alone.length_le)
      have tokensThere := inPlace.tokensUpTo (Nat.le_of_add_right_le inPlace.length_le)
      have others : carriesOver options (last.groups.behind (seen.add none)) (trees.map source) =
          true := by
        apply ih (fun other among => portable other (List.mem_cons_of_mem _ among))
          (fun other among => read other (List.mem_cons_of_mem _ among))
        intro position inside number among
        have bound := writable (position + 1) (Nat.succ_lt_succ inside) number among
        rw [wrapper_cons_succ] at bound
        simp only [GroupNames.behind, GroupNames.add, count]
        omega
      simp only [List.map_cons, carriesOver]
      rw [tokensAlone, tokensThere]
      simp [unkept, others, Reader.within]

end Expression

namespace RuleSet

open Expression (wrapper)

/-- Trees that can be printed in a composition are compiled together and found as they are alone, if each
of them can be compiled alone. -/
theorem compile_trees {flags : Flags} {items : List (Rule × Expression)} {alone : List Regex}
    (portable : ∀ item ∈ items, item.2.Portable)
    (accepted : List.Forall₂ (fun item regex => engine flags item.2.source = .ok regex) items alone)
    (writable : ∀ position (inside : position < items.length),
      ∀ number ∈ items[position].2.references,
        number + wrapper (items.map (·.2)) position ≤ Referent.largestNumber) :
    ∃ set, compile engine flags (items.map fun item => (item.1, item.2.source)) = .ok set ∧
      set.FindsAsAlone ((items.map (·.1)).zip alone) := by
  have counted : List.Forall₂ (fun item regex => engine flags item.2 = .ok regex ∧
      countGroups item.2 = regex.groups) (items.map fun item => (item.1, item.2.source)) alone := by
    apply List.forall₂_map_left_iff.mpr
    exact ((List.forall₂_and_left _ _).mpr ⟨portable, accepted⟩).imp
      fun _ _ both => ⟨both.2, both.1.countGroups both.2⟩
  have read : ∀ item ∈ items, ∃ parsed,
      parse { ignoreCase := flags.ignoreCase } item.2.source.toList = .ok parsed := by
    clear portable writable counted
    induction accepted with
    | nil => exact fun item impossible => absurd impossible List.not_mem_nil
    | cons first _ ih =>
        intro item among
        rcases List.mem_cons.mp among with rfl | later
        · obtain ⟨parsed, _, parses, _⟩ := engine_eq_ok.mp first
          exact ⟨parsed, parses⟩
        · exact ih item later
  have carried : carriesOver { ignoreCase := flags.ignoreCase } {}
      ((items.map (·.2)).map Expression.source) = true := by
    apply Expression.carriesOver_sources rfl
    · intro tree among
      obtain ⟨item, inside, rfl⟩ := List.mem_map.mp among
      exact portable item inside
    · intro tree among
      obtain ⟨item, inside, rfl⟩ := List.mem_map.mp among
      exact read item inside
    · intro position inside number among
      rw [Nat.zero_add]
      simp only [List.length_map, List.getElem_map] at inside among
      exact writable position inside number among
  obtain ⟨parts, same, rfl⟩ := Part.exists_parts counted
  have sources : (items.map (·.2)).map Expression.source = parts.map Part.source := by
    have sources := congrArg (List.map (·.2)) same
    rw [List.map_map, List.map_map] at sources
    rw [List.map_map]
    exact sources
  have rules : items.map (·.1) = parts.map Part.rule := by
    have rules := congrArg (List.map (·.1)) same
    rw [List.map_map, List.map_map] at rules
    exact rules
  rw [sources] at carried
  obtain ⟨set, compiled, finds⟩ := compile_parts carried
  refine ⟨set, by rw [same]; exact compiled, ?_⟩
  rw [rules, List.zip_map']
  exact finds

open Expression in
example : (concat (group .capture (bracket true (.char 'a' (by decide)) [.escaped ']']))
    (repeated .star .lazy (reference 1 (by decide)))).Portable :=
  ⟨by decide, by decide, by decide, by decide +kernel⟩

end RuleSet

end Highlight.Pattern
