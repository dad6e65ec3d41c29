import Highlight.Proofs.Grammar.Places
import Highlight.Scan.Step

set_option autoImplicit false

/-! Where matches lie. A lawful pattern finds spans that lie in the text, each in order, and the match
of a set of patterns has only such spans; but a group can lie behind the match that it belongs to, since
a look ahead can remember what the match does not take up. `Grammar.GroupsEnclosed` says that none of
the groups that a match is split up by does. -/

namespace Highlight

open Outcome

namespace Pattern

theorem Regex.Lawful.find?_within {regex : Regex} (lawful : regex.Lawful) {text : Text}
    {position : Nat} {span : Span} (found : regex.find? text position = some span) :
    position ≤ span.start ∧ span.start ≤ span.stop ∧ span.stop ≤ text.size := by
  obtain ⟨captures, searched, whole⟩ := Option.bind_eq_some_iff.mp found
  obtain ⟨first, here, starts⟩ := lawful.search_starts _ _ _ searched
  rw [here] at whole
  obtain rfl : first = span := by simpa using whole
  exact ⟨starts, lawful.search_within _ _ _ searched first (Array.mem_of_getElem? here)⟩

/-- The pattern without those of its answers that do not keep to the text. -/
def Regex.confined (regex : Regex) : Regex where
  source := regex.source
  groups := regex.groups
  search text position := (regex.search text position).filter fun captures =>
    captures[0]?.join.any (fun span => decide (position ≤ span.start)) &&
      captures.all fun span =>
        span.all fun span => decide (span.start ≤ span.stop) && decide (span.stop ≤ text.size)
  matchAt text position := (regex.matchAt text position).filter fun stop =>
    decide (position ≤ stop) && decide (stop ≤ text.size)

theorem Regex.confined_lawful (regex : Regex) : regex.confined.Lawful where
  search_starts := by
    intro text position captures found
    obtain ⟨_, kept⟩ := Option.filter_eq_some_iff.mp found
    obtain ⟨starts, _⟩ := (Bool.and_eq_true _ _).mp kept
    cases joined : captures[0]?.join with
    | none => simp [joined] at starts
    | some span => exact ⟨span, Option.join_eq_some_iff.mp joined, by simpa [joined] using starts⟩
  search_within := by
    intro text position captures found span member
    obtain ⟨_, kept⟩ := Option.filter_eq_some_iff.mp found
    obtain ⟨_, within⟩ := (Bool.and_eq_true _ _).mp kept
    simpa using Array.all_eq_true_iff_forall_mem.mp within _ member
  matchAt_within := by
    intro text position stop found
    obtain ⟨_, kept⟩ := Option.filter_eq_some_iff.mp found
    simpa using kept

def Engine.confined (engine : Engine) : Engine := fun flags source =>
  (engine flags source).map Regex.confined

theorem Engine.confined_lawful (engine : Engine) : engine.confined.Lawful := by
  intro flags source regex made
  unfold Engine.confined at made
  cases given : engine flags source with
  | error cause =>
      rw [given] at made
      cases made
  | ok other =>
      rw [given] at made
      obtain rfl := Except.ok.inj made
      exact other.confined_lawful

/-- A match in order: it starts no earlier than the search, and its spans lie in the text. -/
structure RuleMatch.Lies (found : RuleMatch) (text : Text) (position : Nat) : Prop where
  start : position ≤ found.start
  order : found.start ≤ found.stop
  stop : found.stop ≤ text.size
  whole : found.span? 0 = some ⟨found.start, found.stop⟩
  spans : ∀ group span, found.span? group = some span →
    span.start ≤ span.stop ∧ span.stop ≤ text.size

private theorem mem_of_join {captures : Captures} {group : Nat} {span : Span}
    (found : captures[group]?.join = some span) : some span ∈ captures :=
  Array.mem_of_getElem? (Option.join_eq_some_iff.mp found)

theorem RuleSet.find?_lies {set : RuleSet} {text : Text} {position : Nat} {found : RuleMatch}
    (lawful : ∀ regex, set.regex = some regex → regex.Lawful)
    (sighted : set.find? text position = some found) : found.Lies text position := by
  obtain ⟨regex, present, sighted⟩ := Option.bind_eq_some_iff.mp sighted
  obtain ⟨captures, searched, sighted⟩ := Option.bind_eq_some_iff.mp sighted
  obtain ⟨whole, here, sighted⟩ := Option.bind_eq_some_iff.mp sighted
  obtain ⟨⟨rule, wrapper, groups⟩, _, sighted⟩ := Option.bind_eq_some_iff.mp sighted
  obtain rfl := Option.some.inj sighted
  have law := lawful regex present
  obtain ⟨first, same, starts⟩ := law.search_starts _ _ _ searched
  have each := law.search_within _ _ _ searched
  obtain rfl : first = whole := by simpa [same] using here
  have wholeWithin := each first (mem_of_join here)
  refine ⟨starts, wholeWithin.1, wholeWithin.2, rfl, fun group span spanned => ?_⟩
  rcases List.mem_cons.mp (List.mem_toArray.mp (mem_of_join spanned)) with same | inner
  · obtain rfl := Option.some.inj same
    exact wholeWithin
  · obtain ⟨other, _, joined⟩ := List.mem_map.mp inner
    exact each span (mem_of_join joined)

/-- None of some groups that start within the match ends behind it. -/
def RuleMatch.Encloses (found : RuleMatch) (groups : List (Nat × Option String)) : Prop :=
  ∀ entry ∈ groups, ∀ span, found.span? entry.1 = some span → found.start ≤ span.start →
    span.stop ≤ found.stop

end Pattern

def Emission.isWhole : Emission → Bool
  | .whole _ => true
  | .groups scopes => scopes.all fun entry => entry.1 == 0

namespace Grammar

structure Lawful (grammar : Grammar) : Prop where
  matcher : ∀ place set regex, grammar.matcher place = .ok set → set.regex = some regex →
    regex.Lawful
  keywords : ∀ place table, (grammar.mode place).keywords = some table → table.pattern.Lawful

/-- Where a match is split up by its groups, they are enclosed in it: by those of the mode that begins,
by those of the end of the innermost mode, or by those of a mode that is started. -/
structure Encloses (grammar : Grammar) (place : Nat) (found : Pattern.RuleMatch) : Prop where
  begins : ∀ child scopes, found.rule = .begins child →
    (grammar.mode child).beginScope = some (.groups scopes) → found.Encloses scopes
  ends : ∀ scopes, found.rule = .ends →
    (grammar.mode place).endScope = some (.groups scopes) → found.Encloses scopes
  starts : ∀ outer next scopes, found.rule = .ends → (grammar.mode outer).starts = some next →
    (grammar.mode next).beginScope = some (.groups scopes) → found.Encloses scopes

/-- No match in the grammar is split up by groups that end behind it. -/
def GroupsEnclosed (grammar : Grammar) : Prop :=
  ∀ place set text position found, grammar.matcher place = .ok set →
    set.find? text position = some found → grammar.Encloses place found

/-- The match as a whole is enclosed in itself, so a grammar that gives scopes to no other group splits
no match up by groups that end behind it. -/
theorem GroupsEnclosed.of_whole {grammar : Grammar} (lawful : grammar.Lawful)
    (whole : ∀ mode ∈ grammar.modes, ∀ emission, mode.beginScope = some emission ∨
      mode.endScope = some emission → emission.isWhole = true) : grammar.GroupsEnclosed := by
  intro place set text position found compiled sighted
  have lies : found.Lies text position :=
    Pattern.RuleSet.find?_lies (fun regex => lawful.matcher place set regex compiled) sighted
  have encloses : ∀ place scopes, (grammar.mode place).beginScope = some (.groups scopes) ∨
      (grammar.mode place).endScope = some (.groups scopes) → found.Encloses scopes := by
    intro place scopes shape entry member span spanned _
    have only := @mode_induction grammar (fun mode => ∀ emission, mode.beginScope = some emission ∨
      mode.endScope = some emission → emission.isWhole = true) whole (by simp) place _ shape
    obtain zero : entry.1 = 0 := by simpa using List.all_eq_true.mp only entry member
    rw [zero, lies.whole] at spanned
    obtain rfl := Option.some.inj spanned
    exact Nat.le_refl _
  exact ⟨fun child scopes _ shape => encloses child scopes (.inl shape),
    fun scopes _ shape => encloses place scopes (.inr shape),
    fun _ next scopes _ _ shape => encloses next scopes (.inl shape)⟩

section

variable {engine : Pattern.Engine}

theorem regex_of_compile {flags : Pattern.Flags} {items : List (Pattern.Rule × String)}
    {set : Pattern.RuleSet} {regex : Pattern.Regex}
    (compiled : Pattern.RuleSet.compile engine flags items = .ok set)
    (present : set.regex = some regex) : ∃ source, engine flags source = .ok regex := by
  unfold Pattern.RuleSet.compile at compiled
  dsimp only at compiled
  split at compiled
  · obtain rfl := Except.ok.inj compiled
    cases present
  · split at compiled
    · rename_i other made
      obtain rfl := Except.ok.inj compiled
      obtain rfl := Option.some.inj present
      exact ⟨_, made⟩
    · cases compiled

theorem pattern_of_compile {flags : Pattern.Flags} {keywords : KeywordSource} {table : KeywordTable}
    (compiled : KeywordTable.compile engine flags keywords = .ok table) :
    ∃ source, engine flags source = .ok table.pattern := by
  obtain ⟨words, _, compiled⟩ := bind_eq_ok.mp compiled
  dsimp only at compiled
  split at compiled
  · rename_i pattern made
    obtain rfl := pure_eq_ok.mp compiled
    exact ⟨_, made⟩
  · cases compiled

def SuitsKeywords (mode : Mode) : Prop :=
  ∀ table, mode.keywords = some table → table.pattern.Lawful

theorem suits_keywords (lawful : engine.Lawful) (definition : GrammarDefinition) :
    Compilation.Suits (compilation engine definition) SuitsKeywords where
  empty := by simp [SuitsKeywords]
  own := by
    intro mode parent terminator own made table found
    rcases optionMapM_eq_ok (Compilation.ownPart_eq_ok made).keywords with
      ⟨_, none_⟩ | ⟨source, other, _, same, compiled⟩
    · cases found.symm.trans none_
    · obtain rfl := Option.some.inj (found.symm.trans same)
      obtain ⟨_, made⟩ := pattern_of_compile compiled
      exact lawful _ _ _ made
  linked := fun mode contains starts suits => suits

theorem regex_of_matcher {name : String} {definition : GrammarDefinition} {grammar : Grammar}
    (compiled : compile engine name definition = .ok grammar) {place : Nat} {set : Pattern.RuleSet}
    (found : grammar.matcher place = .ok set) {regex : Pattern.Regex}
    (present : set.regex = some regex) : ∃ flags source, engine flags source = .ok regex := by
  unfold compile at compiled
  split at compiled
  · cases compiled
  · obtain ⟨modes, _, compiled⟩ := bind_eq_ok.mp compiled
    obtain rfl := pure_eq_ok.mp compiled
    unfold matcher at found
    dsimp only at found
    rw [Array.getElem?_map] at found
    cases placed : modes[place]? with
    | none =>
        rw [placed] at found
        obtain rfl := Except.ok.inj found
        cases present
    | some mode =>
        rw [placed] at found
        exact ⟨_, regex_of_compile found present⟩

theorem lawful_of_compile {name : String} {definition : GrammarDefinition} {grammar : Grammar}
    (lawful : engine.Lawful) (compiled : compile engine name definition = .ok grammar) :
    grammar.Lawful ∧ grammar.Closed 0 := by
  obtain ⟨closed, suits⟩ := @closed_of_sound _ _ _ _ 0 _ compiled (suits_keywords lawful definition)
    (Nat.zero_le _) (by simp)
  refine ⟨⟨?_, mode_induction suits (by simp [SuitsKeywords])⟩, closed⟩
  intro place set regex found present
  obtain ⟨_, _, made⟩ := regex_of_matcher compiled found present
  exact lawful _ _ _ made

end

end Grammar

end Highlight
