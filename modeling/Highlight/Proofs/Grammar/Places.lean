import Highlight.Grammar.Basic
import Highlight.Proofs.Grammar.Steps
import Mathlib.Logic.Relation

set_option autoImplicit false

/-! The places of compiled modes. While a grammar is compiled, its arena only grows, and every place that
a mode refers to, as one that it contains or as the one that it starts, is taken already. Without
extensions it is not that of the root either, so the places to refer to begin with a first one, which is
that of the root or the next. `Arena.Sound` says so, each step of the compilation keeps it, and with it
what holds of the own part of every mode. -/

namespace Highlight

open Outcome

namespace Compilation

namespace Arena

def Holds (first : Nat) (arena : Arena) (place : Nat) : Prop :=
  first ≤ place ∧ place < arena.modes.size

/-- The root has its place, all modes have a property, and none refers to a place before the first one
or to one that is not taken. -/
structure Sound (first : Nat) (suits : Mode → Prop) (arena : Arena) : Prop where
  root : 0 < arena.modes.size
  modes : ∀ mode ∈ arena.modes, suits mode
  contains : ∀ mode ∈ arena.modes, ∀ child ∈ mode.contains, arena.Holds first child
  starts : ∀ mode ∈ arena.modes, ∀ next, mode.starts = some next → arena.Holds first next
  references : ∀ entry ∈ arena.references, ∀ place ∈ entry.2, arena.Holds first place

variable {first : Nat} {suits : Mode → Prop}

theorem Holds.grow {before after : Arena} {place : Nat} (holds : before.Holds first place)
    (grows : before.modes.size ≤ after.modes.size) : after.Holds first place :=
  ⟨holds.1, Nat.lt_of_lt_of_le holds.2 grows⟩

/-- An arena stays sound as it grows, as long as what is new in it has the property and refers to places
that are taken. -/
theorem Sound.grow {before after : Arena} (sound : before.Sound first suits)
    (grows : before.modes.size ≤ after.modes.size)
    (modes : ∀ mode ∈ after.modes, mode ∈ before.modes ∨
      suits mode ∧ (∀ child ∈ mode.contains, after.Holds first child) ∧
        ∀ next, mode.starts = some next → after.Holds first next)
    (references : ∀ entry ∈ after.references, entry ∈ before.references ∨
      ∀ place ∈ entry.2, after.Holds first place) : after.Sound first suits where
  root := Nat.lt_of_lt_of_le sound.root grows
  modes := by
    intro mode member
    rcases modes mode member with old | ⟨new, _, _⟩
    · exact sound.modes mode old
    · exact new
  contains := by
    intro mode member child within
    rcases modes mode member with old | ⟨_, new, _⟩
    · exact (sound.contains mode old child within).grow grows
    · exact new child within
  starts := by
    intro mode member next follows
    rcases modes mode member with old | ⟨_, _, new⟩
    · exact (sound.starts mode old next follows).grow grows
    · exact new next follows
  references := by
    intro entry member place within
    rcases references entry member with old | new
    · exact (sound.references entry old place within).grow grows
    · exact new place within

theorem Sound.grown {arena : Arena} (sound : arena.Sound first suits) (empty : suits {})
    (count : Nat) : (arena.grown count).Sound first suits := by
  refine sound.grow (by simp) (fun mode member => ?_) fun entry member => Or.inl member
  rcases Array.mem_append.mp member with old | new
  · exact Or.inl old
  · obtain ⟨_, rfl⟩ := Array.mem_replicate.mp new
    exact Or.inr (by simp [empty])

theorem Sound.put {arena : Arena} (sound : arena.Sound first suits) (place : Nat) {mode : Mode}
    (suit : suits mode) (contains : mode.contains = []) (starts : mode.starts = none) :
    (arena.put place mode).Sound first suits := by
  refine sound.grow (by simp) ?_ fun entry member => Or.inl member
  intro other member
  rcases Array.mem_or_eq_of_mem_setIfInBounds member with old | rfl
  · exact Or.inl old
  · exact Or.inr (by simp [suit, contains, starts])

theorem Sound.link {arena : Arena} (sound : arena.Sound first suits)
    (linked : ∀ mode contains starts, suits mode → suits { mode with contains, starts })
    {place : Nat} {contains : List Nat} {starts : Option Nat}
    (containsHold : ∀ child ∈ contains, arena.Holds first child)
    (startsHold : ∀ next, starts = some next → arena.Holds first next) :
    (arena.link place contains starts).Sound first suits := by
  have same : ∀ place', arena.Holds first place' →
      (arena.link place contains starts).Holds first place' :=
    fun place' holds => holds.grow (by simp)
  refine sound.grow (by simp) ?_ fun entry member => Or.inl (List.mem_filter.mp member).1
  intro mode member
  obtain ⟨other, found⟩ := Array.getElem?_of_mem member
  simp only [Arena.link, Array.getElem?_modify] at found
  split at found
  · obtain ⟨before, old, rfl⟩ := Option.map_eq_some_iff.mp found
    exact Or.inr ⟨linked before _ _ (sound.modes before (Array.mem_of_getElem? old)),
      fun child within => same _ (containsHold child within),
      fun next follows => same _ (startsHold next follows)⟩
  · exact Or.inl (Array.mem_of_getElem? found)

theorem Sound.refer {arena : Arena} (sound : arena.Sound first suits) {reference : Reference}
    {places : List Nat} (hold : ∀ place ∈ places, arena.Holds first place) :
    Sound first suits { arena with references := (reference, places) :: arena.references } := by
  refine sound.grow (Nat.le_refl _) (fun mode member => Or.inl member) fun entry member => ?_
  rcases List.mem_cons.mp member with rfl | old
  · exact Or.inr hold
  · exact Or.inl old

end Arena

/-! ### Steps of the compilation -/

/-- What every mode of a grammar has: the mode that says nothing has it, the own part of a definition
has it, and which other modes a mode refers to does not matter. -/
structure Suits (context : Context) (suits : Mode → Prop) : Prop where
  empty : suits {}
  own : ∀ definition parent terminator own,
    ownPart context definition parent terminator = .ok own → suits own
  linked : ∀ mode contains starts, suits mode → suits { mode with contains, starts }

section

variable {context : Context} {first : Nat} {suits : Mode → Prop}

/-- A way to compile a definition into a place that is taken keeps arenas sound, provided that a
definition put before the first place to refer to does not contain itself. -/
def IntoKeeps (context : Context) (first : Nat) (suits : Mode → Prop) (into : Into) : Prop :=
  ∀ pending place definition parent before done after,
    (place < first → ∀ normal,
      definition.normalize parent.isSome context.extensions = .ok normal →
        .itself ∉ normal.contains) →
    before.Sound first suits → place < before.modes.size →
    (into pending place definition parent).run before = .ok (done, after) → after.Sound first suits

variable {into : Into} {pending : List Pending} {before after : Arena}

theorem compileNew_keeps (suit : Suits context suits) (next : first ≤ 1)
    (intoFills : IntoFills into) (intoKeeps : IntoKeeps context first suits into)
    {definition : ModeDefinition} {parent : Option Nat} {place : Nat}
    (sound : before.Sound first suits)
    (ran : (compileNew context into pending definition parent).run before = .ok (place, after)) :
    after.Sound first suits ∧ after.Holds first place := by
  obtain ⟨rfl, filling⟩ := compileNew_eq_ok ran
  have reached : first ≤ before.modes.size := Nat.le_trans next sound.root
  have grows := (intoFills _ _ _ _ _ _ _ filling).size
  simp only [Arena.size_grown] at grows
  exact ⟨intoKeeps _ _ _ _ _ _ _ (fun early => absurd early (Nat.not_lt.mpr reached))
    (sound.grown suit.empty 1) (by simp) filling, reached, grows⟩

theorem compileShared_keeps (suit : Suits context suits) (next : first ≤ 1)
    (intoFills : IntoFills into) (intoKeeps : IntoKeeps context first suits into)
    {parent : Nat} {name : String} {places : List Nat} (sound : before.Sound first suits)
    (ran : (compileShared context into pending parent name).run before = .ok (places, after)) :
    after.Sound first suits ∧ ∀ place ∈ places, after.Holds first place := by
  obtain ⟨definition, _, ⟨known, rfl⟩ | ⟨rfl, expands⟩⟩ := compileShared_eq_ok ran
  · exact ⟨sound, sound.references _ known⟩
  · have reached : first ≤ before.modes.size := Nat.le_trans next sound.root
    have hold : ∀ place ∈ List.range' before.modes.size definition.expanded.length,
        (before.grown definition.expanded.length).Holds first place := by
      intro place member
      obtain ⟨least, most⟩ := List.mem_range'_1.mp member
      exact ⟨Nat.le_trans reached least, by simpa using most⟩
    have kept := @Expands.induction _ _ _ _ _ _ _ _ intoFills expands
      (fun _ arena => arena.Sound first suits ∧
        before.modes.size + definition.expanded.length ≤ arena.modes.size)
      ⟨(sound.grown suit.empty _).refer hold, by simp [Arena.referring]⟩
      fun done item middle next member ⟨middleSound, large⟩ _ taken _ filling =>
        ⟨intoKeeps _ _ _ _ _ _ _ (fun early => absurd early (Nat.not_lt.mpr
          (Nat.le_trans reached (sharedItems_range member |>.1)))) middleSound taken filling,
          Nat.le_trans large (intoFills _ _ _ _ _ _ _ filling).size⟩
    exact ⟨kept.1.1, fun place member => (hold place member).grow (by simpa using kept.1.2)⟩

theorem compileEntry_keeps (suit : Suits context suits) (next : first ≤ 1)
    (intoFills : IntoFills into) (intoKeeps : IntoKeeps context first suits into) {place : Nat}
    {entry : ContainsEntry ModeDefinition} {places : List Nat}
    (other : place < first → entry ≠ .itself) (sound : before.Sound first suits)
    (taken : place < before.modes.size)
    (ran : (compileEntry context into pending place entry).run before = .ok (places, after)) :
    after.Sound first suits ∧ ∀ child ∈ places, after.Holds first child := by
  cases entry with
  | itself =>
      obtain ⟨rfl, rfl⟩ := run_pure_eq_ok.mp ran
      refine ⟨sound, fun child member => ?_⟩
      obtain rfl := List.mem_singleton.mp member
      exact ⟨Nat.le_of_not_lt fun early => other early rfl, taken⟩
  | shared name => exact compileShared_keeps suit next intoFills intoKeeps sound ran
  | inline definition =>
      refine @mapM_induction _ _ _ _ _ (fun _ found arena =>
        arena.Sound first suits ∧ ∀ child ∈ found, arena.Holds first child) _ _ ran
        ⟨sound, by simp⟩ ?_
      rintro _ _ _ found middle place last - ⟨middleSound, hold⟩ stepped
      obtain ⟨lastSound, holds⟩ := compileNew_keeps suit next intoFills intoKeeps middleSound stepped
      have grows := (compileNew_extends intoFills stepped place).size
      refine ⟨lastSound, fun child member => ?_⟩
      rcases List.mem_append.mp member with early | late
      · exact (hold child early).grow grows
      · exact List.mem_singleton.mp late ▸ holds

/-- The root does not contain itself once it has been normalized either. -/
theorem not_itself_of_normalize {definition normal : ModeDefinition} {contained : Bool}
    (normalized : definition.normalize contained [] = .ok normal)
    (other : Grammar.containsItself definition = false) : .itself ∉ normal.contains := by
  intro member
  rcases ModeDefinition.normalize_cases normalized with ⟨same, _⟩ | behind
  · rw [same.contains] at member
    have itself : Grammar.containsItself definition = true :=
      List.any_eq_true.mpr ⟨_, member, rfl⟩
    simp [other] at itself
  · simp [behind.contains] at member

theorem compileWith_keeps (suit : Suits context suits) (next : first ≤ 1)
    (intoFills : IntoFills into) (intoKeeps : IntoKeeps context first suits into) :
    IntoKeeps context first suits (compileWith context into) := by
  intro pending place definition parent before done after other sound taken ran
  obtain ⟨normal, normalized, own, contains, filled, starts, started, steps⟩ := compileWith_eq_ok ran
  have made := ownPart_eq_ok steps.made
  obtain ⟨⟨filledSound, containsHold⟩, _⟩ := @mapM_induction _ _ _ _ _ (fun _ found arena =>
      (arena.Sound first suits ∧ ∀ children ∈ found, ∀ child ∈ children, arena.Holds first child) ∧
        place < arena.modes.size) _ _ steps.filling
    ⟨⟨sound.put place (suit.own _ _ _ _ steps.made) made.contains made.starts, by simp⟩,
      by simpa using taken⟩ (by
        rintro done entry rest found middle places last split ⟨⟨middleSound, hold⟩, middleTaken⟩ stepped
        have member : entry ∈ normal.contains := by simp [split]
        obtain ⟨lastSound, placesHold⟩ := compileEntry_keeps suit next intoFills intoKeeps
          (fun early same => other early normal normalized (same ▸ member)) middleSound middleTaken
          stepped
        have grows := (compileEntry_extends intoFills stepped).size
        refine ⟨⟨lastSound, fun children among child within => ?_⟩,
          Nat.lt_of_lt_of_le middleTaken grows⟩
        rcases List.mem_append.mp among with early | late
        · exact (hold children early child within).grow grows
        · exact placesHold child (List.mem_singleton.mp late ▸ within))
  have startedKeeps : started.Sound first suits ∧ filled.modes.size ≤ started.modes.size ∧
      ∀ next, starts = some next → started.Holds first next := by
    rcases steps.starting with ⟨_, rfl, rfl⟩ | ⟨definition, nextPlace, _, rfl, starting⟩
    · exact ⟨filledSound, Nat.le_refl _, by simp⟩
    · obtain ⟨lastSound, holds⟩ := compileNew_keeps suit next intoFills intoKeeps filledSound starting
      exact ⟨lastSound, (compileNew_extends intoFills starting place).size, by simpa using holds⟩
  obtain ⟨startedSound, startedGrows, startsHold⟩ := startedKeeps
  obtain rfl := steps.linked
  refine startedSound.link suit.linked (fun child member => ?_) startsHold
  obtain ⟨children, among, within⟩ := List.mem_flatten.mp member
  exact (containsHold children among child within).grow startedGrows

theorem compileInto_keeps (suit : Suits context suits) (next : first ≤ 1) (depth : Nat) :
    IntoKeeps context first suits (compileInto context depth) := by
  induction depth with
  | zero =>
      intro _ _ _ _ _ _ _ _ _ _ ran
      cases ran
  | succ depth ih => exact compileWith_keeps suit next (compileInto_fills depth) ih

theorem compileModes_sound (suit : Suits context suits) (next : first ≤ 1) {root : ModeDefinition}
    (other : 0 < first → ∀ normal, root.normalize false context.extensions = .ok normal →
      .itself ∉ normal.contains)
    {modes : Array Mode} (compiled : compileModes context root = .ok modes) :
    ∃ arena : Arena, arena.Sound first suits ∧ arena.modes = modes := by
  obtain ⟨arena, filling, rfl⟩ := compileModes_eq_ok compiled
  have sound : Arena.Sound first suits (Arena.grown {} 1) := by
    constructor <;> simp [Arena.grown, suit.empty]
  exact ⟨arena, compileInto_keeps suit next context.places [] 0 root none _ _ _ other sound
    (by simp) filling, rfl⟩

end

end Compilation

namespace Grammar

/-- What holds of all modes of a grammar, and of the mode that stands for none, holds at each place. -/
theorem mode_induction {grammar : Grammar} {property : Mode → Prop}
    (all : ∀ mode ∈ grammar.modes, property mode) (missing : property {}) (place : Nat) :
    property (grammar.mode place) := by
  unfold mode
  cases found : grammar.modes[place]? with
  | none => exact missing
  | some mode => exact all mode (Array.mem_of_getElem? found)

def Holds (first : Nat) (grammar : Grammar) (place : Nat) : Prop :=
  first ≤ place ∧ place < grammar.modes.size

/-- No mode of the grammar refers to a place before the first one or to one that is not there, and modes
begin only in modes that contain them. -/
structure Closed (first : Nat) (grammar : Grammar) : Prop where
  root : 0 < grammar.modes.size
  contains : ∀ place, ∀ child ∈ (grammar.mode place).contains, grammar.Holds first child
  starts : ∀ place next, (grammar.mode place).starts = some next → grammar.Holds first next
  begins : ∀ place matcher child, grammar.matcher place = .ok matcher →
    .begins child ∈ matcher.rules → child ∈ (grammar.mode place).contains

theorem rules_of_compile {engine : Pattern.Engine} {flags : Pattern.Flags}
    {items : List (Pattern.Rule × String)} {set : Pattern.RuleSet}
    (compiled : Pattern.RuleSet.compile engine flags items = .ok set) :
    set.rules = items.map (·.1) := by
  unfold Pattern.RuleSet.compile at compiled
  dsimp only at compiled
  split at compiled
  · obtain rfl := Except.ok.inj compiled
    rfl
  · split at compiled
    · obtain rfl := Except.ok.inj compiled
      rfl
    · cases compiled

/-- The modes that can begin in a mode are among those that it contains. -/
theorem mem_contains_of_rule {modes : Array Mode} {mode : Mode} {child : Nat}
    (member : .begins child ∈ (mode.rules modes).map (·.1)) : child ∈ mode.contains := by
  obtain ⟨⟨rule, source⟩, listed, same⟩ := List.mem_map.mp member
  obtain rfl : rule = .begins child := same
  unfold Mode.rules at listed
  simp only [List.mem_append, List.mem_filterMap, List.mem_map] at listed
  rcases listed with (⟨other, within, found⟩ | ending) | ⟨_, _, illegal⟩
  · obtain ⟨_, _, pair⟩ := Option.map_eq_some_iff.mp found
    obtain rfl := Pattern.Rule.begins.inj (Prod.mk.inj pair).1
    exact within
  · split at ending
    · cases ending
    · cases List.mem_singleton.mp ending
  · cases illegal

theorem mem_contains_of_matcher {grammar : Grammar} {engine : Pattern.Engine}
    {flags : Pattern.Flags}
    (matchers : grammar.matchers = grammar.modes.map fun mode => Thunk.mk fun _ =>
      Pattern.RuleSet.compile engine flags (mode.rules grammar.modes))
    {place child : Nat} {set : Pattern.RuleSet} (found : grammar.matcher place = .ok set)
    (member : .begins child ∈ set.rules) : child ∈ (grammar.mode place).contains := by
  unfold matcher at found
  unfold Grammar.mode
  rw [matchers, Array.getElem?_map] at found
  cases placed : grammar.modes[place]? with
  | none =>
      rw [placed] at found
      obtain rfl := Except.ok.inj found
      cases member
  | some mode =>
      rw [placed] at found
      rw [rules_of_compile found] at member
      exact mem_contains_of_rule member

theorem compile_eq_ok {engine : Pattern.Engine} {name : String} {definition : GrammarDefinition}
    {grammar : Grammar} (compiled : compile engine name definition = .ok grammar) :
    containsItself definition.root = false ∧
      Compilation.compileModes (compilation engine definition) definition.root = .ok grammar.modes ∧
      (grammar.matchers = grammar.modes.map fun mode => Thunk.mk fun _ =>
        Pattern.RuleSet.compile engine (patternFlags definition) (mode.rules grammar.modes)) ∧
      grammar.definition = definition := by
  unfold compile at compiled
  by_cases itself : containsItself definition.root = true
  · rw [if_pos itself] at compiled
    cases compiled
  · rw [if_neg itself] at compiled
    obtain ⟨modes, made, compiled⟩ := bind_eq_ok.mp compiled
    obtain rfl := pure_eq_ok.mp compiled
    exact ⟨by simpa using itself, made, rfl, rfl⟩

/-- A grammar that has been compiled is closed, and its modes have what every own part has. -/
theorem closed_of_sound {engine : Pattern.Engine} {name : String}
    {definition : GrammarDefinition} {grammar : Grammar} {first : Nat} {suits : Mode → Prop}
    (compiled : compile engine name definition = .ok grammar)
    (suit : Compilation.Suits (compilation engine definition) suits) (next : first ≤ 1)
    (other : 0 < first → definition.extensions = []) :
    grammar.Closed first ∧ ∀ mode ∈ grammar.modes, suits mode := by
  obtain ⟨itself, made, matchers, _⟩ := compile_eq_ok compiled
  obtain ⟨arena, sound, same⟩ := Compilation.compileModes_sound suit next
    (fun positive normal normalized => by
      change definition.root.normalize false definition.extensions = .ok normal at normalized
      rw [other positive] at normalized
      exact Compilation.not_itself_of_normalize normalized itself) made
  have holds : ∀ place, arena.Holds first place → grammar.Holds first place := by
    intro place holds
    exact ⟨holds.1, same ▸ holds.2⟩
  refine ⟨⟨same ▸ sound.root, ?_, ?_, ?_⟩, same ▸ sound.modes⟩
  · refine @mode_induction grammar (fun mode => ∀ child ∈ mode.contains, grammar.Holds first child)
      ?_ (by simp)
    intro mode member child within
    exact holds child (sound.contains mode (same ▸ member) child within)
  · refine @mode_induction grammar (fun mode => ∀ next, mode.starts = some next →
      grammar.Holds first next) ?_ (by simp)
    intro mode member next follows
    exact holds next (sound.starts mode (same ▸ member) next follows)
  · intro place set child found member
    exact mem_contains_of_matcher matchers found member

/-- The modes of a grammar that has been compiled without extensions are closed, and do not refer to
the root. -/
theorem closed_of_compile {engine : Pattern.Engine} {name : String}
    {definition : GrammarDefinition} {grammar : Grammar}
    (compiled : compile engine name definition = .ok grammar)
    (plain : definition.extensions = []) : grammar.Closed 1 :=
  (closed_of_sound compiled ⟨trivial, fun _ _ _ _ _ => trivial, fun _ _ _ _ => trivial⟩
    (Nat.le_refl _) fun _ => plain).1

/-! ### Which modes can be on above each other -/

/-- A mode is reached from another one by going on, any number of times, with the mode that a mode
starts. -/
def Continues (grammar : Grammar) : Nat → Nat → Prop :=
  Relation.ReflTransGen fun place next => (grammar.mode place).starts = some next

/-- A mode may be on above another one: that contains it, or a mode that it continues. -/
def StandsOn (grammar : Grammar) (below above : Nat) : Prop :=
  ∃ child ∈ (grammar.mode below).contains, grammar.Continues child above

theorem StandsOn.starts {grammar : Grammar} {below above next : Nat}
    (stands : grammar.StandsOn below above) (follows : (grammar.mode above).starts = some next) :
    grammar.StandsOn below next := by
  obtain ⟨child, member, continues⟩ := stands
  exact ⟨child, member, continues.tail follows⟩

theorem StandsOn.holds {grammar : Grammar} {first : Nat} (closed : grammar.Closed first)
    {below above : Nat} (stands : grammar.StandsOn below above) : grammar.Holds first above := by
  obtain ⟨child, member, continues⟩ := stands
  cases continues with
  | refl => exact closed.contains below above member
  | tail _ follows => exact closed.starts _ above follows

end Grammar

end Highlight
