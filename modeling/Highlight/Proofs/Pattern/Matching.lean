import Highlight.Pattern.Matcher
import Highlight.Proofs.Pattern.Planning
import Mathlib.Data.Option.Basic

set_option autoImplicit false

/-! Matching with other group numbers. A plan whose numbers have been raised matches as the plan does,
and remembers the same spans for the raised groups. Both are tried side by side: wherever the rest of
the one agrees with the rest of the other, so do the whole matches. -/

namespace Highlight.Pattern

namespace Progress

/-- Progress in a larger pattern that is like the progress alone, with the groups raised, and has
remembered nothing of the groups before and behind those. -/
structure Placed (offset groups : Nat) (alone placed : Progress) : Prop where
  position : placed.position = alone.position
  kept : placed.kept = alone.kept
  span? : ∀ group, placed.span? (group + offset) = alone.span? group
  before : ∀ group < offset, placed.span? group = none
  size : alone.groups.size = groups + 1
  room : offset + groups < placed.groups.size

theorem span?_setIfInBounds (progress : Progress) (group other : Nat) (span : Option Span)
    (fits : group < progress.groups.size) :
    ({ progress with groups := progress.groups.setIfInBounds group span } : Progress).span? other =
      if group = other then span else progress.span? other := by
  unfold Progress.span?
  rw [Array.getElem?_setIfInBounds]
  by_cases same : group = other
  · rw [if_pos same, if_pos same, if_pos fits]
    rfl
  · rw [if_neg same, if_neg same]

variable {offset groups : Nat} {alone placed : Progress}

theorem Placed.moveTo (agree : Placed offset groups alone placed) (position : Nat) :
    Placed offset groups (alone.moveTo position) (placed.moveTo position) :=
  ⟨rfl, agree.kept, agree.span?, agree.before, agree.size, agree.room⟩

theorem Placed.keep (agree : Placed offset groups alone placed) :
    Placed offset groups { alone with kept := some alone.position }
      { placed with kept := some placed.position } :=
  ⟨agree.position, congrArg some agree.position, agree.span?, agree.before, agree.size, agree.room⟩

theorem Placed.setGroup (agree : Placed offset groups alone placed) {group : Nat}
    (within : group ≤ groups) (span : Option Span) :
    Placed offset groups { alone with groups := alone.groups.setIfInBounds group span }
      { placed with groups := placed.groups.setIfInBounds (group + offset) span } := by
  have fits : group < alone.groups.size := by
    have size := agree.size
    omega
  have room : group + offset < placed.groups.size := by
    have room := agree.room
    omega
  constructor
  · exact agree.position
  · exact agree.kept
  · intro other
    rw [span?_setIfInBounds _ _ _ _ fits, span?_setIfInBounds _ _ _ _ room, agree.span? other]
    by_cases same : group = other
    · rw [if_pos same, if_pos (by omega)]
    · rw [if_neg same, if_neg (by omega)]
  · intro other earlier
    rw [span?_setIfInBounds _ _ _ _ room, if_neg (by omega), agree.before other earlier]
  · rw [Array.size_setIfInBounds, agree.size]
  · rw [Array.size_setIfInBounds]
    exact agree.room

end Progress

open Progress

section

variable {offset groups : Nat} {alone placed : Progress} {Q : Progress → Progress → Prop}

theorem Sight.matchAgain_placed (sight : Sight) (ignoreCase : Bool)
    (agree : Placed offset groups alone placed) (numbers : List Nat) :
    sight.matchAgain ignoreCase placed (numbers.map (· + offset)) =
      sight.matchAgain ignoreCase alone numbers := by
  induction numbers with
  | nil => rfl
  | cons group others ih =>
      simp only [List.map_cons, Sight.matchAgain, agree.span? group, agree.position, ih]

theorem EmptyRound.of_placed {before after : Progress} (watched : List Nat)
    (agree : Placed offset groups alone placed) (agreeAfter : Placed offset groups before after) :
    EmptyRound.of (watched.map (· + offset)) placed after = EmptyRound.of watched alone before := by
  unfold EmptyRound.of
  simp only [List.filter_map, List.all_map, List.isEmpty_map, Function.comp_def, agree.span?,
    agreeAfter.span?, agreeAfter.position]

theorem rel_orElse {first first' : Option Progress} {second second' : Unit → Option Progress}
    (firstAgree : Option.Rel Q first first') (secondAgree : Option.Rel Q (second ()) (second' ())) :
    Option.Rel Q (first.orElse second) (first'.orElse second') := by
  cases firstAgree with
  | none => exact secondAgree
  | some agree => exact .some agree

theorem rel_bind {R : Progress → Progress → Prop} {found found' : Option Progress}
    {next next' : Continuation} (agree : Option.Rel R found found')
    (onward : ∀ after after', R after after' → Option.Rel Q (next after) (next' after')) :
    Option.Rel Q (found.bind next) (found'.bind next') := by
  cases agree with
  | none => exact .none
  | some agree => exact onward _ _ agree

theorem rel_look (negated : Bool) (position : Nat) {found found' : Option Progress}
    {next next' : Continuation} (onward : ∀ alone placed, Placed offset groups alone placed →
      Option.Rel Q (next alone) (next' placed))
    (agree : Placed offset groups alone placed) :
    Option.Rel (Placed offset groups) found found' → Option.Rel Q
      (match negated, found with
        | false, some after => next (after.moveTo position)
        | true, none => next alone
        | _, _ => none)
      (match negated, found' with
        | false, some after => next' (after.moveTo position)
        | true, none => next' placed
        | _, _ => none) := by
  intro looked
  cases looked with
  | none =>
      cases negated with
      | false => exact .none
      | true => exact onward _ _ agree
  | some agreeAfter =>
      cases negated with
      | false => exact onward _ _ (agreeAfter.moveTo position)
      | true => exact .none

theorem rel_findSome? {α : Type} {step step' : α → Option Progress} (items : List α)
    (agree : ∀ item, Option.Rel Q (step item) (step' item)) :
    Option.Rel Q (items.findSome? step) (items.findSome? step') := by
  induction items with
  | nil => exact .none
  | cons item rest ih =>
      have here := agree item
      rw [List.findSome?_cons, List.findSome?_cons]
      generalize step item = found, step' item = found' at here ⊢
      cases here with
      | none => exact ih
      | some agree => exact .some agree

theorem afterRound_placed {watched : List Nat} {before before' : Progress}
    {again again' leave leave' : Continuation}
    (more : ∀ alone placed, Placed offset groups alone placed →
      Option.Rel Q (again alone) (again' placed))
    (onward : ∀ alone placed, Placed offset groups alone placed →
      Option.Rel Q (leave alone) (leave' placed))
    (agree : Placed offset groups before before') (agreeAfter : Placed offset groups alone placed) :
    Option.Rel Q (afterRound watched before again leave alone)
      (afterRound (watched.map (· + offset)) before' again' leave' placed) := by
  unfold afterRound
  rw [agree.position, agreeAfter.position, EmptyRound.of_placed watched agree agreeAfter]
  split
  · split
    · exact more _ _ agreeAfter
    · exact onward _ _ agreeAfter
    · exact .none
  · exact more _ _ agreeAfter

/-- A body and the body with other group numbers agree if they do wherever what follows agrees. -/
theorem matchRounds_placed {body body' : Continuation → Continuation} (greedy : Bool)
    (watched : List Nat)
    (bodyAgree : ∀ {next next' : Continuation} {alone placed : Progress},
      (∀ alone placed, Placed offset groups alone placed → Option.Rel Q (next alone) (next' placed)) →
      Placed offset groups alone placed → Option.Rel Q (body next alone) (body' next' placed))
    {next next' : Continuation} (steps least : Nat) (most : Option Nat)
    (onward : ∀ alone placed, Placed offset groups alone placed →
      Option.Rel Q (next alone) (next' placed))
    (agree : Placed offset groups alone placed) :
    Option.Rel Q (matchRounds body greedy watched steps least most next alone)
      (matchRounds body' greedy (watched.map (· + offset)) steps least most next' placed) := by
  induction steps generalizing least most alone placed with
  | zero => exact onward alone placed agree
  | succ steps ih =>
      have here := onward alone placed agree
      simp only [matchRounds]
      by_cases beyond : most = some 0
      · rw [if_pos beyond, if_pos beyond]
        exact here
      rw [if_neg beyond, if_neg beyond]
      have round : Option.Rel Q
          (body (afterRound watched alone
            (matchRounds body greedy watched steps (least - 1) (most.map (· - 1)) next) next) alone)
          (body' (afterRound (watched.map (· + offset)) placed
            (matchRounds body' greedy (watched.map (· + offset)) steps (least - 1)
              (most.map (· - 1)) next') next') placed) :=
        bodyAgree (fun _ _ agreeAfter =>
          afterRound_placed (fun _ _ => ih _ _) onward agree agreeAfter) agree
      split
      · exact round
      · split
        · exact rel_orElse round here
        · exact rel_orElse here round

namespace Plan

/-- The plan with other group numbers matches as the plan does, if what follows them agrees. -/
theorem matchThen_placed (plan : Plan) (within : ∀ group, some group ∈ plan.marks → group ≤ groups)
    {sight : Sight} {next next' : Continuation}
    (onward : ∀ alone placed, Placed offset groups alone placed →
      Option.Rel Q (next alone) (next' placed))
    (agree : Placed offset groups alone placed) :
    Option.Rel Q (plan.matchThen sight next alone)
      ((plan.raisedBy offset).matchThen sight next' placed) := by
  induction plan generalizing Q sight next next' alone placed with
  | done => exact onward alone placed agree
  | text chars =>
      simp only [raisedBy, matchThen, agree.position]
      cases sight.matchChars chars alone.position with
      | none => exact .none
      | some position => exact onward _ _ (agree.moveTo position)
  | set members =>
      simp only [raisedBy, matchThen, agree.position]
      cases sight.charAt? alone.position with
      | none => exact .none
      | some c =>
          dsimp only
          split
          · exact onward _ _ (agree.moveTo _)
          · exact .none
  | spelled foldings =>
      simp only [raisedBy, matchThen, agree.position]
      apply rel_findSome?
      intro folding
      cases sight.matchFolded folding alone.position with
      | none => exact .none
      | some position => exact onward _ _ (agree.moveTo position)
  | anchor condition =>
      simp only [raisedBy, matchThen, agree.position]
      split
      · exact onward _ _ agree
      · exact .none
  | keep => exact onward _ _ agree.keep
  | sequence first second ihFirst ihSecond =>
      apply ihFirst (fun group member => within group (List.mem_append_left _ member)) _ agree
      intro alone placed agree
      exact ihSecond (fun group member => within group (List.mem_append_right _ member)) onward agree
  | either first second ihFirst ihSecond =>
      exact rel_orElse
        (ihFirst (fun group member => within group (List.mem_append_left _ member)) onward agree)
        (ihSecond (fun group member => within group (List.mem_append_right _ member)) onward agree)
  | group number body ih =>
      have small := within number List.mem_cons_self
      apply ih (fun group member => within group (List.mem_cons_of_mem _ member))
        _ (agree.setGroup small none)
      intro after after' agreeAfter
      simp only [agree.position, agreeAfter.position]
      exact onward _ _ (agreeAfter.setGroup small _)
  | optional greedy body ih =>
      have here := onward alone placed agree
      have more : Option.Rel Q (body.matchThen sight next alone)
          ((body.raisedBy offset).matchThen sight next' placed) := ih within onward agree
      simp only [raisedBy, matchThen]
      split
      · exact rel_orElse more here
      · exact rel_orElse here more
  | rounds least most greedy watched body ih =>
      simp only [raisedBy, matchThen, List.length_map]
      exact matchRounds_placed greedy watched (fun onward agree => ih within onward agree) _ _ _
        onward agree
  | atomic body ih =>
      have inner := @ih _ _ (Placed offset groups) within sight _ _ (fun _ _ => .some) agree
      exact rel_bind inner onward
  | ahead negated body ih =>
      have inner := @ih _ _ (Placed offset groups) within sight _ _ (fun _ _ => .some) agree
      simp only [raisedBy, matchThen, agree.position]
      exact rel_look negated alone.position onward agree inner
  | behind least most negated body ih =>
      simp only [raisedBy, matchThen, agree.position]
      generalize (if most = some least then sight else { sight with limit := alone.position }) = sight
      apply rel_look negated alone.position onward agree
      apply rel_findSome?
      intro more
      apply ih within _ (agree.moveTo _)
      intro after after' agreeAfter
      rw [agreeAfter.position]
      split
      · exact .some agreeAfter
      · exact .none
  | reference numbers ignoreCase =>
      simp only [raisedBy, matchThen, sight.matchAgain_placed ignoreCase agree]
      cases sight.matchAgain ignoreCase alone numbers with
      | none => exact .none
      | some position => exact onward _ _ (agree.moveTo position)

end Plan

end

/-! ### What a match leaves alone -/

/-- A relation between the progress before and behind any plan with such marks. A plan moves on, may
take the match to start elsewhere, writes down the spans of the groups that it marks, and comes back
where it has only looked at the text around. -/
structure Carries (marks : List (Option Nat)) (R : Progress → Progress → Prop) : Prop where
  refl : ∀ progress, R progress progress
  trans : ∀ {first second third}, R first second → R second third → R first third
  moves : ∀ (progress : Progress) {position}, progress.position ≤ position →
    R progress (progress.moveTo position)
  looks : ∀ {progress after : Progress} (position), R (progress.moveTo position) after →
    R progress (after.moveTo progress.position)
  keeps : none ∈ marks → ∀ progress : Progress,
    R progress { progress with kept := some progress.position }
  sets : ∀ group, some group ∈ marks → ∀ (progress : Progress) span,
    R progress { progress with groups := progress.groups.setIfInBounds group span }

namespace Carries

variable {marks more : List (Option Nat)} {R : Progress → Progress → Prop}

theorem mono (carries : Carries marks R) (fewer : ∀ mark ∈ more, mark ∈ marks) : Carries more R where
  refl := carries.refl
  trans := carries.trans
  moves := carries.moves
  looks := carries.looks
  keeps marked := carries.keeps (fewer none marked)
  sets group marked := carries.sets group (fewer (some group) marked)

theorem left (carries : Carries (marks ++ more) R) : Carries marks R :=
  carries.mono fun _ => List.mem_append_left more

theorem right (carries : Carries (marks ++ more) R) : Carries more R :=
  carries.mono fun _ => List.mem_append_right marks

end Carries

/-- The text taken up lies behind the start, and the match is not taken to start elsewhere. -/
structure Progress.Advances (before after : Progress) : Prop where
  position : before.position ≤ after.position
  kept : after.kept = before.kept

theorem Progress.Advances.carries {marks : List (Option Nat)} (unkept : none ∉ marks) :
    Carries marks Advances where
  refl _ := ⟨Nat.le_refl _, rfl⟩
  trans left right := ⟨Nat.le_trans left.position right.position, right.kept.trans left.kept⟩
  moves _ _ further := ⟨further, rfl⟩
  looks _ advances := ⟨Nat.le_refl _, advances.kept⟩
  keeps marked := absurd marked unkept
  sets _ _ _ _ := ⟨Nat.le_refl _, rfl⟩

section

variable {progress : Progress} {marks : List (Option Nat)} {R : Progress → Progress → Prop}

/-- Where what follows is gone on with, if there is a match: with progress to which that before the
match is related. -/
def ReachesNext (R : Progress → Progress → Prop) (match_ : Continuation → Continuation) : Prop :=
  ∀ {next : Continuation} {progress final : Progress}, match_ next progress = some final →
    ∃ after, R progress after ∧ next after = some final

theorem orElse_eq_some {α : Type} {first : Option α} {second : Unit → Option α} {final : α}
    (found : first.orElse second = some final) : first = some final ∨ second () = some final := by
  cases first with
  | none => exact .inr found
  | some other => exact .inl found

theorem matchRounds_reachesNext (carries : Carries marks R) {body : Continuation → Continuation}
    (reaches : ReachesNext R body) (greedy : Bool) (watched : List Nat) (steps least : Nat)
    (most : Option Nat) : ReachesNext R (matchRounds body greedy watched steps least most) := by
  intro next progress final found
  induction steps generalizing least most progress with
  | zero => exact ⟨progress, carries.refl progress, found⟩
  | succ steps ih =>
      simp only [matchRounds] at found
      have here : next progress = some final →
          ∃ after, R progress after ∧ next after = some final :=
        fun found => ⟨progress, carries.refl progress, found⟩
      by_cases beyond : most = some 0
      · rw [if_pos beyond] at found
        exact here found
      rw [if_neg beyond] at found
      have onward : ∀ after, R progress after →
          matchRounds body greedy watched steps (least - 1) (most.map (· - 1)) next after =
            some final → ∃ after, R progress after ∧ next after = some final := by
        intro after reached found
        obtain ⟨last, further, found⟩ := ih _ _ found
        exact ⟨last, carries.trans reached further, found⟩
      have round : body (afterRound watched progress
            (matchRounds body greedy watched steps (least - 1) (most.map (· - 1)) next) next)
            progress = some final → ∃ after, R progress after ∧ next after = some final := by
        intro found
        obtain ⟨after, reached, found⟩ := reaches found
        unfold afterRound at found
        split at found
        · split at found
          · exact onward after reached found
          · exact ⟨after, reached, found⟩
          · cases found
        · exact onward after reached found
      split at found
      · exact round found
      · split at found
        · exact (orElse_eq_some found).elim round here
        · exact (orElse_eq_some found).elim here round

theorem Sight.matchChars_le {sight : Sight} {chars : List Char} {position stop : Nat}
    (found : sight.matchChars chars position = some stop) : position ≤ stop := by
  induction chars generalizing position with
  | nil =>
      cases found
      exact Nat.le_refl _
  | cons c rest ih =>
      simp only [Sight.matchChars] at found
      split at found
      · exact Nat.le_of_succ_le (ih found)
      · cases found

theorem Sight.matchFolded_le {sight : Sight} {folding : List Char} {position stop : Nat}
    (found : sight.matchFolded folding position = some stop) : position ≤ stop := by
  induction folding generalizing position with
  | nil =>
      cases found
      exact Nat.le_refl _
  | cons c rest ih =>
      simp only [Sight.matchFolded] at found
      split at found
      · split at found
        · exact Nat.le_of_succ_le (ih found)
        · cases found
      · cases found

theorem Sight.matchAlike_le {sight : Sight} {chars : List Char} {bytes position stop : Nat}
    (found : sight.matchAlike chars bytes position = some stop) : position ≤ stop := by
  induction chars generalizing bytes position with
  | nil =>
      cases found
      exact Nat.le_refl _
  | cons c rest ih =>
      simp only [Sight.matchAlike] at found
      cases taken : sight.text.charAt? position with
      | none =>
          rw [taken] at found
          cases found
      | some d =>
          rw [taken] at found
          dsimp only at found
          by_cases alike : Unicode.foldCase c =
              if d.utf8Size ≤ bytes then Unicode.foldCase d else Sight.foldCut d bytes
          · rw [if_pos alike] at found
            exact Nat.le_of_succ_le (ih found)
          · rw [if_neg alike] at found
            cases found

theorem Sight.matchAgain_le {sight : Sight} {ignoreCase : Bool} {numbers : List Nat} {stop : Nat}
    (found : sight.matchAgain ignoreCase progress numbers = some stop) :
    progress.position ≤ stop := by
  induction numbers with
  | nil => cases found
  | cons group others ih =>
      simp only [Sight.matchAgain] at found
      cases stands : progress.span? group with
      | none =>
          rw [stands] at found
          exact ih found
      | some span =>
          rw [stands] at found
          dsimp only at found
          split at found
          · cases found
          · split at found
            · exact (orElse_eq_some found).elim Sight.matchAlike_le ih
            · exact (orElse_eq_some found).elim Sight.matchChars_le ih

namespace Plan

theorem matchThen_reachesNext (plan : Plan) (carries : Carries plan.marks R) (sight : Sight) :
    ReachesNext R (plan.matchThen sight) := by
  induction plan generalizing sight with
  | done => exact fun found => ⟨_, carries.refl _, found⟩
  | text chars =>
      intro next progress final found
      simp only [matchThen] at found
      split at found
      · rename_i position matched
        exact ⟨_, carries.moves _ (Sight.matchChars_le matched), found⟩
      · cases found
  | set members =>
      intro next progress final found
      simp only [matchThen] at found
      split at found
      · split at found
        · exact ⟨_, carries.moves _ (Nat.le_succ _), found⟩
        · cases found
      · cases found
  | spelled foldings =>
      intro next progress final found
      obtain ⟨folding, _, found⟩ := List.exists_of_findSome?_eq_some found
      split at found
      · rename_i position matched
        exact ⟨_, carries.moves _ (Sight.matchFolded_le matched), found⟩
      · cases found
  | anchor condition =>
      intro next progress final found
      simp only [matchThen] at found
      split at found
      · exact ⟨_, carries.refl _, found⟩
      · cases found
  | keep => exact fun found => ⟨_, carries.keeps List.mem_cons_self _, found⟩
  | sequence first second ihFirst ihSecond =>
      intro next progress final found
      obtain ⟨between, reached, found⟩ := ihFirst carries.left sight found
      obtain ⟨after, further, found⟩ := ihSecond carries.right sight found
      exact ⟨after, carries.trans reached further, found⟩
  | either first second ihFirst ihSecond =>
      intro next progress final found
      rcases orElse_eq_some found with found | found
      · exact ihFirst carries.left sight found
      · exact ihSecond carries.right sight found
  | group number body ih =>
      intro next progress final found
      have sets := carries.sets number List.mem_cons_self
      obtain ⟨after, reached, found⟩ :=
        ih (carries.mono fun _ => List.mem_cons_of_mem _) sight found
      exact ⟨_, carries.trans (carries.trans (sets progress none) reached) (sets after _), found⟩
  | optional greedy body ih =>
      intro next progress final found
      simp only [matchThen] at found
      have here : next progress = some final →
          ∃ after, R progress after ∧ next after = some final :=
        fun found => ⟨progress, carries.refl progress, found⟩
      split at found
      · exact (orElse_eq_some found).elim (ih carries sight) here
      · exact (orElse_eq_some found).elim here (ih carries sight)
  | rounds least most greedy watched body ih =>
      intro next progress final found
      exact matchRounds_reachesNext carries (ih carries sight) greedy watched _ _ _ found
  | atomic body ih =>
      intro next progress final found
      obtain ⟨after, inner, found⟩ := Option.bind_eq_some_iff.mp found
      obtain ⟨same, reached, last⟩ := ih carries sight inner
      cases last
      exact ⟨_, reached, found⟩
  | ahead negated body ih =>
      intro next progress final found
      simp only [matchThen] at found
      split at found
      · rename_i after inner
        obtain ⟨same, reached, last⟩ := ih carries sight inner
        cases last
        exact ⟨_, carries.looks progress.position reached, found⟩
      · exact ⟨_, carries.refl _, found⟩
      · cases found
  | behind least most negated body ih =>
      intro next progress final found
      simp only [matchThen] at found
      split at found
      · rename_i after inner
        obtain ⟨more, _, inner⟩ := List.exists_of_findSome?_eq_some inner
        obtain ⟨same, reached, last⟩ := ih carries _ inner
        split at last
        · cases last
          exact ⟨_, carries.looks _ reached, found⟩
        · cases last
      · exact ⟨_, carries.refl _, found⟩
      · cases found
  | reference numbers ignoreCase =>
      intro next progress final found
      simp only [matchThen] at found
      split at found
      · rename_i position matched
        exact ⟨_, carries.moves _ (Sight.matchAgain_le matched), found⟩
      · cases found

end Plan

end

end Highlight.Pattern
