set_option autoImplicit false

/-! Computations that may fail: what it takes for two of them in a row to succeed. -/

namespace Highlight.Outcome

variable {ε α β : Type}

theorem bind_eq_ok {first : Except ε α} {next : α → Except ε β} {result : β} :
    (first >>= next) = .ok result ↔ ∃ value, first = .ok value ∧ next value = .ok result := by
  cases first with
  | error failure =>
      constructor
      · intro impossible
        cases impossible
      · rintro ⟨value, impossible, _⟩
        cases impossible
  | ok value =>
      constructor
      · intro succeeded
        exact ⟨value, rfl, succeeded⟩
      · rintro ⟨same, found, succeeded⟩
        cases found
        exact succeeded

theorem pure_eq_ok {value result : α} :
    (pure value : Except ε α) = .ok result ↔ value = result :=
  ⟨fun same => Except.ok.inj same, fun same => congrArg Except.ok same⟩

theorem ok_bind {value : α} {next : α → Except ε β} : (Except.ok value >>= next) = next value := rfl

theorem error_bind {failure : ε} {next : α → Except ε β} :
    (Except.error failure >>= next) = Except.error failure := rfl

theorem mapError_eq_ok {ε' : Type} {outcome : Except ε α} {change : ε → ε'} {result : α}
    (succeeded : outcome.mapError change = .ok result) : outcome = .ok result := by
  cases outcome with
  | error failure => cases succeeded
  | ok value => exact congrArg _ (Except.ok.inj succeeded)

theorem optionMapM_eq_ok {step : α → Except ε β} {item : Option α} {result : Option β}
    (succeeded : item.mapM step = .ok result) :
    item = none ∧ result = none ∨
      ∃ value found, item = some value ∧ result = some found ∧ step value = .ok found := by
  cases item with
  | none =>
      obtain rfl := pure_eq_ok.mp succeeded
      exact .inl ⟨rfl, rfl⟩
  | some value =>
      rw [Option.mapM_some, map_eq_pure_bind] at succeeded
      obtain ⟨found, stepped, succeeded⟩ := bind_eq_ok.mp succeeded
      obtain rfl := pure_eq_ok.mp succeeded
      exact .inr ⟨value, found, rfl, rfl, stepped⟩

theorem bind_eq_error {first : Except ε α} {next : α → Except ε β} {failure : ε} :
    (first >>= next) = .error failure ↔
      first = .error failure ∨ ∃ value, first = .ok value ∧ next value = .error failure := by
  cases first with
  | error other => simp [error_bind]
  | ok value => simp [ok_bind]

/-- An outcome that fails for reasons only that are allowed, and gives only what has a property. -/
structure Satisfies (allowed : ε → Prop) (held : α → Prop) (outcome : Except ε α) : Prop where
  fails : ∀ failure, outcome = .error failure → allowed failure
  gives : ∀ value, outcome = .ok value → held value

namespace Satisfies

variable {allowed : ε → Prop} {held more : α → Prop} {goal : β → Prop}

theorem ok {value : α} (holds : held value) : Satisfies allowed held (.ok value) where
  fails := by simp
  gives := by
    rintro other same
    obtain rfl := Except.ok.inj same
    exact holds

theorem error {failure : ε} (may : allowed failure) :
    Satisfies allowed held (.error failure : Except ε α) where
  fails := by
    rintro other same
    obtain rfl := Except.error.inj same
    exact may
  gives := by simp

theorem bind {first : Except ε α} {next : α → Except ε β} (satisfies : Satisfies allowed held first)
    (onward : ∀ value, held value → Satisfies allowed goal (next value)) :
    Satisfies allowed goal (first >>= next) := by
  cases ran : first with
  | error failure => exact error (satisfies.fails failure ran)
  | ok value => exact onward value (satisfies.gives value ran)

theorem mono {outcome : Except ε α} (satisfies : Satisfies allowed held outcome)
    (weaker : ∀ value, held value → more value) : Satisfies allowed more outcome :=
  ⟨satisfies.fails, fun value ran => weaker value (satisfies.gives value ran)⟩

theorem allowing {outcome : Except ε α} {others : ε → Prop} (satisfies : Satisfies allowed held outcome)
    (among : ∀ failure, allowed failure → others failure) : Satisfies others held outcome :=
  ⟨fun failure failed => among failure (satisfies.fails failure failed), satisfies.gives⟩

theorem mapM {step : α → Except ε β} {items : List α}
    (each : ∀ item ∈ items, Satisfies allowed (fun _ => True) (step item)) :
    Satisfies allowed (fun _ => True) (items.mapM step) := by
  induction items with
  | nil => exact ok trivial
  | cons item rest ih =>
      rw [List.mapM_cons]
      refine (each item List.mem_cons_self).bind fun _ _ => ?_
      exact (ih fun item member => each item (List.mem_cons_of_mem _ member)).bind fun _ _ =>
        ok trivial

theorem foldlM {step : β → α → Except ε β} {items : List α} {start : β}
    (each : ∀ so item, Satisfies allowed (fun _ => True) (step so item)) :
    Satisfies allowed (fun _ => True) (items.foldlM step start) := by
  induction items generalizing start with
  | nil => exact ok trivial
  | cons item rest ih =>
      rw [List.foldlM_cons]
      exact (each start item).bind fun _ _ => ih

theorem optionMapM {step : α → Except ε β} {item : Option α}
    (each : ∀ value, Satisfies allowed (fun _ => True) (step value)) :
    Satisfies allowed (fun _ => True) (item.mapM step) := by
  cases item with
  | none => exact ok trivial
  | some value =>
      rw [Option.mapM_some, map_eq_pure_bind]
      exact (each value).bind fun _ _ => ok trivial

end Satisfies

theorem eq_ok_of_toOption {outcome : Except ε α} {value : α}
    (found : outcome.toOption = some value) : outcome = .ok value := by
  cases outcome with
  | error failure => cases found
  | ok other => exact congrArg Except.ok (Option.some.inj found)

theorem exists_of_isOk {outcome : Except ε α} (succeeds : outcome.isOk = true) :
    ∃ value, outcome = .ok value := by
  cases outcome with
  | error failure => cases succeeds
  | ok value => exact ⟨value, rfl⟩

/-- What can be computed of a result, and turns out to be so, holds of a result that there is. -/
theorem exists_of_any {outcome : Except ε α} {p : α → Prop} [DecidablePred p]
    (holds : outcome.toOption.any (fun value => decide (p value)) = true) :
    ∃ value, outcome = .ok value ∧ p value := by
  cases outcome with
  | error failure => cases holds
  | ok value => exact ⟨value, rfl, of_decide_eq_true holds⟩

theorem mem_of_mapM_eq_ok {step : α → Except ε β} {items : List α} {results : List β}
    (succeeded : items.mapM step = .ok results) {result : β} (member : result ∈ results) :
    ∃ item ∈ items, step item = .ok result := by
  induction items generalizing results with
  | nil =>
      obtain rfl := pure_eq_ok.mp succeeded
      cases member
  | cons item rest ih =>
      rw [List.mapM_cons] at succeeded
      obtain ⟨first, firstSucceeded, succeeded⟩ := bind_eq_ok.mp succeeded
      obtain ⟨others, othersSucceeded, succeeded⟩ := bind_eq_ok.mp succeeded
      obtain rfl := pure_eq_ok.mp succeeded
      rcases List.mem_cons.mp member with rfl | later
      · exact ⟨item, List.mem_cons_self, firstSucceeded⟩
      · obtain ⟨found, foundMember, foundSucceeded⟩ := ih othersSucceeded later
        exact ⟨found, List.mem_cons_of_mem _ foundMember, foundSucceeded⟩

theorem exists_of_mapM_eq_ok {step : α → Except ε β} {items : List α} {results : List β}
    (succeeded : items.mapM step = .ok results) {item : α} (member : item ∈ items) :
    ∃ result ∈ results, step item = .ok result := by
  induction items generalizing results with
  | nil => cases member
  | cons first rest ih =>
      rw [List.mapM_cons] at succeeded
      obtain ⟨result, firstSucceeded, succeeded⟩ := bind_eq_ok.mp succeeded
      obtain ⟨others, othersSucceeded, succeeded⟩ := bind_eq_ok.mp succeeded
      obtain rfl := pure_eq_ok.mp succeeded
      rcases List.mem_cons.mp member with rfl | later
      · exact ⟨result, List.mem_cons_self, firstSucceeded⟩
      · obtain ⟨found, foundMember, foundSucceeded⟩ := ih othersSucceeded later
        exact ⟨found, List.mem_cons_of_mem _ foundMember, foundSucceeded⟩

end Highlight.Outcome
