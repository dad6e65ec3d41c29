import Highlight.Dictionary

set_option autoImplicit false

/-! Dictionaries by what they find. A name is found exactly with the value that stands with it, each
operation says what is found after it, and dictionaries that find the same are equal. -/

namespace Highlight.Dictionary

universe u v

variable {α : Type u} {β : Type v}

theorem find?_eq_some_iff {dictionary : Dictionary α} {name : String} {value : α} :
    dictionary.find? name = some value ↔ (name, value) ∈ dictionary.entries := by
  refine ⟨mem_of_find?, fun member => ?_⟩
  obtain ⟨entries, sorted⟩ := dictionary
  unfold find?
  dsimp only at member ⊢
  induction entries with
  | nil => cases member
  | cons head rest ih =>
      obtain ⟨below, sortedRest⟩ := List.pairwise_cons.mp sorted
      rcases List.mem_cons.mp member with rfl | later
      · simp
      · have other : (head.1 == name) = false :=
          beq_eq_false_iff_ne.mpr fun same => String.lt_irrefl _ (same ▸ below _ later)
        rw [List.find?_cons, other]
        exact ih sortedRest later

theorem ext_find? {left right : Dictionary α} (same : ∀ name, left.find? name = right.find? name) :
    left = right := by
  have members : ∀ entry, entry ∈ left.entries ↔ entry ∈ right.entries := fun entry => by
    rw [← find?_eq_some_iff, ← find?_eq_some_iff, same]
  have distinct : ∀ dictionary : Dictionary α, dictionary.entries.Nodup := by
    intro dictionary
    refine dictionary.sorted.imp ?_
    intro earlier later less equal
    exact String.lt_irrefl _ (equal ▸ less)
  have order := ((List.perm_ext_iff_of_nodup (distinct left) (distinct right)).mpr members).eq_of_pairwise
    (fun earlier later _ _ less greater => absurd (String.lt_trans less greater) (String.lt_irrefl _))
    left.sorted right.sorted
  cases left
  cases right
  simpa using order

theorem isEmpty_iff {dictionary : Dictionary α} : dictionary.isEmpty = true ↔ dictionary = {} := by
  refine ⟨fun empty => ?_, fun same => same ▸ rfl⟩
  obtain ⟨entries, sorted⟩ := dictionary
  obtain rfl := List.isEmpty_iff.mp empty
  rfl

theorem mem_entries_insertEntry {name : String} {value : α} {entries : List (String × α)}
    (sorted : entries.Pairwise fun left right => left.1 < right.1) {entry : String × α} :
    entry ∈ insertEntry name value entries ↔
      entry = (name, value) ∨ entry ∈ entries ∧ entry.1 ≠ name := by
  induction entries with
  | nil => simp [insertEntry]
  | cons head rest ih =>
      obtain ⟨below, sortedRest⟩ := List.pairwise_cons.mp sorted
      unfold insertEntry
      split
      · rename_i less
        have apart : ∀ entry ∈ head :: rest, entry.1 ≠ name := by
          intro entry member same
          rcases List.mem_cons.mp member with rfl | later
          · exact String.lt_irrefl _ (same ▸ less)
          · exact String.lt_irrefl _ (same ▸ String.lt_trans less (below entry later))
        rw [List.mem_cons]
        exact or_congr_right ⟨fun member => ⟨member, apart entry member⟩, And.left⟩
      · split
        · rename_i _ same
          have apart : ∀ entry ∈ rest, entry.1 ≠ name := fun entry member equal =>
            String.lt_irrefl _ (equal.trans same ▸ below entry member)
          rw [List.mem_cons, List.mem_cons]
          refine or_congr_right ⟨fun member => ⟨.inr member, apart entry member⟩, fun member => ?_⟩
          exact member.1.resolve_left fun first => member.2 (first ▸ same.symm)
        · rename_i _ different
          rw [List.mem_cons, List.mem_cons, ih sortedRest]
          constructor
          · rintro (rfl | inserted | ⟨member, other⟩)
            · exact .inr ⟨.inl rfl, fun same => different same.symm⟩
            · exact .inl inserted
            · exact .inr ⟨.inr member, other⟩
          · rintro (inserted | ⟨rfl | member, other⟩)
            · exact .inr (.inl inserted)
            · exact .inl rfl
            · exact .inr (.inr ⟨member, other⟩)

theorem find?_insert (dictionary : Dictionary α) (name other : String) (value : α) :
    (dictionary.insert name value).find? other =
      if other = name then some value else dictionary.find? other := by
  have member : ∀ found, (other, found) ∈ (dictionary.insert name value).entries ↔
      (other, found) = (name, value) ∨ (other, found) ∈ dictionary.entries ∧ other ≠ name :=
    fun found => mem_entries_insertEntry dictionary.sorted
  ext found
  rw [find?_eq_some_iff, member]
  split
  · rename_i same
    simp [same, eq_comm]
  · rename_i different
    simp [different, find?_eq_some_iff]

theorem find?_filter (dictionary : Dictionary α) (keep : String → α → Bool) (name : String) :
    (dictionary.filter keep).find? name = (dictionary.find? name).filter (keep name) := by
  ext value
  rw [find?_eq_some_iff, Option.filter_eq_some_iff, find?_eq_some_iff]
  exact List.mem_filter

theorem find?_erase (dictionary : Dictionary α) (name other : String) :
    (dictionary.erase name).find? other = if other = name then none else dictionary.find? other := by
  unfold erase
  rw [find?_filter]
  cases dictionary.find? other with
  | none => simp
  | some value =>
      by_cases same : other = name
      · simp [same]
      · simp [same]

theorem find?_foldl_insert (entries : List (String × α)) (dictionary : Dictionary α) (name : String) :
    (entries.foldl (fun known entry => known.insert entry.1 entry.2) dictionary).find? name =
      ((entries.reverse.find? fun entry => entry.1 == name).map (·.2)).or (dictionary.find? name) := by
  induction entries generalizing dictionary with
  | nil => simp
  | cons entry rest ih =>
      rw [List.foldl_cons, ih, find?_insert, List.reverse_cons, List.find?_append]
      cases found : rest.reverse.find? fun entry => entry.1 == name with
      | some later => rfl
      | none =>
          by_cases same : entry.1 = name
          · simp [same]
          · simp [same, Ne.symm same]

theorem mem_of_mem_ofList {entries : List (String × α)} {entry : String × α}
    (member : entry ∈ (ofList entries).entries) : entry ∈ entries := by
  obtain ⟨name, value⟩ := entry
  have found := find?_eq_some_iff.mpr member
  unfold ofList at found
  rw [find?_foldl_insert] at found
  rcases Option.or_eq_some_iff.mp found with here | ⟨_, initially⟩
  · obtain ⟨⟨other, _⟩, last, rfl⟩ := Option.map_eq_some_iff.mp here
    obtain rfl : other = name := by simpa using List.find?_some last
    exact List.mem_reverse.mp (List.mem_of_find?_eq_some last)
  · cases initially

theorem find?_of_entries {entries : List (String × α)} {dictionary : Dictionary α}
    (same : ∀ entry, entry ∈ entries ↔ entry ∈ dictionary.entries) (name : String) :
    (entries.find? fun entry => entry.1 == name).map (·.2) = dictionary.find? name := by
  ext value
  rw [find?_eq_some_iff]
  constructor
  · intro found
    obtain ⟨⟨other, _⟩, here, rfl⟩ := Option.map_eq_some_iff.mp found
    obtain rfl : other = name := by simpa using List.find?_some here
    exact (same _).mp (List.mem_of_find?_eq_some here)
  · intro member
    cases here : entries.find? fun entry => entry.1 == name with
    | none =>
        have absent := List.find?_eq_none.mp here _ ((same _).mpr member)
        simp at absent
    | some entry =>
        obtain ⟨other, found⟩ := entry
        obtain rfl : other = name := by simpa using List.find?_some here
        have earlier := find?_eq_some_iff.mpr ((same _).mp (List.mem_of_find?_eq_some here))
        rw [find?_eq_some_iff.mpr member] at earlier
        exact earlier.symm

theorem find?_foldl_entries {entries : List (String × α)} {dictionary : Dictionary α}
    (same : ∀ entry, entry ∈ entries ↔ entry ∈ dictionary.entries) (start : Dictionary α) (name : String) :
    (entries.foldl (fun known entry => known.insert entry.1 entry.2) start).find? name =
      (dictionary.find? name).or (start.find? name) := by
  rw [find?_foldl_insert, find?_of_entries fun entry => List.mem_reverse.trans (same entry)]

/-- Entries with one value at each name are all in the dictionary that is made of them. -/
theorem ofList_eq {entries : List (String × α)} {dictionary : Dictionary α}
    (same : ∀ entry, entry ∈ entries ↔ entry ∈ dictionary.entries) : ofList entries = dictionary := by
  refine ext_find? fun name => ?_
  unfold ofList
  rw [find?_foldl_entries same]
  exact Option.or_none

end Highlight.Dictionary
