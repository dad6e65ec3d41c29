set_option autoImplicit false

/-! Tables from names to values, in the order of the names. Since each name stands once and the names
are in order, two tables with the same values are equal. -/

namespace Highlight

universe u v

structure Dictionary (α : Type u) where
  entries : List (String × α)
  sorted : entries.Pairwise fun left right => left.1 < right.1

namespace Dictionary

variable {α : Type u} {β : Type v}

instance [DecidableEq α] : DecidableEq (Dictionary α) := fun left right =>
  decidable_of_iff (left.entries = right.entries) <| by
    cases left
    cases right
    simp

instance [Repr α] : Repr (Dictionary α) where
  reprPrec dictionary precedence := reprPrec dictionary.entries precedence

def empty : Dictionary α :=
  ⟨[], List.Pairwise.nil⟩

instance : Inhabited (Dictionary α) :=
  ⟨empty⟩

instance : EmptyCollection (Dictionary α) :=
  ⟨empty⟩

/-- Puts an entry where its name belongs, in place of an entry of the same name. -/
def insertEntry (name : String) (value : α) : List (String × α) → List (String × α)
  | [] => [(name, value)]
  | head :: rest =>
    if name < head.1 then (name, value) :: head :: rest
    else if name = head.1 then (name, value) :: rest
    else head :: insertEntry name value rest

private theorem lt_of_not_lt_of_ne {left right : String} (notLess : ¬left < right)
    (different : left ≠ right) : right < left := by
  by_cases less : right < left
  · exact less
  · exact absurd (String.le_antisymm (String.not_lt.1 less) (String.not_lt.1 notLess)) different

theorem mem_insertEntry {name : String} {value : α} {entries : List (String × α)}
    {entry : String × α} (member : entry ∈ insertEntry name value entries) :
    entry = (name, value) ∨ entry ∈ entries := by
  induction entries with
  | nil => simpa [insertEntry] using member
  | cons head rest ih =>
    unfold insertEntry at member
    split at member
    · simpa using member
    · split at member
      · rcases List.mem_cons.1 member with same | within
        · exact Or.inl same
        · exact Or.inr (List.mem_cons_of_mem _ within)
      · rcases List.mem_cons.1 member with same | within
        · exact Or.inr (same ▸ List.mem_cons_self)
        · rcases ih within with same | deeper
          · exact Or.inl same
          · exact Or.inr (List.mem_cons_of_mem _ deeper)

theorem sorted_insertEntry {name : String} {value : α} {entries : List (String × α)}
    (sorted : entries.Pairwise fun left right => left.1 < right.1) :
    (insertEntry name value entries).Pairwise fun left right => left.1 < right.1 := by
  induction entries with
  | nil => exact List.pairwise_singleton _ _
  | cons head rest ih =>
    obtain ⟨below, sortedRest⟩ := List.pairwise_cons.1 sorted
    unfold insertEntry
    split
    · rename_i less
      refine List.pairwise_cons.2 ⟨fun entry member => ?_, sorted⟩
      rcases List.mem_cons.1 member with same | within
      · exact same ▸ less
      · exact String.lt_trans less (below entry within)
    · rename_i notLess
      split
      · rename_i same
        exact List.pairwise_cons.2 ⟨fun entry member => same ▸ below entry member, sortedRest⟩
      · rename_i different
        refine List.pairwise_cons.2 ⟨fun entry member => ?_, ih sortedRest⟩
        rcases mem_insertEntry member with same | within
        · exact same ▸ lt_of_not_lt_of_ne notLess different
        · exact below entry within

def insert (dictionary : Dictionary α) (name : String) (value : α) : Dictionary α :=
  ⟨insertEntry name value dictionary.entries, sorted_insertEntry dictionary.sorted⟩

/-- Later entries of the same name win. -/
def ofList (entries : List (String × α)) : Dictionary α :=
  entries.foldl (fun dictionary entry => dictionary.insert entry.1 entry.2) empty

def find? (dictionary : Dictionary α) (name : String) : Option α :=
  (dictionary.entries.find? fun entry => entry.1 == name).map (·.2)

theorem mem_of_find? {dictionary : Dictionary α} {name : String} {value : α}
    (found : dictionary.find? name = some value) : (name, value) ∈ dictionary.entries := by
  obtain ⟨⟨other, _⟩, here, rfl⟩ := Option.map_eq_some_iff.mp found
  obtain rfl : other = name := by simpa using List.find?_some here
  exact List.mem_of_find?_eq_some here

def contains (dictionary : Dictionary α) (name : String) : Bool :=
  (dictionary.find? name).isSome

def filter (dictionary : Dictionary α) (keep : String → α → Bool) : Dictionary α :=
  ⟨dictionary.entries.filter fun entry => keep entry.1 entry.2, dictionary.sorted.filter _⟩

def map (dictionary : Dictionary α) (change : α → β) : Dictionary β :=
  ⟨dictionary.entries.map fun entry => (entry.1, change entry.2),
    dictionary.sorted.map _ fun _ _ less => less⟩

def erase (dictionary : Dictionary α) (name : String) : Dictionary α :=
  dictionary.filter fun other _ => other != name

def names (dictionary : Dictionary α) : List String :=
  dictionary.entries.map (·.1)

def size (dictionary : Dictionary α) : Nat :=
  dictionary.entries.length

def isEmpty (dictionary : Dictionary α) : Bool :=
  dictionary.entries.isEmpty

end Dictionary

end Highlight
