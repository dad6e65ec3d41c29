import Highlight.Proofs.Outcome
import Highlight.Scan.Detection

set_option autoImplicit false

/-! Where the result of a detection comes from. Ranking only puts the results in another order, so the
best one is that of the bare text or that of one of the grammars that take part. -/

namespace Highlight

open Outcome

theorem Catalog.mem_of_find? {catalog : Catalog} {name : String} {grammar : Grammar}
    (found : catalog.find? name = some grammar) :
    ∃ entry ∈ catalog.grammars.entries, entry.2 = grammar := by
  have lookup : ∀ {key : String}, catalog.grammars.find? key = some grammar →
      ∃ entry ∈ catalog.grammars.entries, entry.2 = grammar := by
    intro key here
    obtain ⟨entry, entryFound, same⟩ := Option.map_eq_some_iff.mp here
    exact ⟨entry, List.mem_of_find?_eq_some entryFound, same⟩
  unfold find? at found
  dsimp only at found
  split at found
  · rename_i grammar' direct
    obtain rfl := Option.some.inj found
    exact lookup direct
  · obtain ⟨target, _, indirect⟩ := Option.bind_eq_some_iff.mp found
    exact lookup indirect

namespace Detection

variable (catalog : Catalog)

theorem insertRanked_perm (result : ScanResult) (ranked : List ScanResult) :
    (insertRanked catalog result ranked).Perm (result :: ranked) := by
  induction ranked with
  | nil => exact List.Perm.refl _
  | cons last earlier ih =>
      unfold insertRanked
      split
      · exact (ih.cons last).trans (List.Perm.swap result last earlier)
      · exact List.Perm.refl _

private theorem foldl_insertRanked_perm (results ranked : List ScanResult) :
    (results.foldl (fun ranked result => insertRanked catalog result ranked) ranked).Perm
      (results ++ ranked) := by
  induction results generalizing ranked with
  | nil => exact List.Perm.refl _
  | cons result rest ih =>
      have inserted := (insertRanked_perm catalog result ranked).append_left rest
      exact (ih _).trans (inserted.trans List.perm_middle)

theorem rank_perm (results : List ScanResult) : (rank catalog results).Perm results := by
  have ordered := foldl_insertRanked_perm catalog results []
  rw [List.append_nil] at ordered
  exact (List.reverse_perm _).trans ordered

variable {catalog}

theorem mem_participants {candidates : Option (List String)} {grammar : Grammar}
    (member : grammar ∈ participants catalog candidates) :
    ∃ entry ∈ catalog.grammars.entries, entry.2 = grammar := by
  obtain ⟨name, _, found⟩ := List.mem_filterMap.mp (List.mem_filter.mp member).1
  exact Catalog.mem_of_find? found

/-- The best result is, but for the next best one that it carries, that of the bare text or that of a
grammar of the catalog. -/
theorem detect_source {scan : ScanWith} {text : String} {candidates : Option (List String)}
    {limits : ScanLimits} {result : ScanResult}
    (detected : detect catalog scan text candidates limits = .ok result) :
    result.tree = (ScanResult.plain plainName text).tree ∨
      ∃ entry ∈ catalog.grammars.entries, ∃ source,
        resultOf scan limits text entry.2 = .ok source ∧ result.tree = source.tree := by
  obtain ⟨listed, resulted, taken⟩ := bind_eq_ok.mp detected
  obtain ⟨scanned, scans, rest⟩ := bind_eq_ok.mp resulted
  obtain rfl := pure_eq_ok.mp rest
  obtain rfl := pure_eq_ok.mp taken
  cases ranked : rank catalog (ScanResult.plain plainName text :: scanned) with
  | nil => exact Or.inl rfl
  | cons first others =>
      have member : first ∈ ScanResult.plain plainName text :: scanned := by
        rw [← (rank_perm catalog _).mem_iff, ranked]
        exact List.mem_cons_self
      rcases List.mem_cons.mp member with rfl | later
      · exact Or.inl rfl
      · obtain ⟨grammar, taking, result⟩ := mem_of_mapM_eq_ok scans later
        obtain ⟨entry, entryMember, rfl⟩ := mem_participants taking
        exact Or.inr ⟨entry, entryMember, first, result, rfl⟩

end Detection

end Highlight
