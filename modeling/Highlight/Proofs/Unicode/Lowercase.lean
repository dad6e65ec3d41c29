import Highlight.Unicode.Lowercase

set_option autoImplicit false

/-! Lowercase forms have no capitals left in them: lowercasing a text twice comes to the same as doing it
once. The runs of the table are compared in pairs: the images of each lie beside or between the code points
of all others, so that no image is a capital itself. -/

namespace Highlight.Unicode

namespace CaseRun

def lastImage (run : CaseRun) : Nat :=
  run.target + (run.codes.last - run.codes.first)

/-- Whether the images of a run are no code points of a stride: they lie beside it, or the stride goes on
by two and so does the run, if it goes on at all, and they never meet. -/
def leadsBeside (run : CaseRun) (codes : Stride) : Bool :=
  Nat.blt codes.last run.target || Nat.blt run.lastImage codes.first
    || (Nat.beq run.codes.step 2 || Nat.beq run.codes.first run.codes.last) && Nat.beq codes.step 2
      && !Nat.beq (run.target % 2) (codes.first % 2)

/-- Whether the images of a run are small letters by themselves: they are so among the first 128 code
points, or are characters that lie beyond these and are not the dotted capital. -/
def leadsToLetters (run : CaseRun) : Bool :=
  run.codes.first == run.codes.last && (Char.ofNat run.target).toLower == Char.ofNat run.target
      && run.target < 128
    || 128 ≤ run.target && (run.lastImage < 304 || 304 < run.target)
      && (run.lastImage < 55296 || 57343 < run.target) && run.lastImage < 1114112

theorem image_bounds {run : CaseRun} {code : Nat} (on : run.codes.contains code = true) :
    run.target ≤ run.image code ∧ run.image code ≤ run.lastImage := by
  simp only [Stride.contains, Bool.and_eq_true, decide_eq_true_eq] at on
  simp only [image, lastImage]
  omega

theorem image_of_leadsBeside {run : CaseRun} {codes : Stride} (beside : run.leadsBeside codes = true)
    {code : Nat} (on : run.codes.contains code = true) :
    codes.contains (run.image code) = false := by
  have bounds := image_bounds on
  refine Bool.eq_false_iff.mpr fun met => ?_
  simp only [leadsBeside, Bool.or_eq_true, Bool.and_eq_true, Nat.blt_eq, Nat.beq_eq,
    Bool.not_eq_true', ← Bool.not_eq_true] at beside
  simp only [Stride.contains, Bool.and_eq_true, decide_eq_true_eq, beq_iff_eq] at met on
  rcases beside with (before | behind) | ⟨⟨goes, step⟩, apart⟩
  · omega
  · omega
  · rw [step] at met
    unfold image at met
    rcases goes with two | single
    · rw [two] at on
      omega
    · omega

end CaseRun

theorem toNat_ofNat {code : Nat} (valid : code.isValidChar) : (Char.ofNat code).toNat = code := by
  rw [Char.ofNat, dif_pos valid]
  rfl

/-- A character that stays as it is in a lowercase form, whatever stands around it. -/
def IsSettled (c : Char) : Prop :=
  c.toNat ≠ 931 ∧ lowercaseChar c = [c]

theorem isSettled_toLower : ∀ code < 128, (Char.ofNat code).toLower.toNat < 128 ∧
    (Char.ofNat code).toLower.toLower = (Char.ofNat code).toLower := by
  decide +kernel

/-- The dot that is left of a dotted capital and the two small sigmas stay as they are. -/
theorem isSettled_special : ∀ code ∈ [775, 962, 963], IsSettled (Char.ofNat code) := by
  unfold IsSettled
  decide +kernel

theorem mapRuns?_sigma : mapRuns? lowercaseTable 931 ≠ none := by
  decide +kernel

theorem leads_lowercaseTable : (lowercaseTable.toList.all fun run =>
    run.leadsToLetters && lowercaseTable.toList.all fun other => run.leadsBeside other.codes) = true := by
  decide +kernel

theorem leads_of_mem {run : CaseRun} (member : run ∈ lowercaseTable) :
    run.leadsToLetters = true ∧ ∀ other ∈ lowercaseTable, run.leadsBeside other.codes = true := by
  have checked := List.all_eq_true.mp leads_lowercaseTable run (Array.mem_toList_iff.mpr member)
  obtain ⟨letters, beside⟩ := Bool.and_eq_true_iff.mp checked
  exact ⟨letters, fun other among => List.all_eq_true.mp beside other (Array.mem_toList_iff.mpr among)⟩

theorem isSettled_of_ascii {c : Char} (ascii : c.toNat < 128) (lower : c.toLower = c) :
    IsSettled c := by
  refine ⟨by omega, ?_⟩
  rw [lowercaseChar, if_pos ascii, lower]

theorem exists_run_of_mapRuns? {table : Array CaseRun} {code image : Nat}
    (mapped : mapRuns? table code = some image) :
    ∃ run ∈ table, run.codes.contains code = true ∧ run.image code = image := by
  unfold mapRuns? at mapped
  split at mapped
  · rename_i run found
    split at mapped
    · rename_i on
      exact ⟨run, Array.mem_of_getElem? found, on, Option.some.inj mapped⟩
    · cases mapped
  · cases mapped

theorem mapRuns?_of_image {code image : Nat} (mapped : mapRuns? lowercaseTable code = some image) :
    mapRuns? lowercaseTable image = none := by
  obtain ⟨run, member, on, rfl⟩ := exists_run_of_mapRuns? mapped
  cases again : mapRuns? lowercaseTable (run.image code) with
  | none => rfl
  | some further =>
      obtain ⟨other, otherMember, otherOn, _⟩ := exists_run_of_mapRuns? again
      have beside := (leads_of_mem member).2 other otherMember
      rw [CaseRun.image_of_leadsBeside beside on] at otherOn
      cases otherOn

theorem isSettled_of_mapRuns? {code image : Nat}
    (mapped : mapRuns? lowercaseTable code = some image) : IsSettled (Char.ofNat image) := by
  have unmapped := mapRuns?_of_image mapped
  obtain ⟨run, member, on, rfl⟩ := exists_run_of_mapRuns? mapped
  have letters := (leads_of_mem member).1
  have bounds := CaseRun.image_bounds on
  simp only [CaseRun.leadsToLetters, Bool.or_eq_true, Bool.and_eq_true, decide_eq_true_eq,
    beq_iff_eq] at letters
  rcases letters with ⟨⟨single, lower⟩, ascii⟩ | ⟨⟨⟨wide, undotted⟩, whole⟩, character⟩
  · have same : run.image code = run.target := by
      simp only [CaseRun.lastImage, single] at bounds
      omega
    rw [same]
    refine isSettled_of_ascii ?_ lower
    rw [toNat_ofNat (.inl (by omega))]
    exact ascii
  · have valid : (Char.ofNat (run.image code)).toNat = run.image code :=
      toNat_ofNat (by simp only [Nat.isValidChar]; omega)
    refine ⟨fun sigma => ?_, ?_⟩
    · exact mapRuns?_sigma (by rw [← sigma, valid, unmapped])
    · rw [lowercaseChar, valid, if_neg (by omega), if_neg (by omega), unmapped]
      rfl

theorem isSettled_of_mem_lowercaseChar {c d : Char} (other : c.toNat ≠ 931)
    (member : d ∈ lowercaseChar c) : IsSettled d := by
  unfold lowercaseChar at member
  split at member
  · rename_i ascii
    obtain rfl := List.mem_singleton.mp member
    have lower := isSettled_toLower c.toNat ascii
    rw [Char.ofNat_toNat] at lower
    exact isSettled_of_ascii lower.1 lower.2
  · split at member
    · simp only [List.mem_cons, List.not_mem_nil, or_false] at member
      rcases member with same | same
      · rw [same]
        exact isSettled_of_ascii (by decide) (by decide)
      · rw [same]
        exact isSettled_special 775 (by decide)
    · rename_i wide dotted
      rw [List.mem_singleton] at member
      rw [member]
      cases mapped : mapRuns? lowercaseTable c.toNat with
      | some image => exact isSettled_of_mapRuns? mapped
      | none =>
          refine ⟨other, ?_⟩
          simp only [lowercaseChar, if_neg wide, if_neg dotted, mapped, Option.map_none, Option.getD_none]

theorem isSettled_of_mem_lowercaseAfter {before chars : List Char} {c : Char}
    (member : c ∈ lowercaseAfter before chars) : IsSettled c := by
  induction chars generalizing before with
  | nil => cases member
  | cons head rest ih =>
      unfold lowercaseAfter at member
      rcases List.mem_append.mp member with here | later
      · by_cases sigma : head.toNat = 931
        · rw [if_pos sigma] at here
          split at here
          · obtain rfl := List.mem_singleton.mp here
            exact isSettled_special 962 (by decide)
          · obtain rfl := List.mem_singleton.mp here
            exact isSettled_special 963 (by decide)
        · rw [if_neg sigma] at here
          exact isSettled_of_mem_lowercaseChar sigma here
      · exact ih later

theorem lowercaseAfter_of_settled {before chars : List Char} (settled : ∀ c ∈ chars, IsSettled c) :
    lowercaseAfter before chars = chars := by
  induction chars generalizing before with
  | nil => rfl
  | cons head rest ih =>
      obtain ⟨other, same⟩ := settled head List.mem_cons_self
      unfold lowercaseAfter
      dsimp only
      rw [if_neg other, same, ih fun c member => settled c (List.mem_cons_of_mem _ member)]
      rfl

/-- Lowercasing a second time changes nothing. -/
@[simp] theorem lowercase_lowercase (text : String) : lowercase (lowercase text) = lowercase text := by
  unfold lowercase
  rw [String.toList_ofList, lowercaseAfter_of_settled fun c => isSettled_of_mem_lowercaseAfter]

end Highlight.Unicode
