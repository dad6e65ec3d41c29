import Highlight.Pattern.Parser
import Highlight.Proofs.Pattern.Reading.Token

set_option autoImplicit false

/-! Reading one token after the other. -/

namespace Highlight.Pattern

open Outcome

namespace Reader

/-- A reader takes these tokens from a source and stands then before the rest of it. -/
inductive Reads : Reader → List Char → List Token → Reader → List Char → Prop where
  | nothing (reader : Reader) (input : List Char) : Reads reader input [] reader input
  | next {reader next last : Reader} {c : Char} {input after rest : List Char} {token : Token}
      {tokens : List Token}
      (read : Pattern.token reader.options reader.groups c input = .ok (token, after))
      (added : reader.add token = .ok next) (reads : Reads next after tokens last rest) :
      Reads reader (c :: input) (token :: tokens) last rest

namespace Reads

variable {reader middle last : Reader} {input beyond rest : List Char} {tokens others : List Token}

theorem trans (reads : Reads reader input tokens middle beyond)
    (readsOn : Reads middle beyond others last rest) :
    Reads reader input (tokens ++ others) last rest := by
  induction reads with
  | nothing => exact readsOn
  | next read added _ ih => exact .next read added (ih readsOn)

theorem length_le (reads : Reads reader input tokens last rest) :
    tokens.length + rest.length ≤ input.length := by
  induction reads with
  | nothing => exact Nat.le_of_eq (Nat.zero_add _)
  | next read _ _ ih =>
      obtain ⟨back, left, rfl, used, taken, put, _⟩ := token_readsBack read
      have shorter := put.length
      rw [taken]
      simp only [List.length_append, List.length_cons] at ih ⊢
      omega

/-- Characters that are put back before the rest close no group. -/
theorem mem_of_mem_rest (reads : Reads reader input tokens last rest) (closes : ')' ∈ rest) :
    ')' ∈ input := by
  induction reads with
  | nothing => exact closes
  | next read _ _ ih =>
      obtain ⟨back, left, rfl, used, taken, put, _⟩ := token_readsBack read
      rcases List.mem_append.mp (ih closes) with among | beyond
      · exact absurd among put.parenthesis
      · rw [taken]
        exact List.mem_cons_of_mem _ (List.mem_append_right _ beyond)

/-- What stands behind the rest of a source is of no account if a group is closed in the rest. -/
theorem append (reads : Reads reader input tokens last rest) (closes : ')' ∈ rest)
    (tail : List Char) : Reads reader (input ++ tail) tokens last (rest ++ tail) := by
  induction reads with
  | nothing => exact .nothing ..
  | next read added readsOn ih =>
      obtain ⟨back, left, rfl, used, taken, put, reads⟩ := token_readsBack read
      have within : ')' ∈ left := by
        rcases List.mem_append.mp (readsOn.mem_of_mem_rest closes) with among | beyond
        · exact absurd among put.parenthesis
        · exact beyond
      have readsOn := ih closes
      rw [List.append_assoc] at readsOn
      rw [taken, List.cons_append, List.append_assoc]
      exact .next (reads _ (Alike.of_mem within tail)) added readsOn

theorem readOn (reads : Reads reader input tokens last rest) (steps : Nat) :
    reader.readOn (tokens.length + steps) input = last.readOn steps rest := by
  induction reads with
  | nothing => rw [List.length_nil, Nat.zero_add]
  | next read added _ ih =>
      rw [List.length_cons, Nat.add_right_comm, Reader.readOn, read, ok_bind]
      dsimp only
      rw [added, ok_bind]
      exact ih

theorem readOn_end (reads : Reads reader input tokens last []) {steps : Nat}
    (enough : input.length ≤ steps) : reader.readOn steps input = .ok last := by
  have length := reads.length_le
  obtain ⟨more, rfl⟩ := Nat.exists_eq_add_of_le (Nat.le_trans (Nat.le_of_add_right_le length) enough)
  rw [reads.readOn]
  cases more <;> rfl

end Reads

theorem reads_of_readOn {steps : Nat} {reader last : Reader} {input : List Char}
    (read : reader.readOn steps input = .ok last) : ∃ tokens, Reads reader input tokens last [] := by
  induction steps generalizing reader input with
  | zero =>
      cases input with
      | nil =>
          cases read
          exact ⟨[], .nothing ..⟩
      | cons c input => cases read
  | succ steps ih =>
      cases input with
      | nil =>
          cases read
          exact ⟨[], .nothing ..⟩
      | cons c input =>
          rw [readOn] at read
          obtain ⟨⟨token, after⟩, taken, read⟩ := bind_eq_ok.mp read
          obtain ⟨next, added, read⟩ := bind_eq_ok.mp read
          obtain ⟨tokens, reads⟩ := ih read
          exact ⟨token :: tokens, .next taken added reads⟩

/-- The tokens that a reader takes from a source until only a given text is left, and what it has
become by then. The number bounds the tokens. -/
def tokensUpTo (stop : List Char) :
    Nat → Reader → List Char → Except PatternError (List Token × Reader)
  | 0, reader, input => if input = stop then .ok ([], reader) else .error .tooDeep
  | steps + 1, reader, input =>
    if input = stop then .ok ([], reader)
    else match input with
      | [] => .error .endInGroup
      | c :: input => do
        let (token, after) ← token reader.options reader.groups c input
        let next ← reader.add token
        let (tokens, last) ← tokensUpTo stop steps next after
        return (token :: tokens, last)

theorem reads_of_tokensUpTo {stop : List Char} {steps : Nat} {reader last : Reader}
    {input : List Char} {tokens : List Token}
    (taken : reader.tokensUpTo stop steps input = .ok (tokens, last)) :
    Reads reader input tokens last stop := by
  induction steps generalizing reader input tokens with
  | zero =>
      unfold tokensUpTo at taken
      split at taken
      · rename_i same
        cases taken
        rw [same]
        exact .nothing ..
      · cases taken
  | succ steps ih =>
      unfold tokensUpTo at taken
      split at taken
      · rename_i same
        cases taken
        rw [same]
        exact .nothing ..
      · split at taken
        · cases taken
        · obtain ⟨⟨token, after⟩, read, taken⟩ := bind_eq_ok.mp taken
          obtain ⟨next, added, taken⟩ := bind_eq_ok.mp taken
          obtain ⟨⟨others, final⟩, found, taken⟩ := bind_eq_ok.mp taken
          cases taken
          exact .next read added (ih found)

theorem Reads.tokensUpTo {reader last : Reader} {input stop : List Char} {tokens : List Token}
    (reads : Reads reader input tokens last stop) {steps : Nat} (enough : tokens.length ≤ steps) :
    reader.tokensUpTo stop steps input = .ok (tokens, last) := by
  induction reads generalizing steps with
  | nothing => cases steps <;> simp [Reader.tokensUpTo]
  | @next reader middle last c input after stop token tokens read added readsOn ih =>
      have other : c :: input ≠ stop := by
        rintro rfl
        have length := (Reads.next read added readsOn).length_le
        simp only [List.length_cons] at length
        omega
      cases steps with
      | zero => cases enough
      | succ steps =>
          rw [Reader.tokensUpTo, if_neg other]
          dsimp only
          rw [read, ok_bind]
          dsimp only
          rw [added, ok_bind, ih (Nat.le_of_succ_le_succ enough)]
          rfl

end Reader

end Highlight.Pattern
