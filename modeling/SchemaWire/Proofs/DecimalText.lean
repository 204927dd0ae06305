import SchemaWire.Decimal.Natural

/-! Decimal text reads back as the number it was written for.

What people may add to digits, a sign or low lines, is never written, so reading comes down to the
value of the digits.
-/

set_option autoImplicit false

namespace SchemaWire

theorem Numeral.lt_of_mem_digits {base n d : Nat} (wide : 2 ≤ base) (member : d ∈ digits base n) :
    d < base := by
  induction n using Nat.strongRecOn with
  | ind n ih =>
    by_cases zero : n = 0
    · rw [zero, digits_zero] at member
      cases member
    · rw [digits_step zero wide, List.mem_append, List.mem_singleton] at member
      rcases member with front | rfl
      · exact ih _ (Nat.div_lt_self (by omega) (by omega)) front
      · exact Nat.mod_lt n (by omega)

namespace Decimal.Natural

theorem exists_digits (n : Nat) :
    ∃ first rest, (Numeral.decimal n).toList = ((first :: rest).map Nat.digitChar) ∧
      (∀ d ∈ first :: rest, d < 10) ∧ Numeral.value 10 (first :: rest) = n := by
  by_cases zero : n = 0
  · subst zero
    exact ⟨0, [], rfl, by simp, rfl⟩
  · have written : (Numeral.decimal n).toList = (Numeral.digits 10 n).map Nat.digitChar := by
      rw [Numeral.decimal, Numeral.text, if_neg zero, String.toList_ofList]
    have denoted := Numeral.value_digits (show 2 ≤ 10 by decide) n
    cases split : Numeral.digits 10 n with
    | nil =>
      rw [split] at denoted
      exact absurd denoted.symm zero
    | cons first rest =>
      rw [split] at written denoted
      refine ⟨first, rest, written, fun d member => ?_, denoted⟩
      exact Numeral.lt_of_mem_digits (by decide) (split ▸ member)

theorem digitChar_facts {d : Nat} (small : d < 10) :
    Nat.digitChar d ≠ '+' ∧ Nat.digitChar d ≠ '_' ∧ isDigit (Nat.digitChar d) = true ∧
      digitValue (Nat.digitChar d) = d := by
  have each : ∀ d : Fin 10, Nat.digitChar d ≠ '+' ∧ Nat.digitChar d ≠ '_' ∧
      isDigit (Nat.digitChar d) = true ∧ digitValue (Nat.digitChar d) = d := by decide
  exact each ⟨d, small⟩

theorem dropSign_of_ne {c : Char} (unsigned : c ≠ '+') (rest : List Char) :
    dropSign (c :: rest) = c :: rest := by
  unfold dropSign
  split
  · rename_i same
    exact absurd (List.cons.inj same).1 unsigned
  · rename_i same
    exact absurd (List.cons.inj same).1 unsigned
  · rfl

theorem read_digits {first : Nat} {rest : List Nat} (small : ∀ d ∈ first :: rest, d < 10) :
    read ((first :: rest).map Nat.digitChar) = .ok (Numeral.value 10 (first :: rest)) := by
  have written : ∀ c ∈ (first :: rest).map Nat.digitChar, c ≠ '_' ∧ isDigit c = true := by
    refine List.forall_mem_map.2 fun d member => ?_
    obtain ⟨-, noLine, digit, -⟩ := digitChar_facts (small d member)
    exact ⟨noLine, digit⟩
  have kept : ((first :: rest).map Nat.digitChar).filter (· != '_') =
      (first :: rest).map Nat.digitChar :=
    List.filter_eq_self.2 fun c member => bne_iff_ne.2 (written c member).1
  have digits : ((first :: rest).map Nat.digitChar).all isDigit = true :=
    List.all_eq_true.2 fun c member => (written c member).2
  have values : ((first :: rest).map Nat.digitChar).map digitValue = first :: rest := by
    rw [List.map_map]
    refine (List.map_congr_left fun d member => ?_).trans (List.map_id _)
    exact (digitChar_facts (small d member)).2.2.2
  obtain ⟨noSign, noLine, -⟩ := digitChar_facts (small first List.mem_cons_self)
  simp only [read]
  split
  · rename_i empty
    rw [List.map_cons, dropSign_of_ne noSign] at empty
    cases empty
  · rename_i line
    rw [List.map_cons, dropSign_of_ne noSign] at line
    exact absurd (List.cons.inj line).1 noLine
  · rw [List.map_cons, dropSign_of_ne noSign, ← List.map_cons, kept, if_pos digits, values]

theorem read_decimal (n : Nat) : read (Numeral.decimal n).toList = .ok n := by
  obtain ⟨first, rest, written, small, denoted⟩ := exists_digits n
  rw [written, read_digits small, denoted]

end Decimal.Natural

end SchemaWire
