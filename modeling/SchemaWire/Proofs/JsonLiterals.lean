import SchemaWire.Json.Text
import SchemaWire.Json.Token
import SchemaWire.Proofs.DecimalText

/-! Strings and integers in JSON text.

What is written for a string or for an integer is read back as the same token. A string has an end
of its own, and a number ends where no digit, point or exponent goes on with it.
-/

set_option autoImplicit false

namespace SchemaWire.Json

/-! ## Strings -/

theorem unit?_low {n : Nat} (low : n < 32) :
    unit? ['0', '0', Nat.digitChar (n / 16), Nat.digitChar (n % 16)] = some n := by
  have each : ∀ n : Fin 32,
      unit? ['0', '0', Nat.digitChar (n / 16), Nat.digitChar (n % 16)] = some n.val := by decide
  exact each ⟨n, low⟩

theorem takeString_named {name c : Char} (short : name ≠ 'u') (same : unescaped? name = some c)
    (rest : List Char) :
    takeString ('\x5c' :: name :: rest) =
      (takeString rest).map fun (read, left) => (c :: read, left) := by
  rw [takeString]
  · rw [same]
    cases takeString rest <;> rfl
  · intro _ _ _ _ _ again
    exact absurd again short

theorem takeString_escaped (c : Char) (rest : List Char) :
    takeString (escaped c ++ rest) =
      (takeString rest).map fun (read, left) => (c :: read, left) := by
  unfold escaped
  iterate 7
    split
    · subst c
      exact takeString_named (by decide) rfl rest
  split
  · rename_i control
    have low : c.toNat < 32 := control
    have trailing : isTrailing c.toNat = false := by
      simp [isTrailing]
      omega
    have leading : isLeading c.toNat = false := by
      simp [isLeading]
      omega
    simp only [List.cons_append, List.nil_append]
    rw [takeString, unit?_low low]
    simp only [Option.bind_eq_bind, Option.bind_some, trailing, leading, Bool.false_eq_true,
      if_false, Char.ofNat_toNat]
    cases takeString rest <;> rfl
  · rename_i quote backslash _ _ _ _ _ high
    rw [List.singleton_append, takeString.eq_def]
    split
    · simp_all
    · simp_all
    · simp_all
    · simp_all
    · rename_i same
      cases same
      rw [if_neg high]
      cases takeString rest <;> rfl

theorem takeString_quoted (characters rest : List Char) :
    takeString (characters.flatMap escaped ++ '\x22' :: rest) = some (characters, rest) := by
  induction characters with
  | nil => rw [List.flatMap_nil, List.nil_append, takeString]
  | cons c characters ih =>
    rw [List.flatMap_cons, List.append_assoc, takeString_escaped, ih, Option.map_some]

/-! ## Numbers -/

/-- No number goes on with the character. -/
def endsNumber (c : Char) : Bool := !isDigit c && c != '.' && c != 'e' && c != 'E'

def NumberEnds (rest : List Char) : Prop := ∀ c ∈ rest.head?, endsNumber c = true

theorem digitChar_facts {d : Nat} (small : d < 10) :
    isDigit (Nat.digitChar d) = true ∧ Nat.digitChar d ≠ '-' ∧
      (Nat.digitChar d).toNat - '0'.toNat = d := by
  have each : ∀ d : Fin 10, isDigit (Nat.digitChar d) = true ∧ Nat.digitChar d ≠ '-' ∧
      (Nat.digitChar d).toNat - '0'.toNat = d := by decide
  exact each ⟨d, small⟩

theorem takeDigits_append {digits : List Nat} {rest : List Char} (small : ∀ d ∈ digits, d < 10)
    (ends : NumberEnds rest) :
    takeDigits (digits.map Nat.digitChar ++ rest) = (digits, rest) := by
  have digit : ∀ c ∈ digits.map Nat.digitChar, isDigit c = true :=
    List.forall_mem_map.2 fun d member => (digitChar_facts (small d member)).1
  have stop : rest.takeWhile isDigit = [] ∧ rest.dropWhile isDigit = rest := by
    cases rest with
    | nil => exact ⟨rfl, rfl⟩
    | cons c rest =>
      have other := ends c rfl
      simp only [endsNumber, Bool.and_eq_true, Bool.not_eq_true'] at other
      simp [other]
  have values : (digits.map Nat.digitChar).map (·.toNat - '0'.toNat) = digits := by
    rw [List.map_map]
    refine (List.map_congr_left fun d member => ?_).trans (List.map_id _)
    exact (digitChar_facts (small d member)).2.2
  rw [takeDigits, List.takeWhile_append_of_pos digit, List.dropWhile_append_of_pos digit, stop.1,
    stop.2, List.append_nil, values]

theorem le_foldl_digits (digits : List Nat) (start : Nat) :
    start ≤ digits.foldl (fun n d => n * 10 + d) start := by
  induction digits generalizing start with
  | nil => exact Nat.le_refl _
  | cons d digits ih => exact Nat.le_trans (by omega) (ih (start * 10 + d))

theorem accumulate_of_lt {digits : List Nat} {start : Nat}
    (fits : digits.foldl (fun n d => n * 10 + d) start < UInt64.size) :
    accumulate start digits = (digits.foldl (fun n d => n * 10 + d) start, 0) := by
  induction digits generalizing start with
  | nil => rfl
  | cons d digits ih =>
    rw [List.foldl_cons] at fits ⊢
    rw [accumulate, if_pos (Nat.lt_of_le_of_lt (le_foldl_digits _ _) fits), ih fits]

theorem head?_digits {base : Nat} (wide : 2 ≤ base) (n : Nat) :
    (Numeral.digits base n).head? ≠ some 0 := by
  induction n using Nat.strongRecOn with
  | ind n ih =>
    by_cases zero : n = 0
    · simp [zero]
    · rw [Numeral.digits_step zero wide]
      by_cases small : n / base = 0
      · have last : n % base = n := Nat.mod_eq_of_lt ((Nat.div_eq_zero_iff_lt (by omega)).1 small)
        simp [small, last, zero]
      · have front : Numeral.digits base (n / base) ≠ [] := by
          intro none
          have denoted := Numeral.value_digits wide (n / base)
          rw [none] at denoted
          exact small denoted.symm
        obtain ⟨first, others, split⟩ := List.exists_cons_of_ne_nil front
        have minimal := ih (n / base) (Nat.div_lt_self (by omega) (by omega))
        rw [split] at minimal ⊢
        exact minimal

theorem takeWhole_append {digits : List Nat} {rest : List Char} (small : ∀ d ∈ digits, d < 10)
    (nonempty : digits ≠ []) (minimal : digits = [0] ∨ digits.head? ≠ some 0)
    (ends : NumberEnds rest) :
    takeWhole (digits.map Nat.digitChar ++ rest) = some (digits, rest) := by
  rw [takeWhole, takeDigits_append small ends]
  split
  · rename_i none
    exact absurd (Prod.mk.inj none).1 nonempty
  · rename_i zero
    obtain rfl := (Prod.mk.inj zero).1
    simp at minimal
  · rfl

/-- Only zero itself is written with a zero in front. -/
theorem exists_takeWhole_decimal (n : Nat) {rest : List Char} (ends : NumberEnds rest) :
    ∃ digits, takeWhole ((Numeral.decimal n).toList ++ rest) = some (digits, rest) ∧
      Numeral.value 10 digits = n := by
  by_cases zero : n = 0
  · subst zero
    exact ⟨[0], takeWhole_append (by decide) (by decide) (.inl rfl) ends, rfl⟩
  · have denoted : Numeral.value 10 (Numeral.digits 10 n) = n :=
      Numeral.value_digits (by decide) n
    have nonempty : Numeral.digits 10 n ≠ [] := by
      intro none
      rw [none] at denoted
      exact zero denoted.symm
    refine ⟨Numeral.digits 10 n, ?_, denoted⟩
    rw [Numeral.decimal, Numeral.text, if_neg zero, String.toList_ofList]
    exact takeWhole_append (fun d => Numeral.lt_of_mem_digits (by decide)) nonempty
      (.inr (head?_digits (by decide) n)) ends

theorem takeFraction_of_ends {rest : List Char} (ends : NumberEnds rest) :
    takeFraction rest = some (none, rest) := by
  unfold takeFraction
  split
  · cases ends _ rfl
  · rfl

theorem takeExponent_of_ends {rest : List Char} (ends : NumberEnds rest) :
    takeExponent rest = some (none, rest) := by
  unfold takeExponent
  split
  · rfl
  · rename_i mark rest
    rw [if_neg]
    rintro (rfl | rfl)
    · cases ends _ rfl
    · cases ends _ rfl

/-- Integers, as opposed to floating point numbers. -/
inductive Number.Exact : Number → Prop where
  | natural (n : UInt64) : Exact (.natural n)
  | negative {n : Int64} : n < 0 → Exact (.negative n)

/-- The digits of a number, with a minus sign if it is to be negative. -/
def signed (negative : Bool) (n : Nat) : List Char :=
  if negative then '-' :: (Numeral.decimal n).toList else (Numeral.decimal n).toList

theorem exists_takeLiteral (negative : Bool) (n : Nat) {rest : List Char} (ends : NumberEnds rest) :
    ∃ digits, Numeral.value 10 digits = n ∧
      takeLiteral (signed negative n ++ rest) = some (⟨negative, digits, none, none⟩, rest) := by
  obtain ⟨digits, whole, denoted⟩ := exists_takeWhole_decimal n ends
  refine ⟨digits, denoted, ?_⟩
  obtain ⟨first, others, written, small, -⟩ := Decimal.Natural.exists_digits n
  have unsigned := (digitChar_facts (small first List.mem_cons_self)).2.1
  cases negative with
  | true => simp [signed, takeLiteral, whole, takeFraction_of_ends ends, takeExponent_of_ends ends]
  | false =>
    rw [written, List.map_cons, List.cons_append] at whole
    simp [signed, written, takeLiteral, unsigned, whole, takeFraction_of_ends ends,
      takeExponent_of_ends ends]

theorem take_literal {text : List Char}
    (begins : ∃ c ∈ text.head?, c = '-' ∨ isDigit c = true) :
    Token.take text = do
      let (literal, rest) ← takeLiteral text
      let number ← literal.number?
      return (.number number, rest) := by
  obtain ⟨c, head, numeric⟩ := begins
  unfold Token.take
  split
  case h_1 => cases head
  case h_12 => rfl
  all_goals
    cases head
    exact absurd numeric (by decide)

theorem numeric_signed (negative : Bool) (n : Nat) (rest : List Char) :
    ∃ c ∈ (signed negative n ++ rest).head?, c = '-' ∨ isDigit c = true := by
  cases negative with
  | true => exact ⟨'-', rfl, .inl rfl⟩
  | false =>
    obtain ⟨first, others, written, small, -⟩ := Decimal.Natural.exists_digits n
    have digit := (digitChar_facts (small first List.mem_cons_self)).1
    refine ⟨Nat.digitChar first, ?_, .inr digit⟩
    simp [signed, written]

theorem accumulate_value {digits : List Nat} (fits : Numeral.value 10 digits < UInt64.size) :
    accumulate 0 digits = (Numeral.value 10 digits, 0) := accumulate_of_lt fits

theorem Number.Exact.exists_signed {number : Number} (exact : number.Exact) :
    ∃ negative n, number.text.toList = signed negative n ∧
      ∀ digits, Numeral.value 10 digits = n →
        NumberLiteral.number? ⟨negative, digits, none, none⟩ = some number := by
  cases exact with
  | natural n =>
    refine ⟨false, n.toNat, rfl, fun digits denoted => ?_⟩
    have fits : Numeral.value 10 digits < UInt64.size := denoted ▸ n.toNat_lt
    simp [NumberLiteral.number?, accumulate_value fits, denoted]
  | @negative n below =>
    have written : (Number.negative n).text.toList = signed true n.toInt.natAbs := by
      simp [Number.text, signed]
    refine ⟨true, n.toInt.natAbs, written, fun digits denoted => ?_⟩
    have least := n.le_toInt
    have sign : n.toInt < 0 := Int64.lt_iff_toInt_lt.1 below
    have words : UInt64.size = 2 ^ 64 := rfl
    have bound : 2 * Numeral.value 10 digits ≤ UInt64.size := by omega
    have fits : Numeral.value 10 digits < UInt64.size := by omega
    have positive : 0 < Numeral.value 10 digits := by omega
    have size : -(Numeral.value 10 digits : Int) = n.toInt := by omega
    have same : Int64.ofInt (-(Numeral.value 10 digits : Int)) = n := by
      rw [size, Int64.ofInt_toInt]
    simp [NumberLiteral.number?, accumulate_value fits, positive, bound, same]

theorem take_integer {number : Number} (exact : number.Exact) {rest : List Char}
    (ends : NumberEnds rest) :
    Token.take (number.text.toList ++ rest) = some (.number number, rest) := by
  obtain ⟨negative, n, written, denotes⟩ := exact.exists_signed
  obtain ⟨digits, denoted, taken⟩ := exists_takeLiteral negative n ends
  rw [written, take_literal (numeric_signed negative n rest), taken]
  simp [denotes digits denoted]

end SchemaWire.Json
