import SchemaWire.Codec.Error
import SchemaWire.Proofs.Varint

/-! Varints are a code: each number below `2 ^ 2040` has one form, and forms end by themselves.

A buffer only grows when a number is put into it, and not at all when the number is too long. What is
read back is a form and nothing else, so forms that stand one after another come apart in one way.
-/

set_option autoImplicit false

namespace SchemaWire.Varint

variable {n m : Nat} {buffer form other rest otherRest : Bytes}

/-! ## Putting -/

theorem put_eq (n : Nat) (buffer : Bytes) :
    put n buffer =
      match encode n with
      | .ok form => (.ok (), buffer ++ form)
      | .error number => (.error number, buffer) := by
  unfold put encode
  dsimp only
  split
  · simp
  · rfl

theorem encode_eq_put (n : Nat) : encode n = (put n []).1.map fun _ => (put n []).2 := by
  rw [put_eq]
  cases encode n <;> rfl

theorem put_fst_eq_ok_iff : (put n buffer).1 = .ok () ↔ n < 2 ^ 2040 := by
  rw [put_eq, ← exists_encode_iff]
  cases encode n <;> simp

theorem length_of_encode_eq_error {number : TooLong} (long : encode n = .error number)
    (width : Nat) : number.length ≤ width ↔ n < 256 ^ width := by
  unfold encode at long
  dsimp only at long
  split at long
  · cases long
  · cases long
    exact Bytes.length_ofNat_le_iff

/-! ## Coming apart -/

/-- Two forms at the front of the same bytes are one form. -/
theorem form_unique (first : encode n = .ok form) (second : encode m = .ok other)
    (same : form ++ rest = other ++ otherRest) : n = m ∧ form = other ∧ rest = otherRest := by
  have popped : pop (form ++ rest) = .ok (n, rest) := pop_eq_ok_iff.2 ⟨form, first, rfl⟩
  rw [same, pop_eq_ok_iff.2 ⟨other, second, rfl⟩] at popped
  cases popped
  rw [first] at second
  cases second
  exact ⟨rfl, rfl, rfl⟩

theorem form_ne_nil (written : encode n = .ok form) : form ≠ [] := by
  rw [(encode_eq_ok_iff.1 written).2]
  exact List.cons_ne_nil _ _

theorem forms_unique {numbers others : List Nat} {forms otherForms : List Bytes}
    (first : List.Forall₂ (fun n form => encode n = .ok form) numbers forms)
    (second : List.Forall₂ (fun n form => encode n = .ok form) others otherForms)
    (same : forms.flatten = otherForms.flatten) : numbers = others ∧ forms = otherForms := by
  induction first generalizing others otherForms with
  | nil =>
    cases second with
    | nil => exact ⟨rfl, rfl⟩
    | cons written _ =>
      -- No form is empty, so nothing can be left on the other side.
      rw [List.flatten_cons] at same
      exact absurd (List.append_eq_nil_iff.1 same.symm).1 (form_ne_nil written)
  | cons written _ ih =>
    cases second with
    | nil =>
      rw [List.flatten_cons] at same
      exact absurd (List.append_eq_nil_iff.1 same).1 (form_ne_nil written)
    | cons otherWritten later =>
      rw [List.flatten_cons, List.flatten_cons] at same
      obtain ⟨rfl, rfl, laterSame⟩ := form_unique written otherWritten same
      obtain ⟨rfl, rfl⟩ := ih later laterSame
      exact ⟨rfl, rfl⟩

/-- Putting a number appends its form to whatever a buffer holds and succeeds just below `2 ^ 2040`;
a number that is too long is refused with the length of its shortest bytes and leaves no trace.
Reading accepts a number just when its form stands in front. So each number has one accepted form,
and bytes are a concatenation of forms in at most one way. -/
theorem varint_code :
    (∀ (n : Nat) (buffer : Bytes),
      (put n buffer).2 = buffer ++ (put n []).2 ∧
      ((put n buffer).1 = .ok () ↔ n < 2 ^ 2040) ∧
      ∀ error, (put n buffer).1.mapError CodecError.ofTooLong = .error error →
        (put n buffer).2 = buffer ∧
        ∃ length, error = .countTooBig length ∧ ∀ width, length ≤ width ↔ n < 256 ^ width) ∧
    (∀ n, encode n = (put n []).1.map fun _ => (put n []).2) ∧
    (∀ (n : Nat) (source rest : Bytes), pop source = .ok (n, rest) ↔
      n < 2 ^ 2040 ∧ ∃ form, encode n = .ok form ∧ source = form ++ rest) ∧
    (∀ n, n < 2 ^ 2040 → ∃! form, pop form = .ok (n, [])) ∧
    ∀ numbers others forms otherForms,
      List.Forall₂ (fun n form => encode n = .ok form) numbers forms →
      List.Forall₂ (fun n form => encode n = .ok form) others otherForms →
      forms.flatten = otherForms.flatten → numbers = others ∧ forms = otherForms := by
  refine ⟨?_, encode_eq_put, ?_, ?_, ?_⟩
  · intro n buffer
    refine ⟨?_, put_fst_eq_ok_iff, ?_⟩
    · rw [put_eq, put_eq]
      cases encode n <;> simp
    · intro error failed
      rw [put_eq] at failed ⊢
      cases written : encode n with
      | ok form =>
        rw [written] at failed
        cases failed
      | error number =>
        rw [written] at failed
        cases failed
        exact ⟨rfl, number.length, rfl, length_of_encode_eq_error written⟩
  · intro n source rest
    rw [pop_eq_ok_iff, ← exists_encode_iff]
    constructor
    · intro ⟨form, written, same⟩
      exact ⟨⟨form, written⟩, form, written, same⟩
    · intro ⟨_, present⟩
      exact present
  · intro n short
    obtain ⟨form, written⟩ := exists_encode_iff.2 short
    refine ⟨form, pop_eq_ok_iff.2 ⟨form, written, (List.append_nil form).symm⟩, ?_⟩
    intro other popped
    obtain ⟨found, otherWritten, same⟩ := pop_eq_ok_iff.1 popped
    rw [List.append_nil] at same
    cases written.symm.trans otherWritten
    exact same
  · intro numbers others forms otherForms first second same
    exact forms_unique first second same

/-- The least number that is too long has 256 bytes, one more than a length byte announces. -/
theorem varint_code_bounds :
    put 256 [9] = (.ok (), [9, 2, 1, 0]) ∧ put (2 ^ 2040) [9] = (.error ⟨256⟩, [9]) ∧
      (∃! form, pop form = .ok (256, [])) ∧
      ∀ numbers forms, List.Forall₂ (fun n form => encode n = .ok form) numbers forms →
        forms.flatten = [2, 1, 0, 0] → numbers = [256, 0] := by
  obtain ⟨puts, -, -, once, splits⟩ := varint_code
  have small : 256 < 2 ^ 2040 := exists_encode_iff.1 ⟨[2, 1, 0], by cbv⟩
  refine ⟨by cbv, ?_, once 256 small, ?_⟩
  · obtain ⟨-, short, refused⟩ := puts (2 ^ 2040) [9]
    generalize put (2 ^ 2040) [9] = result at short refused ⊢
    obtain ⟨outcome, buffer⟩ := result
    cases outcome with
    | ok done => exact absurd (short.1 rfl) (Nat.lt_irrefl _)
    | error number =>
      obtain ⟨rfl, length, same, least⟩ := refused _ rfl
      have counted : number.length = length := by simpa [CodecError.ofTooLong] using same
      have fits : length ≤ 256 := by
        apply (least 256).2
        rw [show 256 = 2 ^ 8 from rfl, ← Nat.pow_mul, Nat.pow_lt_pow_iff_right (by decide)]
        decide
      have long : ¬ length ≤ 255 := by
        intro announced
        have bounded := (least 255).1 announced
        rw [show 256 = 2 ^ 8 from rfl, ← pow_mul, show 8 * 255 = 2040 from rfl] at bounded
        exact Nat.lt_irrefl _ bounded
      have size : number.length = 256 := by omega
      cases number
      cases size
      rfl
  · intro numbers forms written same
    have pair : List.Forall₂ (fun n form => encode n = .ok form) [256, 0] [[2, 1, 0], [0]] :=
      .cons (by cbv) (.cons (by cbv) .nil)
    exact (splits _ _ _ _ written pair (by rw [same]; rfl)).1

end SchemaWire.Varint
