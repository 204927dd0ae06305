import Mathlib.Data.List.Basic
import SchemaWire.Text.Words

/-! Text that was put together from words or lines comes apart into them again.

Both ways of cutting a text are told by what they give and not by how they cut: lines give the text
back with line feeds between them, and words do so with any blanks around them.
-/

set_option autoImplicit false

namespace SchemaWire.Text

theorem pieces_eq_splitOnP (separates : Char → Bool) (text : List Char) :
    pieces separates text = text.splitOnP separates := by
  induction text with
  | nil => rfl
  | cons c rest ih =>
    rw [pieces, List.splitOnP_cons_eq_if_modifyHead, ih]
    split
    · rfl
    · cases split : rest.splitOnP separates with
      | nil => exact absurd split (List.splitOnP_ne_nil separates rest)
      | cons piece later => rfl

theorem not_separates_of_mem_pieces {separates : Char → Bool} {text piece : List Char}
    (member : piece ∈ pieces separates text) : ∀ c ∈ piece, separates c = false := by
  induction text generalizing piece with
  | nil =>
    obtain rfl := List.mem_singleton.1 member
    exact fun c inside => absurd inside List.not_mem_nil
  | cons first rest ih =>
    rw [pieces] at member
    split at member
    · rcases List.mem_cons.1 member with rfl | member
      · exact fun c inside => absurd inside List.not_mem_nil
      · exact ih member
    · rename_i inside
      cases split : pieces separates rest with
      | nil => exact absurd split (pieces_ne_nil separates rest)
      | cons front later =>
        simp only [split] at member ih
        rcases List.mem_cons.1 member with rfl | member
        · have front := ih List.mem_cons_self
          exact List.forall_mem_cons.2 ⟨eq_false_of_ne_true inside, front⟩
        · exact ih (List.mem_cons_of_mem _ member)

theorem mem_intercalate {α : Type} {a : α} {separator : List α} {pieces : List (List α)}
    (member : a ∈ separator.intercalate pieces) : a ∈ separator ∨ ∃ piece ∈ pieces, a ∈ piece := by
  induction pieces with
  | nil => simp at member
  | cons piece later ih =>
    cases later with
    | nil => exact .inr ⟨piece, List.mem_cons_self, by simpa using member⟩
    | cons next later =>
      rw [List.intercalate_cons_cons, List.mem_append, List.mem_append] at member
      rcases member with (first | between) | behind
      · exact .inr ⟨piece, List.mem_cons_self, first⟩
      · exact .inl between
      · refine (ih behind).imp_right ?_
        rintro ⟨other, inside, member⟩
        exact ⟨other, List.mem_cons_of_mem _ inside, member⟩

theorem infix_intercalate {α : Type} {piece separator : List α} {pieces : List (List α)}
    (listed : piece ∈ pieces) : piece <:+: separator.intercalate pieces := by
  induction pieces with
  | nil => cases listed
  | cons first later ih =>
    cases later with
    | nil =>
      obtain rfl := List.mem_singleton.1 listed
      exact ⟨[], [], by simp⟩
    | cons next later =>
      rw [List.intercalate_cons_cons]
      rcases List.mem_cons.1 listed with rfl | listed
      · exact ⟨[], separator ++ separator.intercalate (next :: later), by simp⟩
      · exact (ih listed).trans (List.suffix_append _ _).isInfix

theorem notMem_intercalate {c : Char} {separator : List Char} {pieces : List (List Char)}
    (apart : c ∉ separator) (inside : ∀ piece ∈ pieces, c ∉ piece) :
    c ∉ separator.intercalate pieces := by
  intro member
  rcases mem_intercalate member with between | ⟨piece, listed, held⟩
  · exact apart between
  · exact inside piece listed held

/-! ## Lines -/

/-- Lines hold no line feed, and with one between each two of them they are the text. -/
theorem lines_eq_iff {text : List Char} {rows : List (List Char)} :
    lines text = rows ↔
      rows ≠ [] ∧ (∀ row ∈ rows, '\n' ∉ row) ∧ ['\n'].intercalate rows = text := by
  have split : lines text = text.splitOn '\n' := pieces_eq_splitOnP _ text
  constructor
  · rintro rfl
    refine ⟨pieces_ne_nil _ _, fun row member newline => ?_, ?_⟩
    · exact absurd (not_separates_of_mem_pieces member '\n' newline) (by decide)
    · rw [split, List.intercalate_splitOn]
  · rintro ⟨nonempty, unbroken, rfl⟩
    rw [split, List.splitOn_intercalate '\n' unbroken nonempty]

theorem lines_append_newline (front rest : List Char) :
    lines (front ++ '\n' :: rest) = lines front ++ lines rest := by
  simp only [lines, pieces_eq_splitOnP]
  exact List.splitOnP_append_cons front rest rfl

theorem lines_eq_singleton {line : List Char} (unbroken : '\n' ∉ line) : lines line = [line] := by
  rw [lines, pieces_eq_splitOnP, List.splitOnP_eq_singleton]
  intro c member
  exact beq_eq_false_iff_ne.2 fun newline => unbroken (newline ▸ member)

theorem lines_of_ended {ended : List (List Char)} (unbroken : ∀ line ∈ ended, '\n' ∉ line) :
    lines (ended.flatMap (· ++ ['\n'])) = ended ++ [[]] := by
  induction ended with
  | nil => rfl
  | cons line later ih =>
    obtain ⟨first, others⟩ := List.forall_mem_cons.1 unbroken
    rw [List.flatMap_cons, List.append_assoc, List.singleton_append, lines_append_newline,
      lines_eq_singleton first, ih others]
    rfl

/-! ## Words -/

def IsWord (word : List Char) : Prop := word ≠ [] ∧ ∀ c ∈ word, isBlank c = false

theorem isWord_iff {word : List Char} : word ≠ [] ∧ word.all (!isBlank ·) ↔ IsWord word := by
  simp [IsWord]

-- Only the characters of the word are looked at, not all that there are.
instance (word : List Char) : Decidable (IsWord word) := decidable_of_iff _ isWord_iff

theorem IsWord.newline_notMem {word : List Char} (isWord : IsWord word) : '\n' ∉ word :=
  fun member => Bool.noConfusion (isWord.2 '\n' member)

theorem isWord_of_mem_words {text word : List Char} (member : word ∈ words text) : IsWord word := by
  obtain ⟨piece, nonempty⟩ := List.mem_filter.1 member
  refine ⟨fun empty => ?_, not_separates_of_mem_pieces piece⟩
  simp [empty] at nonempty

theorem words_append_blank {c : Char} (blank : isBlank c = true) (front rest : List Char) :
    words (front ++ c :: rest) = words front ++ words rest := by
  simp only [words, pieces_eq_splitOnP, List.splitOnP_append_cons front rest blank,
    List.filter_append]

theorem words_blank_cons {c : Char} (blank : isBlank c = true) (text : List Char) :
    words (c :: text) = words text :=
  words_append_blank blank [] text

theorem words_append_singleton {c : Char} (blank : isBlank c = true) (text : List Char) :
    words (text ++ [c]) = words text := by
  rw [words_append_blank blank]
  exact List.append_nil _

theorem IsWord.words_eq {word : List Char} (isWord : IsWord word) : words word = [word] := by
  rw [words, pieces_eq_splitOnP, List.splitOnP_eq_singleton isWord.2]
  simp [isWord.1]

theorem IsWord.words_append {word text : List Char} (isWord : IsWord word)
    (apart : ∀ c ∈ text.head?, isBlank c = true) : words (word ++ text) = word :: words text := by
  cases text with
  | nil =>
    rw [List.append_nil, isWord.words_eq]
    rfl
  | cons c text =>
    have blank := apart c rfl
    rw [words_append_blank blank, isWord.words_eq, words_blank_cons blank]
    rfl

/-- A text that consists of these words, at least one blank between each two, and other blanks. -/
inductive Spaced : List (List Char) → List Char → Prop where
  | nil : Spaced [] []
  | blank {c : Char} {words : List (List Char)} {text : List Char} :
      isBlank c = true → Spaced words text → Spaced words (c :: text)
  | word {word : List Char} {words : List (List Char)} {text : List Char} :
      IsWord word → (∀ c ∈ text.head?, isBlank c = true) → Spaced words text →
      Spaced (word :: words) (word ++ text)

theorem Spaced.words_eq {separate : List (List Char)} {text : List Char}
    (spaced : Spaced separate text) : words text = separate := by
  induction spaced with
  | nil => rfl
  | blank blank _ ih => rw [words_blank_cons blank, ih]
  | word isWord apart _ ih => rw [isWord.words_append apart, ih]

theorem exists_spaced (text : List Char) : ∃ separate, Spaced separate text := by
  induction text with
  | nil => exact ⟨[], .nil⟩
  | cons c text ih =>
    obtain ⟨separate, spaced⟩ := ih
    cases blank : isBlank c with
    | true => exact ⟨separate, .blank blank spaced⟩
    | false =>
      -- The character makes a word longer that begins the text; else it is a word of its own.
      have alone : IsWord [c] := ⟨List.cons_ne_nil _ _, by simpa using blank⟩
      cases spaced with
      | nil => exact ⟨[[c]], .word alone nofun .nil⟩
      | blank nextBlank spaced =>
        exact ⟨[c] :: separate, .word alone (by simpa using nextBlank) (.blank nextBlank spaced)⟩
      | @word word separate text isWord apart spaced =>
        have longer : IsWord (c :: word) :=
          ⟨List.cons_ne_nil _ _, List.forall_mem_cons.2 ⟨blank, isWord.2⟩⟩
        exact ⟨(c :: word) :: separate, .word longer apart spaced⟩

theorem words_eq_iff_spaced {text : List Char} {separate : List (List Char)} :
    words text = separate ↔ Spaced separate text := by
  constructor
  · rintro rfl
    obtain ⟨separate, spaced⟩ := exists_spaced text
    rwa [spaced.words_eq]
  · exact Spaced.words_eq

def Blank (text : List Char) : Prop := ∀ c ∈ text, isBlank c = true

instance (text : List Char) : Decidable (Blank text) :=
  decidable_of_iff (text.all isBlank = true) List.all_eq_true

theorem words_eq_nil_iff {text : List Char} : words text = [] ↔ Blank text := by
  rw [words_eq_iff_spaced]
  induction text with
  | nil => exact iff_of_true .nil nofun
  | cons c text ih =>
    refine Iff.trans ⟨fun spaced => ?_, fun all => ?_⟩ List.forall_mem_cons.symm
    · cases spaced with
      | blank blank spaced => exact ⟨blank, ih.1 spaced⟩
    · exact .blank all.1 (ih.2 all.2)

theorem words_intercalate {separate : List (List Char)}
    (areWords : ∀ word ∈ separate, IsWord word) :
    words ([' '].intercalate separate) = separate := by
  induction separate with
  | nil => rfl
  | cons word later ih =>
    obtain ⟨first, others⟩ := List.forall_mem_cons.1 areWords
    cases later with
    | nil => simpa using first.words_eq
    | cons next later =>
      rw [List.intercalate_cons_cons, List.append_assoc, List.singleton_append,
        words_append_blank rfl, first.words_eq, ih others]
      rfl

theorem newline_notMem_intercalate {separate : List (List Char)}
    (areWords : ∀ word ∈ separate, IsWord word) : '\n' ∉ [' '].intercalate separate :=
  notMem_intercalate (by decide) fun word member => (areWords word member).newline_notMem

end SchemaWire.Text
