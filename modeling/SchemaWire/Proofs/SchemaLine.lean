import SchemaWire.Proofs.Outcome
import SchemaWire.Proofs.Words
import SchemaWire.Schema.Text

/-! Which schema text is read as which definitions.

A line is read as a definition just when it holds the words that the definition prints, whatever
white space is around them. A definition whose own line is read back is called writable; the reader
returns no others.
-/

set_option autoImplicit false

namespace SchemaWire

/-! ## Keywords -/

namespace Kind

theorem isWord_keyword (kind : Kind) : Text.IsWord kind.keyword.toList := by
  cases kind <;> decide

theorem keyword_of_ofKeyword? {word : String} {kind : Kind} (found : ofKeyword? word = some kind) :
    kind.keyword = word := by
  simpa using List.find?_some found

end Kind

namespace Representation

theorem isWord_keyword (representation : Representation) :
    Text.IsWord representation.keyword.toList := by
  cases representation <;> decide

theorem keyword_of_ofKeyword? {word : String} {representation : Representation}
    (found : ofKeyword? word = some representation) : representation.keyword = word := by
  simpa using List.find?_some found

end Representation

/-! ## References -/

namespace TypeRef

/-- A name that stands for a type is a word, and not the one that stands for the self reference. -/
def Writable : TypeRef → Prop
  | named name => Text.IsWord name.toList ∧ name ≠ selfWord
  | self => True

instance : DecidablePred Writable
  | named _ => inferInstanceAs (Decidable (_ ∧ _))
  | self => isTrue trivial

@[simp] theorem text_ofWord (word : String) : (ofWord word).text = word := by
  unfold ofWord
  split
  · rename_i same
    exact same.symm
  · rfl

theorem ofWord_text {reference : TypeRef} (writable : reference.Writable) :
    ofWord reference.text = reference := by
  cases reference with
  | named name => exact if_neg writable.2
  | self => exact if_pos rfl

theorem writable_ofWord {word : String} (isWord : Text.IsWord word.toList) :
    (ofWord word).Writable := by
  unfold ofWord
  split
  · trivial
  · rename_i other
    exact ⟨isWord, other⟩

theorem isWord_text {reference : TypeRef} (writable : reference.Writable) :
    Text.IsWord reference.text.toList := by
  cases reference with
  | named name => exact writable.1
  | self => decide

theorem map_ofWord_text {references : List TypeRef}
    (writable : ∀ reference ∈ references, reference.Writable) :
    (references.map text).map ofWord = references := by
  rw [List.map_map]
  calc references.map (ofWord ∘ text) = references.map id :=
        List.map_congr_left fun reference member => ofWord_text (writable reference member)
    _ = references := List.map_id references

theorem map_text_ofWord (words : List String) : (words.map ofWord).map text = words := by
  simp [Function.comp_def]

theorem writable_map_ofWord {words : List String}
    (areWords : ∀ word ∈ words, Text.IsWord word.toList) :
    ∀ reference ∈ words.map ofWord, reference.Writable := by
  intro reference member
  obtain ⟨word, inside, rfl⟩ := List.mem_map.1 member
  exact writable_ofWord (areWords word inside)

end TypeRef

/-! ## Shapes -/

structure Shape.Writable (shape : Shape) : Prop where
  references : ∀ reference ∈ shape.references, reference.Writable
  populated : shape.kind = .record ∨ shape.kind = .enum → shape.references ≠ []

instance (shape : Shape) : Decidable shape.Writable :=
  decidable_of_iff (_ ∧ _) ⟨fun parts => ⟨parts.1, parts.2⟩,
    fun writable => ⟨writable.references, writable.populated⟩⟩

theorem Shape.Writable.arguments {shape : Shape} (writable : shape.Writable) :
    ∀ word ∈ shape.arguments, Text.IsWord word.toList := by
  intro word member
  have ofReference : word ∈ shape.references.map TypeRef.text → Text.IsWord word.toList := by
    intro member
    obtain ⟨reference, inside, rfl⟩ := List.mem_map.1 member
    exact TypeRef.isWord_text (writable.references reference inside)
  cases shape with
  | builtin representation =>
    obtain rfl := List.mem_singleton.1 member
    exact representation.isWord_keyword
  | singleton | record | enum | list => exact ofReference member

namespace SchemaText

theorem writable_of_shapeOf {kind : Kind} {arguments : List String} {shape : Shape}
    (areWords : ∀ word ∈ arguments, Text.IsWord word.toList)
    (read : shapeOf kind arguments = .ok shape) :
    shape.Writable ∧ shape.kind = kind ∧ shape.arguments = arguments := by
  have writable := TypeRef.writable_map_ofWord areWords
  have same := TypeRef.map_text_ofWord arguments
  unfold shapeOf at read
  split at read
  · cases read
    exact ⟨⟨nofun, by simp [Shape.kind]⟩, rfl, rfl⟩
  · cases read
    exact ⟨⟨writable, fun _ => List.cons_ne_nil _ _⟩, rfl, same⟩
  · cases read
    exact ⟨⟨writable, fun _ => List.cons_ne_nil _ _⟩, rfl, same⟩
  · cases read
    exact ⟨⟨writable, fun _ => List.cons_ne_nil _ _⟩, rfl, same⟩
  · split at read
    · rename_i found
      cases read
      rw [← Representation.keyword_of_ofKeyword? found]
      exact ⟨⟨nofun, by simp [Shape.kind]⟩, rfl, rfl⟩
    · cases read
  · cases read

theorem shapeOf_arguments {shape : Shape} (writable : shape.Writable) :
    shapeOf shape.kind shape.arguments = .ok shape := by
  have same := TypeRef.map_ofWord_text writable.references
  cases shape with
  | singleton => rfl
  | record fields =>
    obtain ⟨first, rest, rfl⟩ := List.exists_cons_of_ne_nil (writable.populated (.inl rfl))
    exact congrArg (Except.ok ∘ Shape.record) same
  | enum cases =>
    obtain ⟨first, rest, rfl⟩ := List.exists_cons_of_ne_nil (writable.populated (.inr rfl))
    exact congrArg (Except.ok ∘ Shape.enum) same
  | list element =>
    exact congrArg (Except.ok ∘ Shape.list) (List.singleton_inj.1 same)
  | builtin representation => cases representation <;> rfl

end SchemaText

/-! ## Definitions -/

/-- A definition whose line is read back: its name is a word without a colon, and its shape can be
written. -/
structure Definition.Writable (definition : Definition) : Prop where
  name : Text.IsWord definition.name.toList
  colonless : ':' ∉ definition.name.toList
  shape : definition.shape.Writable

instance (definition : Definition) : Decidable definition.Writable :=
  decidable_of_iff (_ ∧ _ ∧ _) ⟨fun parts => ⟨parts.1, parts.2.1, parts.2.2⟩,
    fun writable => ⟨writable.name, writable.colonless, writable.shape⟩⟩

theorem Definition.Writable.words {definition : Definition} (writable : definition.Writable) :
    ∀ word ∈ definition.words, Text.IsWord word.toList := by
  intro word member
  rcases List.mem_cons.1 member with rfl | member
  · rw [String.toList_append]
    refine ⟨by simp, fun c inside => ?_⟩
    rcases List.mem_append.1 inside with inside | colon
    · exact writable.name.2 c inside
    · obtain rfl := List.mem_singleton.1 colon
      rfl
  · rcases List.mem_cons.1 member with rfl | member
    · exact definition.kind.isWord_keyword
    · exact writable.shape.arguments word member

theorem Definition.toList_text (definition : Definition) :
    definition.text.toList = [' '].intercalate (definition.words.map String.toList) :=
  String.toList_intercalate

theorem Definition.Writable.words_text {definition : Definition} (writable : definition.Writable) :
    Text.words definition.text.toList = definition.words.map String.toList := by
  rw [definition.toList_text]
  exact Text.words_intercalate (List.forall_mem_map.2 writable.words)

theorem Definition.Writable.newline_notMem_text {definition : Definition}
    (writable : definition.Writable) : '\n' ∉ definition.text.toList := by
  rw [definition.toList_text]
  exact Text.newline_notMem_intercalate (List.forall_mem_map.2 writable.words)

namespace SchemaText

theorem nameOfWord?_eq_some_iff {word : List Char} {name : String} :
    nameOfWord? word = some name ↔
      word = (name ++ ":").toList ∧ name.toList ≠ [] ∧ ':' ∉ name.toList := by
  constructor
  · intro found
    unfold nameOfWord? at found
    split at found
    · rename_i ends
      obtain ⟨front, rfl⟩ := List.getLast?_eq_some_iff.1 ends
      simp only [List.dropLast_concat, Option.ite_none_left_eq_some, Option.some.injEq] at found
      obtain ⟨usable, rfl⟩ := found
      simpa [String.toList_append] using usable
    · cases found
  · rintro ⟨rfl, nonempty, colonless⟩
    simp [nameOfWord?, nonempty, colonless]

theorem writable_of_definitionOfWords {words : List (List Char)} {definition : Definition}
    (areWords : ∀ word ∈ words, Text.IsWord word)
    (read : definitionOfWords words = .ok definition) :
    definition.Writable ∧ definition.words.map String.toList = words := by
  unfold definitionOfWords at read
  split at read
  · cases read
  · rename_i first rest
    split at read
    · cases read
    · cases read
    · rename_i name keyword arguments named listed
      split at read
      · cases read
      · rename_i kind found
        obtain ⟨shape, shaped, same⟩ := Outcome.bind_eq_ok_iff.1 read
        cases same
        have restored : rest = (keyword :: arguments).map String.toList := by
          simp [← listed, Function.comp_def]
        subst restored
        obtain ⟨firstWord, restWords⟩ := List.forall_mem_cons.1 areWords
        have argumentWords := (List.forall_mem_cons.1 (List.forall_mem_map.1 restWords)).2
        obtain ⟨writable, rfl, rfl⟩ := writable_of_shapeOf argumentWords shaped
        obtain ⟨rfl, nonempty, colonless⟩ := nameOfWord?_eq_some_iff.1 named
        have nameWord : Text.IsWord name.toList :=
          ⟨nonempty, fun c inside => firstWord.2 c (by simp [inside])⟩
        refine ⟨⟨nameWord, colonless, writable⟩, ?_⟩
        rw [← Kind.keyword_of_ofKeyword? found]
        rfl

theorem definitionOfWords_words {definition : Definition} (writable : definition.Writable) :
    definitionOfWords (definition.words.map String.toList) = .ok definition := by
  have named : nameOfWord? (definition.name ++ ":").toList = some definition.name :=
    nameOfWord?_eq_some_iff.2 ⟨rfl, writable.name.1, writable.colonless⟩
  have shaped : shapeOf definition.kind definition.shape.arguments = .ok definition.shape :=
    shapeOf_arguments writable.shape
  simp only [Definition.words, List.map_cons, definitionOfWords, named, List.map_map,
    Function.comp_def, String.ofList_toList, List.map_id_fun', id_eq, Kind.ofKeyword?_keyword,
    shaped]
  rfl

/-- A line is read as a definition just when the definition is writable and its words are those of
the line. -/
theorem parseLine_eq_ok_iff {line : Nat} {text : List Char} {definition : Definition} :
    parseLine line text = .ok definition ↔
      definition.Writable ∧ definition.words.map String.toList = Text.words text := by
  rw [parseLine, Outcome.mapError_eq_ok_iff]
  constructor
  · exact writable_of_definitionOfWords fun word member => Text.isWord_of_mem_words member
  · rintro ⟨writable, same⟩
    rw [← same]
    exact definitionOfWords_words writable

/-- Reading undoes printing up to white space. Whatever is read is writable, and a definition is read
from its own line just when it is writable. It is then read from any line of the same words, which is
to say from its words with any blanks around them, and from no other line. -/
theorem parseLine_reads_spellings :
    (∀ line text definition, parseLine line text = .ok definition → definition.Writable) ∧
    (∀ line definition,
      parseLine line definition.text.toList = .ok definition ↔ definition.Writable) ∧
    (∀ line text definition, parseLine line text = .ok definition ↔
      definition.Writable ∧ Text.words text = Text.words definition.text.toList) ∧
    ∀ line text definition, parseLine line text = .ok definition ↔
      definition.Writable ∧ Text.Spaced (definition.words.map String.toList) text := by
  have spelled : ∀ line text definition, parseLine line text = .ok definition ↔
      definition.Writable ∧ Text.words text = Text.words definition.text.toList := by
    intro line text definition
    rw [parseLine_eq_ok_iff]
    refine and_congr_right fun writable => ?_
    rw [writable.words_text, eq_comm]
  refine ⟨?_, ?_, spelled, ?_⟩
  · intro line text definition read
    exact ((spelled line text definition).1 read).1
  · intro line definition
    rw [spelled]
    exact and_iff_left rfl
  · intro line text definition
    rw [parseLine_eq_ok_iff, ← Text.words_eq_iff_spaced, eq_comm]

/-- Blanks of four kinds make no difference. A named reference that is spelled like the self
reference is printed and read as that one. -/
theorem parseLine_reads_spellings_tree :
    let tree : Definition := ⟨"Tree", .record [.named "Label", .self]⟩
    let forged : Definition := ⟨"Tree", .record [.named "Label", .named "This"]⟩
    let line := "\u3000Tree:\tRecord  Label This\r".toList
    parseLine 7 line = .ok tree ∧ tree.Writable ∧ parseLine 7 tree.text.toList = .ok tree ∧
      Text.words line = Text.words tree.text.toList ∧
      forged.text = tree.text ∧ parseLine 7 forged.text.toList ≠ .ok forged := by
  intro tree forged line
  obtain ⟨sound, printed, spelled, spaced⟩ := parseLine_reads_spellings
  have same : Text.words line = Text.words tree.text.toList := by decide
  have read : parseLine 7 line = .ok tree := (spelled 7 line tree).2 ⟨by decide, same⟩
  have writable : tree.Writable := sound 7 line tree read
  refine ⟨read, writable, (printed 7 tree).2 writable, same, rfl, fun back => ?_⟩
  exact absurd ((printed 7 forged).1 back) (by decide)

/-- The lines of a text are read as definitions just when these are writable and their words are, in
this order, those of the lines that are not blank. -/
theorem parseLines_eq_ok_iff {line : Nat} {texts : List (List Char)}
    {definitions : List Definition} :
    parseLines line texts = .ok definitions ↔
      (∀ definition ∈ definitions, definition.Writable) ∧
        definitions.map (·.words.map String.toList) =
          (texts.map Text.words).filter (!·.isEmpty) := by
  induction texts generalizing line definitions with
  | nil =>
    rw [parseLines]
    constructor
    · intro read
      cases read
      exact ⟨nofun, rfl⟩
    · rintro ⟨-, empty⟩
      rw [List.map_eq_nil_iff.1 empty]
  | cons text later ih =>
    rw [parseLines, List.map_cons]
    by_cases blank : (Text.words text).isEmpty = true
    · rw [if_pos blank, ih, List.filter_cons_of_neg (by simp [blank])]
    · rw [if_neg blank, List.filter_cons_of_pos (by simp [blank])]
      constructor
      · intro read
        obtain ⟨definition, first, read⟩ := Outcome.bind_eq_ok_iff.1 read
        obtain ⟨definitions, rest, same⟩ := Outcome.bind_eq_ok_iff.1 read
        cases same
        obtain ⟨writable, words⟩ := parseLine_eq_ok_iff.1 first
        obtain ⟨othersWritable, otherWords⟩ := ih.1 rest
        refine ⟨List.forall_mem_cons.2 ⟨writable, othersWritable⟩, ?_⟩
        rw [List.map_cons, words, otherWords]
      · rintro ⟨writable, same⟩
        obtain ⟨definition, definitions, rfl, words, otherWords⟩ := List.map_eq_cons_iff.1 same
        obtain ⟨firstWritable, othersWritable⟩ := List.forall_mem_cons.1 writable
        have first : parseLine line text = .ok definition :=
          parseLine_eq_ok_iff.2 ⟨firstWritable, words⟩
        have rest : parseLines (line + 1) later = .ok definitions :=
          ih.2 ⟨othersWritable, otherWords⟩
        exact Outcome.bind_eq_ok_iff.2
          ⟨definition, first, Outcome.bind_eq_ok_iff.2 ⟨definitions, rest, rfl⟩⟩

end SchemaText

end SchemaWire
