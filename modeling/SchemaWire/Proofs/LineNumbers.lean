import Mathlib.Data.List.Induction
import SchemaWire.Proofs.SchemaLine

/-! Schema text is read part by part, and a fault is told by the number of its line.

A text that ends with its last line can be read apart from what follows it: nothing but the line
numbers tells that it was there. Which definitions are read depends on the words of the lines alone,
so blank lines and the carriage returns of line ends do not count.
-/

set_option autoImplicit false

namespace SchemaWire

namespace Text

/-! ## Lines of two texts -/

theorem length_lines (text : List Char) : (lines text).length = text.count '\n' + 1 := by
  induction text with
  | nil => rfl
  | cons c rest ih =>
    by_cases newline : c = '\n'
    · subst newline
      have first : lines ('\n' :: rest) = [] :: lines rest := rfl
      rw [first, List.length_cons, ih, List.count_cons_self]
    · have same : (lines (c :: rest)).length = (lines rest).length := by
        simp [lines, pieces_eq_splitOnP, List.splitOnP_cons_eq_if_modifyHead, newline]
      rw [same, ih, List.count_cons_of_ne newline]

theorem intercalate_concat (rows : List (List Char)) (last back : List Char) :
    ['\n'].intercalate (rows ++ [last]) ++ back = ['\n'].intercalate (rows ++ [last ++ back]) := by
  induction rows with
  | nil => simp
  | cons row rows ih =>
    simp only [List.cons_append]
    rw [List.intercalate_cons_of_ne_nil (by simp), List.intercalate_cons_of_ne_nil (by simp), ← ih]
    simp only [List.append_assoc]

theorem exists_last_line (front : List Char) :
    ∃ rows last, lines front = rows ++ [last] ∧
      ∀ back, '\n' ∉ back → lines (front ++ back) = rows ++ [last ++ back] := by
  rcases List.eq_nil_or_concat (lines front) with none | ⟨rows, last, cut⟩
  · exact absurd none (pieces_ne_nil _ front)
  · rw [List.concat_eq_append] at cut
    refine ⟨rows, last, cut, fun back unbroken => ?_⟩
    obtain ⟨-, inside, rfl⟩ := lines_eq_iff.1 cut
    refine lines_eq_iff.2 ⟨by simp, ?_, (intercalate_concat rows last back).symm⟩
    obtain ⟨others, lastInside⟩ := List.forall_mem_append.1 inside
    refine List.forall_mem_append.2 ⟨others, ?_⟩
    simpa [unbroken] using lastInside

/-- Text behind which a new line begins. -/
def Ended (text : List Char) : Prop := text = [] ∨ text.getLast? = some '\n'

instance (text : List Char) : Decidable (Ended text) := inferInstanceAs (Decidable (_ ∨ _))

theorem Ended.exists_lines {front : List Char} (ended : Ended front) :
    ∃ rows : List (List Char), rows.length = front.count '\n' ∧
      ∀ back, lines (front ++ back) = rows ++ lines back := by
  rcases ended with rfl | ends
  · exact ⟨[], rfl, fun back => rfl⟩
  · obtain ⟨text, rfl⟩ := List.getLast?_eq_some_iff.1 ends
    refine ⟨lines text, ?_, fun back => ?_⟩
    · rw [length_lines, List.count_append]
      rfl
    · rw [List.append_assoc, List.singleton_append, lines_append_newline]

/-! ## Words of lines -/

/-- A blank that ends no line leaves the words of each line as they are. -/
theorem map_words_lines_append {c : Char} (blank : isBlank c = true) (inside : c ≠ '\n')
    (front : List Char) : (lines (front ++ [c])).map words = (lines front).map words := by
  obtain ⟨rows, last, cut, longer⟩ := exists_last_line front
  rw [longer [c] (by simpa using inside.symm), cut, List.map_append, List.map_append,
    List.map_singleton, List.map_singleton, words_append_singleton blank]

theorem map_words_lines_carriage (front back : List Char) :
    (lines (front ++ '\r' :: '\n' :: back)).map words =
      (lines (front ++ '\n' :: back)).map words := by
  rw [List.append_cons, lines_append_newline, lines_append_newline, List.map_append,
    List.map_append, map_words_lines_append rfl (by decide)]

/-- Texts that differ in nothing but carriage returns in front of line feeds. -/
inductive EndsAlike : List Char → List Char → Prop where
  | nil : EndsAlike [] []
  | cons (c : Char) {first second : List Char} :
      EndsAlike first second → EndsAlike (c :: first) (c :: second)
  | more {first second : List Char} :
      EndsAlike first second → EndsAlike ('\r' :: '\n' :: first) ('\n' :: second)
  | fewer {first second : List Char} :
      EndsAlike first second → EndsAlike ('\n' :: first) ('\r' :: '\n' :: second)

theorem EndsAlike.refl (text : List Char) : EndsAlike text text := by
  induction text with
  | nil => exact .nil
  | cons c text ih => exact .cons c ih

-- The words of a line are not those of its rest, so the induction carries what is in front.
theorem EndsAlike.map_words_lines {first second : List Char} (alike : EndsAlike first second)
    (front : List Char) :
    (lines (front ++ first)).map words = (lines (front ++ second)).map words := by
  induction alike generalizing front with
  | nil => rfl
  | @cons c first second _ ih =>
    rw [List.append_cons, List.append_cons front c second]
    exact ih (front ++ [c])
  | @more first second _ ih =>
    rw [map_words_lines_carriage, List.append_cons, List.append_cons front _ second]
    exact ih (front ++ ['\n'])
  | @fewer first second _ ih =>
    rw [map_words_lines_carriage, List.append_cons, List.append_cons front _ second]
    exact ih (front ++ ['\n'])

end Text

def ParseError.below (error : ParseError) (lines : Nat) : ParseError :=
  ⟨error.line + lines, error.cause⟩

namespace SchemaText

/-! ## Numbers -/

theorem parseLine_add (number lines : Nat) (text : List Char) :
    parseLine (number + lines) text = (parseLine number text).mapError (·.below lines) := by
  unfold parseLine
  cases definitionOfWords (Text.words text) <;> rfl

theorem parseLines_add (number lines : Nat) (texts : List (List Char)) :
    parseLines (number + lines) texts = (parseLines number texts).mapError (·.below lines) := by
  induction texts generalizing number with
  | nil => rfl
  | cons text later ih =>
    have next : parseLines (number + lines + 1) later =
        (parseLines (number + 1) later).mapError (·.below lines) := by
      rw [Nat.add_right_comm, ih]
    rw [parseLines, parseLines, next, parseLine_add]
    split
    · rfl
    · cases parseLine number text with
      | error fault => rfl
      | ok definition => cases parseLines (number + 1) later <;> rfl

/-! ## Parts -/

theorem parseLines_append (number : Nat) (front back : List (List Char)) :
    parseLines number (front ++ back) = do
      let first ← parseLines number front
      let later ← parseLines (number + front.length) back
      return first ++ later := by
  induction front generalizing number with
  | nil => cases read : parseLines number back <;> simp [parseLines, read] <;> rfl
  | cons text front ih =>
    have next : number + 1 + front.length = number + (text :: front).length := by
      rw [List.length_cons]
      omega
    rw [List.cons_append, parseLines, parseLines, ih, next]
    split
    · rfl
    · simp only [bind_assoc, pure_bind, List.cons_append]

theorem parseLines_concat_nil (number : Nat) (texts : List (List Char)) :
    parseLines number (texts ++ [[]]) = parseLines number texts := by
  have empty : parseLines (number + texts.length) [[]] = .ok [] := rfl
  rw [parseLines_append, empty]
  cases parseLines number texts with
  | error error => rfl
  | ok definitions => exact congrArg Except.ok (List.append_nil definitions)

variable {front blank : String}

/-- A text is read after another as it is read alone, but for the numbers of its lines. -/
theorem parse_append (ended : Text.Ended front.toList) (back : String) :
    parse (front ++ back) = do
      let first ← parse front
      let later ← (parse back).mapError (·.below (front.toList.count '\n'))
      return first ++ later := by
  obtain ⟨rows, counted, cut⟩ := ended.exists_lines
  have whole : Text.lines front.toList = rows ++ [[]] := by
    rw [← List.append_nil front.toList]
    exact cut []
  rw [parse, parse, parse, String.toList_append, cut, whole, parseLines_append,
    parseLines_concat_nil, counted, parseLines_add]

/-! ## Blanks -/

theorem parseLines_congr {texts others : List (List Char)}
    (same : texts.map Text.words = others.map Text.words) (number : Nat) :
    parseLines number texts = parseLines number others := by
  induction texts generalizing others number with
  | nil => rw [List.map_eq_nil_iff.1 same.symm]
  | cons text later ih =>
    obtain ⟨other, others, rfl, words, rest⟩ := List.map_eq_cons_iff.1 same.symm
    rw [parseLines, parseLines, parseLine, parseLine, words, ih rest.symm]

theorem parseLines_append_blank {blank : List Char} (blanks : Text.Blank blank) (number : Nat)
    (front : List Char) :
    parseLines number (Text.lines (front ++ blank)) = parseLines number (Text.lines front) := by
  induction blank using List.reverseRecOn with
  | nil => rw [List.append_nil]
  | append_singleton blank c ih =>
    obtain ⟨others, last⟩ := List.forall_mem_append.1 blanks
    rw [← ih others, ← List.append_assoc]
    -- A line feed adds an empty line; any other blank stands on the last line there is.
    by_cases newline : c = '\n'
    · subst newline
      rw [Text.lines_append_newline]
      exact parseLines_concat_nil number _
    · have blank : Text.isBlank c = true := last c List.mem_cons_self
      exact parseLines_congr (Text.map_words_lines_append blank newline _) number

theorem parse_append_blank (blanks : Text.Blank blank.toList) (front : String) :
    parse (front ++ blank) = parse front := by
  rw [parse, String.toList_append]
  exact parseLines_append_blank blanks 1 front.toList

theorem parse_blank (blanks : Text.Blank blank.toList) : parse blank = .ok [] := by
  have alone := parse_append_blank blanks ""
  rw [String.empty_append] at alone
  exact alone

theorem cause_parse_blank_between (ended : Text.Ended front.toList)
    (blankEnded : Text.Ended blank.toList) (blanks : Text.Blank blank.toList) (back : String) :
    (parse (front ++ (blank ++ back))).mapError ParseError.cause =
      (parse (front ++ back)).mapError ParseError.cause := by
  rw [parse_append ended, parse_append ended, parse_append blankEnded, parse_blank blanks]
  cases parse front with
  | error error => rfl
  | ok first => cases parse back <;> rfl

theorem parse_of_endsAlike {first second : String}
    (alike : Text.EndsAlike first.toList second.toList) : parse first = parse second :=
  parseLines_congr (alike.map_words_lines []) 1

/-! ## Faults -/

def Sound (line : List Char) : Prop :=
  Text.Blank line ∨ ∃ definition, ∀ number, parseLine number line = .ok definition

def Faulty (line : List Char) (cause : LineError) : Prop :=
  ¬ Text.Blank line ∧ ∀ number, parseLine number line = .error ⟨number, cause⟩

theorem sound_or_faulty (line : List Char) : Sound line ∨ ∃ cause, Faulty line cause := by
  by_cases blank : Text.Blank line
  · exact .inl (.inl blank)
  · cases read : definitionOfWords (Text.words line) with
    | error cause => exact .inr ⟨cause, blank, fun number => by rw [parseLine, read]; rfl⟩
    | ok definition => exact .inl (.inr ⟨definition, fun number => by rw [parseLine, read]; rfl⟩)

theorem exists_parseLines_of_sound {texts : List (List Char)} (sound : ∀ line ∈ texts, Sound line)
    (number : Nat) : ∃ definitions, parseLines number texts = .ok definitions := by
  induction texts generalizing number with
  | nil => exact ⟨[], rfl⟩
  | cons line later ih =>
    obtain ⟨first, others⟩ := List.forall_mem_cons.1 sound
    obtain ⟨definitions, rest⟩ := ih others (number + 1)
    rw [parseLines, rest]
    split
    · exact ⟨definitions, rfl⟩
    · rename_i written
      rcases first with blank | ⟨definition, read⟩
      · rw [List.isEmpty_iff, Text.words_eq_nil_iff] at written
        exact absurd blank written
      · rw [read number]
        exact ⟨definition :: definitions, rfl⟩

theorem parseLines_of_faulty {line : List Char} {cause : LineError} (faulty : Faulty line cause)
    (number : Nat) (later : List (List Char)) :
    parseLines number (line :: later) = .error ⟨number, cause⟩ := by
  have written : ¬ (Text.words line).isEmpty = true := by
    rw [List.isEmpty_iff, Text.words_eq_nil_iff]
    exact faulty.1
  rw [parseLines, if_neg written, faulty.2 number]
  rfl

theorem parseLines_eq_error_iff {number : Nat} {texts : List (List Char)} {error : ParseError} :
    parseLines number texts = .error error ↔
      ∃ earlier line later, texts = earlier ++ line :: later ∧ (∀ line ∈ earlier, Sound line) ∧
        Faulty line error.cause ∧ error.line = number + earlier.length := by
  constructor
  · intro failed
    induction texts generalizing number with
    | nil => cases failed
    | cons line later ih =>
      rcases sound_or_faulty line with sound | ⟨cause, faulty⟩
      · obtain ⟨definitions, read⟩ :=
          exists_parseLines_of_sound (List.forall_mem_singleton.2 sound) number
        have split := parseLines_append number [line] later
        rw [List.singleton_append, failed, read, Outcome.ok_bind] at split
        rcases Outcome.bind_eq_error_iff.1 split.symm with rest | ⟨others, -, done⟩
        · obtain ⟨earlier, faulty, later, rfl, others, fault, numbered⟩ := ih rest
          refine ⟨line :: earlier, faulty, later, rfl, List.forall_mem_cons.2 ⟨sound, others⟩,
            fault, numbered.trans ?_⟩
          simp only [List.length_cons, List.length_nil]
          omega
        · exact absurd done (Outcome.pure_ne_error _ _)
      · rw [parseLines_of_faulty faulty] at failed
        cases failed
        exact ⟨[], line, later, rfl, nofun, faulty, rfl⟩
  · rintro ⟨earlier, line, later, rfl, sound, faulty, numbered⟩
    obtain ⟨definitions, read⟩ := exists_parseLines_of_sound sound number
    rw [parseLines_append, read, parseLines_of_faulty faulty, ← numbered]
    rfl

theorem parse_eq_error_iff {text : String} {error : ParseError} :
    parse text = .error error ↔
      ∃ earlier line later, ['\n'].intercalate (earlier ++ line :: later) = text.toList ∧
        (∀ row ∈ earlier ++ line :: later, '\n' ∉ row) ∧ (∀ row ∈ earlier, Sound row) ∧
        Faulty line error.cause ∧ error.line = earlier.length + 1 := by
  rw [parse, parseLines_eq_error_iff]
  constructor
  · rintro ⟨earlier, line, later, cut, sound, faulty, numbered⟩
    obtain ⟨-, unbroken, joined⟩ := Text.lines_eq_iff.1 cut
    exact ⟨earlier, line, later, joined, unbroken, sound, faulty, by omega⟩
  · rintro ⟨earlier, line, later, joined, unbroken, sound, faulty, numbered⟩
    have cut := Text.lines_eq_iff.2 ⟨by simp, unbroken, joined⟩
    exact ⟨earlier, line, later, cut, sound, faulty, by omega⟩

/-- Text is read line by line. Behind a text whose last line is ended, another one is read as it is
read alone, with the lines in front counted in. Blank lines may stand anywhere and lines may end in
either way. The number of a fault is that of the first line that is neither blank nor a definition,
with all the lines of the text counted. -/
theorem parse_line_by_line :
    (∀ front back : String, Text.Ended front.toList →
      (∀ error, parse front = .error error → parse (front ++ back) = .error error) ∧
      (∀ first later, parse front = .ok first → parse back = .ok later →
        parse (front ++ back) = .ok (first ++ later)) ∧
      ∀ first error, parse front = .ok first → parse back = .error error →
        parse (front ++ back) = .error ⟨error.line + front.toList.count '\n', error.cause⟩) ∧
    (∀ front blank back : String, Text.Blank blank.toList →
      Text.Ended front.toList ∧ Text.Ended blank.toList ∨ back = "" →
      (parse (front ++ blank ++ back)).mapError ParseError.cause =
        (parse (front ++ back)).mapError ParseError.cause) ∧
    (∀ first second : String, Text.EndsAlike first.toList second.toList →
      parse first = parse second) ∧
    ∀ text error, parse text = .error error ↔
      ∃ earlier line later, ['\n'].intercalate (earlier ++ line :: later) = text.toList ∧
        (∀ row ∈ earlier ++ line :: later, '\n' ∉ row) ∧ (∀ row ∈ earlier, Sound row) ∧
        Faulty line error.cause ∧ error.line = earlier.length + 1 := by
  refine ⟨fun front back ended => ?_, ?_, fun first second => parse_of_endsAlike,
    fun text error => parse_eq_error_iff⟩
  · have parts := parse_append ended back
    refine ⟨?_, ?_, ?_⟩
    · intro error failed
      rw [parts, failed]
      rfl
    · intro first later read rest
      rw [parts, read, rest]
      rfl
    · intro first error read failed
      rw [parts, read, failed]
      rfl
  · rintro front blank back blanks (⟨ended, blankEnded⟩ | rfl)
    · rw [String.append_assoc]
      exact cause_parse_blank_between ended blankEnded blanks back
    · rw [String.append_empty, String.append_empty, parse_append_blank blanks]

/-- A fault on the second line of a text stays there whatever is behind it, and two lines in front
make it the fourth. Two blank lines more do not change what the fault is. -/
theorem parse_line_by_line_bits :
    let front := "Bit: Builtin Bool\r\n\n"
    let blank := "\u3000\t\r\n\n"
    let back := "\nBits List Bit\n"
    let bit : Definition := ⟨"Bit", .builtin .bool⟩
    Text.Ended front.toList ∧ Text.Ended blank.toList ∧ Text.Blank blank.toList ∧
    parse front = .ok [bit] ∧ parse (front ++ front) = .ok [bit, bit] ∧
    parse back = .error ⟨2, .badName⟩ ∧ parse (back ++ front) = .error ⟨2, .badName⟩ ∧
    parse (front ++ back) = .error ⟨4, .badName⟩ ∧
    (parse (front ++ blank ++ back)).mapError ParseError.cause = .error .badName ∧
    parse "\r\nBits List Bit\n" = .error ⟨2, .badName⟩ := by
  intro front blank back bit
  obtain ⟨parts, gaps, ends, -⟩ := parse_line_by_line
  have frontEnded : Text.Ended front.toList := by decide
  have blankEnded : Text.Ended blank.toList := by decide
  have blanks : Text.Blank blank.toList := by decide
  have read : parse front = .ok [bit] := by decide
  have failed : parse back = .error ⟨2, .badName⟩ := by decide
  obtain ⟨-, twice, below⟩ := parts front back frontEnded
  have counted : front.toList.count '\n' = 2 := by decide
  have moved : parse (front ++ back) = .error ⟨4, .badName⟩ := by
    rw [below _ _ read failed, counted]
  have gap := gaps front blank back blanks (.inl ⟨frontEnded, blankEnded⟩)
  rw [moved] at gap
  have alike : Text.EndsAlike "\r\nBits List Bit\n".toList back.toList := by
    have first : "\r\nBits List Bit\n".toList = '\r' :: '\n' :: "Bits List Bit\n".toList := by
      decide
    have second : back.toList = '\n' :: "Bits List Bit\n".toList := by decide
    rw [first, second]
    exact .more (.refl _)
  refine ⟨frontEnded, blankEnded, blanks, read, ?_, failed, ?_, moved, gap, ?_⟩
  · exact (parts front front frontEnded).2.1 _ _ read read
  · exact (parts back front (by decide)).1 _ failed
  · exact (ends _ _ alike).trans failed

end SchemaText

end SchemaWire
