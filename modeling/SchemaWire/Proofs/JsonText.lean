import SchemaWire.Proofs.JsonForm
import SchemaWire.Proofs.JsonLiterals
import SchemaWire.Proofs.JsonNesting

/-! Printed JSON reads back.

The text of a value on one line and its text laid out over several differ in blanks only, so they
are cut into the same tokens. From these tokens the value is put together again, wherever a value
may begin. Floating point numbers are left out: no value of a type has one in its JSON.
-/

set_option autoImplicit false

namespace SchemaWire.Json

/-! ## Texts and their tokens -/

/-- The text is cut into these tokens, whatever follows it. -/
def Cuts (text : List Char) (cut : List Token) : Prop :=
  ∀ rest, tokens (text ++ rest) = (tokens rest).map (cut ++ ·)

/-- So is a text that may end in a number, unless the number goes on. -/
def CutsValue (text : List Char) (cut : List Token) : Prop :=
  ∀ rest, NumberEnds rest → tokens (text ++ rest) = (tokens rest).map (cut ++ ·)

variable {front back : List Char} {first second : List Token}

theorem map_cut (later : Option (List Token)) :
    (later.map (second ++ ·)).map (first ++ ·) = later.map (first ++ second ++ ·) := by
  cases later <;> simp

theorem Cuts.append (cuts : Cuts front first) (more : Cuts back second) :
    Cuts (front ++ back) (first ++ second) := by
  intro rest
  rw [List.append_assoc, cuts, more, map_cut]

theorem Cuts.appendValue (cuts : Cuts front first) (more : CutsValue back second) :
    CutsValue (front ++ back) (first ++ second) := by
  intro rest ends
  rw [List.append_assoc, cuts, more rest ends, map_cut]

theorem CutsValue.append (cuts : CutsValue front first) (more : Cuts back second)
    (ends : ∃ c ∈ back.head?, endsNumber c = true) : Cuts (front ++ back) (first ++ second) := by
  intro rest
  have stops : NumberEnds (back ++ rest) := by
    obtain ⟨c, head, ends⟩ := ends
    intro other same
    rw [List.head?_append, Option.mem_def.1 head] at same
    cases same
    exact ends
  rw [List.append_assoc, cuts _ stops, more, map_cut]

theorem Cuts.value (cuts : Cuts front first) : CutsValue front first := fun rest _ => cuts rest

theorem cuts_blank {text : List Char} (blank : ∀ c ∈ text, isBlank c = true) : Cuts text [] := by
  intro rest
  induction text with
  | nil => simp
  | cons c text ih =>
    obtain ⟨here, there⟩ := List.forall_mem_cons.1 blank
    rw [List.cons_append, tokens, if_pos here, ih there]

theorem cuts_of_take {c : Char} {text : List Char} {token : Token} (visible : isBlank c = false)
    (taken : ∀ rest, Token.take (c :: text ++ rest) = some (token, rest)) :
    Cuts (c :: text) [token] := fun rest => tokens_cons visible (taken rest)

theorem cuts_quoted (text : String) : Cuts (quoted text).toList [.string text] := by
  rw [quoted, String.toList_ofList]
  refine cuts_of_take rfl fun rest => ?_
  have closed := takeString_quoted text.toList rest
  simp [Token.take, closed]

theorem isBlank_of_numeric {c : Char} (numeric : c = '-' ∨ isDigit c = true) :
    isBlank c = false := by
  by_contra blank
  simp only [isBlank, Bool.not_eq_false, Bool.or_eq_true, beq_iff_eq] at blank
  rcases blank with ((rfl | rfl) | rfl) | rfl
  all_goals exact absurd numeric (by decide)

theorem cutsValue_number {number : Number} (exact : number.Exact) :
    CutsValue number.text.toList [.number number] := by
  intro rest ends
  obtain ⟨negative, n, written, -⟩ := exact.exists_signed
  obtain ⟨c, head, numeric⟩ := numeric_signed negative n rest
  obtain ⟨tail, split⟩ := List.head?_eq_some_iff.1 head
  have taken := take_integer exact ends
  rw [written, split] at taken ⊢
  exact tokens_cons (isBlank_of_numeric numeric) taken

/-! ## The tokens of values -/

mutual

def spelling : Json → List Token
  | null => [.null]
  | bool value => [.bool value]
  | number n => [.number n]
  | string text => [.string text]
  | array items => .openArray :: [.comma].intercalate (spellingItems items) ++ [.closeArray]
  | object members =>
    .openObject :: [.comma].intercalate (spellingMembers members) ++ [.closeObject]

def spellingItems : List Json → List (List Token)
  | [] => []
  | item :: items => spelling item :: spellingItems items

def spellingMembers : List (String × Json) → List (List Token)
  | [] => []
  | (key, value) :: members =>
    (.string key :: .colon :: spelling value) :: spellingMembers members

end

theorem spellingItems_eq (items : List Json) : spellingItems items = items.map spelling := by
  induction items with
  | nil => rfl
  | cons item items ih => rw [spellingItems, ih, List.map_cons]

def memberSpelling : String × Json → List Token
  | (key, value) => .string key :: .colon :: value.spelling

theorem spellingMembers_eq (members : List (String × Json)) :
    spellingMembers members = members.map memberSpelling := by
  induction members with
  | nil => rfl
  | cons member members ih =>
    rw [spellingMembers, ih, List.map_cons]
    rfl

/-- Values without floating point numbers, in which no object has two members under one key. -/
inductive Exact : Json → Prop where
  | null : Exact .null
  | bool (value : Bool) : Exact (.bool value)
  | number {number : Number} : number.Exact → Exact (.number number)
  | string (text : String) : Exact (.string text)
  | array {items : List Json} : (∀ item ∈ items, Exact item) → Exact (.array items)
  | object {members : List (String × Json)} :
      (members.map (·.1)).Nodup → (∀ member ∈ members, Exact member.2) → Exact (.object members)

section

variable {α : Type} {children : List α} {text : α → List Char} {cut : α → List Token}

theorem CutsValue.intercalate {separator : List Char} (apart : Cuts separator [.comma])
    (ends : ∃ c ∈ separator.head?, endsNumber c = true) (nonempty : children ≠ [])
    (each : ∀ child ∈ children, CutsValue (text child) (cut child)) :
    CutsValue (separator.intercalate (children.map text))
      ([Token.comma].intercalate (children.map cut)) := by
  induction children with
  | nil => exact absurd rfl nonempty
  | cons child children ih =>
    obtain ⟨here, there⟩ := List.forall_mem_cons.1 each
    cases children with
    | nil =>
      rw [List.map_singleton, List.map_singleton, List.intercalate_singleton,
        List.intercalate_singleton]
      exact here
    | cons next children =>
      have later := ih (List.cons_ne_nil _ _) there
      simp only [List.map_cons, List.intercalate_cons_cons] at later ⊢
      exact (here.append apart ends).appendValue later

theorem endsNumber_of_blank {c : Char} (blank : isBlank c = true) : endsNumber c = true := by
  simp only [isBlank, Bool.or_eq_true, beq_iff_eq] at blank
  rcases blank with ((rfl | rfl) | rfl) | rfl <;> rfl

/-- Brackets around children, with blanks where there may be some. -/
theorem cuts_bracketed {opening closing : Char} {opens closes : Token}
    {before separator after : List Char} (first : Cuts [opening] [opens])
    (last : Cuts [closing] [closes]) (ends : endsNumber closing = true)
    (blank : ∀ c ∈ before ++ separator ++ after, isBlank c = true)
    (each : ∀ child ∈ children, CutsValue (text child) (cut child)) :
    Cuts ([opening] ++ before ++ (',' :: separator).intercalate (children.map text) ++
        (after ++ [closing]))
      ([opens] ++ [Token.comma].intercalate (children.map cut) ++ [closes]) := by
  simp only [List.forall_mem_append] at blank
  obtain ⟨⟨blankBefore, blankBetween⟩, blankAfter⟩ := blank
  have start : Cuts ([opening] ++ before) [opens] := by
    have blanks := first.append (cuts_blank blankBefore)
    rwa [List.append_nil] at blanks
  have finish : Cuts (after ++ [closing]) [closes] := (cuts_blank blankAfter).append last
  by_cases none : children = []
  · subst none
    rw [List.map_nil, List.map_nil, List.intercalate_nil, List.intercalate_nil, List.append_nil,
      List.append_nil]
    exact start.append finish
  · have comma : Cuts (',' :: separator) [.comma] := by
      have single : Cuts [','] [.comma] := cuts_of_take rfl fun _ => rfl
      exact single.append (cuts_blank blankBetween)
    have inside := CutsValue.intercalate comma ⟨',', rfl, rfl⟩ none each
    refine (start.appendValue inside).append finish ?_
    cases after with
    | nil => exact ⟨closing, rfl, ends⟩
    | cons c after => exact ⟨c, rfl, endsNumber_of_blank (blankAfter c List.mem_cons_self)⟩

end

section

variable {text : Json → String}

theorem cutsValue_array (before separator after : List Char)
    (blank : ∀ c ∈ before ++ separator ++ after, isBlank c = true) {items : List Json}
    (each : ∀ item ∈ items, CutsValue (text item).toList item.spelling) :
    CutsValue (['['] ++ before ++
        (',' :: separator).intercalate (items.map fun item => (text item).toList) ++
        (after ++ [']']))
      (spelling (.array items)) := by
  have opens : Cuts ['['] [.openArray] := cuts_of_take rfl fun _ => rfl
  have closes : Cuts [']'] [.closeArray] := cuts_of_take rfl fun _ => rfl
  rw [spelling, spellingItems_eq]
  exact (cuts_bracketed opens closes rfl blank each).value

/-- The text of a member, with blanks behind the colon. -/
def memberText (gap : List Char) (text : Json → String) : String × Json → List Char
  | (key, value) => (quoted key).toList ++ (':' :: gap) ++ (text value).toList

theorem cutsValue_member {gap : List Char} (blank : ∀ c ∈ gap, isBlank c = true) {key : String}
    {value : Json} (cuts : CutsValue (text value).toList value.spelling) :
    CutsValue (memberText gap text (key, value)) (memberSpelling (key, value)) := by
  have colon : Cuts (':' :: gap) [.colon] := by
    have single : Cuts [':'] [.colon] := cuts_of_take rfl fun _ => rfl
    exact single.append (cuts_blank blank)
  exact ((cuts_quoted key).append colon).appendValue cuts

theorem cutsValue_object (before separator after gap : List Char)
    (blank : ∀ c ∈ before ++ separator ++ after, isBlank c = true)
    (blankGap : ∀ c ∈ gap, isBlank c = true) {members : List (String × Json)}
    (each : ∀ member ∈ members, CutsValue (text member.2).toList member.2.spelling) :
    CutsValue (['\x7b'] ++ before ++
        (',' :: separator).intercalate (members.map (memberText gap text)) ++ (after ++ ['\x7d']))
      (spelling (.object members)) := by
  have opens : Cuts ['\x7b'] [.openObject] := cuts_of_take rfl fun _ => rfl
  have closes : Cuts ['\x7d'] [.closeObject] := cuts_of_take rfl fun _ => rfl
  rw [spelling, spellingMembers_eq]
  exact (cuts_bracketed opens closes rfl blank fun member inside =>
    cutsValue_member blankGap (each member inside)).value

end

theorem compactItems_eq (items : List Json) : compactItems items = items.map compact := by
  induction items with
  | nil => rfl
  | cons item items ih => rw [compactItems, ih, List.map_cons]

theorem compactMembers_eq (members : List (String × Json)) :
    compactMembers members =
      members.map fun (key, value) => quoted key ++ ":" ++ compact value := by
  induction members with
  | nil => rfl
  | cons member members ih => rw [compactMembers, ih, List.map_cons]

theorem prettyItems_eq (depth : Nat) (items : List Json) :
    prettyItems depth items = items.map (prettyAt depth) := by
  induction items with
  | nil => rfl
  | cons item items ih => rw [prettyItems, ih, List.map_cons]

theorem prettyMembers_eq (depth : Nat) (members : List (String × Json)) :
    prettyMembers depth members =
      members.map fun (key, value) => quoted key ++ ": " ++ prettyAt depth value := by
  induction members with
  | nil => rfl
  | cons member members ih => rw [prettyMembers, ih, List.map_cons]

theorem cuts_null : Cuts "null".toList [.null] := cuts_of_take rfl fun _ => rfl

theorem cuts_boolText (value : Bool) : Cuts (boolText value).toList [.bool value] := by
  cases value <;> exact cuts_of_take rfl fun _ => rfl

theorem toList_flat (opening closing : Char) (children : List String) :
    (String.singleton opening ++ ",".intercalate children ++ String.singleton closing).toList =
      [opening] ++ [] ++ [','].intercalate (children.map String.toList) ++ ([] ++ [closing]) := by
  simp [String.toList_intercalate]

theorem cutsValue_compact (json : Json) (exact : json.Exact) :
    CutsValue json.compact.toList json.spelling := by
  induction json using Json.induction with
  | node json parts =>
    cases exact with
    | null => exact cuts_null.value
    | bool value => exact (cuts_boolText value).value
    | number exact => exact cutsValue_number exact
    | string text => exact (cuts_quoted text).value
    | @array items exact =>
      have each : ∀ item ∈ items, CutsValue item.compact.toList item.spelling :=
        fun item member => parts item member (exact item member)
      have written := toList_flat '[' ']' (items.map compact)
      rw [List.map_map] at written
      rw [compact, compactItems_eq]
      exact written ▸ cutsValue_array [] [] [] nofun each
    | @object members distinct exact =>
      have each : ∀ member ∈ members, CutsValue member.2.compact.toList member.2.spelling :=
        fun member inside => parts member.2 (List.mem_map_of_mem inside) (exact member inside)
      have written := toList_flat '\x7b' '\x7d'
        (members.map fun (key, value) => quoted key ++ ":" ++ compact value)
      have texts : (String.toList ∘ fun (key, value) => quoted key ++ ":" ++ compact value) =
          memberText [] compact := by
        funext member
        simp [memberText]
      rw [List.map_map, texts] at written
      rw [compact, compactMembers_eq]
      exact written ▸ cutsValue_object [] [] [] [] nofun nofun each

theorem isBlank_indentation {depth : Nat} : ∀ c ∈ (indentation depth).toList, isBlank c = true := by
  simp [indentation, isBlank]

theorem toList_block (depth : Nat) (opening closing : Char) (children : List String) :
    ∃ before separator after, (∀ c ∈ before ++ separator ++ after, isBlank c = true) ∧
      (block depth (String.singleton opening) (String.singleton closing) children).toList =
        [opening] ++ before ++ (',' :: separator).intercalate (children.map String.toList) ++
          (after ++ [closing]) := by
  unfold block
  split
  · rename_i none
    rw [List.isEmpty_iff] at none
    subst none
    exact ⟨[], [], [], nofun, by simp⟩
  · refine ⟨'\n' :: (indentation (depth + 1)).toList, '\n' :: (indentation (depth + 1)).toList,
      '\n' :: (indentation depth).toList, ?_, ?_⟩
    · simp only [List.forall_mem_append, List.forall_mem_cons]
      exact ⟨⟨⟨rfl, isBlank_indentation⟩, rfl, isBlank_indentation⟩, rfl, isBlank_indentation⟩
    · simp [String.toList_intercalate]

theorem cutsValue_prettyAt (depth : Nat) (json : Json) (exact : json.Exact) :
    CutsValue (json.prettyAt depth).toList json.spelling := by
  induction json using Json.induction generalizing depth with
  | node json parts =>
    cases exact with
    | null => exact cuts_null.value
    | bool value => exact (cuts_boolText value).value
    | number exact => exact cutsValue_number exact
    | string text => exact (cuts_quoted text).value
    | @array items exact =>
      have each : ∀ item ∈ items, CutsValue (item.prettyAt (depth + 1)).toList item.spelling :=
        fun item member => parts item member (depth + 1) (exact item member)
      obtain ⟨before, separator, after, blank, written⟩ :=
        toList_block depth '[' ']' (items.map (prettyAt (depth + 1)))
      rw [List.map_map] at written
      rw [prettyAt, prettyItems_eq]
      exact written ▸ cutsValue_array before separator after blank each
    | @object members distinct exact =>
      have each : ∀ member ∈ members,
          CutsValue (member.2.prettyAt (depth + 1)).toList member.2.spelling := fun member inside =>
        parts member.2 (List.mem_map_of_mem inside) (depth + 1) (exact member inside)
      obtain ⟨before, separator, after, blank, written⟩ := toList_block depth '\x7b' '\x7d'
        (members.map fun (key, value) => quoted key ++ ": " ++ prettyAt (depth + 1) value)
      have texts : (String.toList ∘ fun (key, value) =>
          quoted key ++ ": " ++ prettyAt (depth + 1) value) =
            memberText [' '] (prettyAt (depth + 1)) := by
        funext member
        simp [memberText]
      rw [List.map_map, texts] at written
      rw [prettyAt, prettyMembers_eq]
      have gap : ∀ c ∈ [' '], isBlank c = true := List.forall_mem_singleton.2 rfl
      exact written ▸ cutsValue_object before separator after [' '] blank gap each

/-! ## Reading the tokens of a value -/

variable {most room : Nat} {reading : Reading} {outer : List Open}

/-- A value may begin here, inside of the open containers. -/
def Begins (most : Nat) (outer : List Open) (reading : Reading) : Prop :=
  ∀ token, token ≠ .closeArray → reading.next most token = beginValue most outer token

/-- The tokens of a value complete it wherever a value may begin and there is room for it. -/
def Completes (most room : Nat) (json : Json) : Prop :=
  ∀ outer reading, outer.length + room ≤ most → Begins most outer reading →
    json.spelling.foldlM (Reading.next most) reading = some (.completed json outer)

theorem begins_value (most : Nat) (outer : List Open) : Begins most outer (.value outer) :=
  fun _ _ => rfl

theorem completes_items {items done : List Json} (nonempty : items ≠ [])
    (deeper : outer.length + 1 + room ≤ most) (each : ∀ item ∈ items, Completes most room item)
    (begins : Begins most (.array done :: outer) reading) :
    ([Token.comma].intercalate (items.map spelling) ++ [Token.closeArray]).foldlM
      (Reading.next most) reading = some (.completed (.array (done.reverse ++ items)) outer) := by
  induction items generalizing done reading with
  | nil => exact absurd rfl nonempty
  | cons item items ih =>
    obtain ⟨here, there⟩ := List.forall_mem_cons.1 each
    have completed := here (.array done :: outer) reading deeper begins
    cases items with
    | nil =>
      rw [List.map_singleton, List.intercalate_singleton, List.foldlM_append, completed,
        ← List.reverse_cons]
      rfl
    | cons next items =>
      have later := ih (List.cons_ne_nil _ _) there
        (begins_value most (.array (item :: done) :: outer))
      rw [List.reverse_cons, List.append_assoc, List.singleton_append] at later
      rw [List.map_cons] at later ⊢
      rw [List.map_cons, List.intercalate_cons_cons, List.append_assoc, List.append_assoc,
        List.foldlM_append, completed]
      exact later

theorem putMember_of_new {key : String} {value : Json} {members : List (String × Json)}
    (new : key ∉ members.map (·.1)) : putMember key value members = members ++ [(key, value)] := by
  induction members with
  | nil => rfl
  | cons first rest ih =>
    rw [List.map_cons, List.mem_cons, not_or] at new
    rw [putMember, if_neg (Ne.symm new.1), ih new.2, List.cons_append]

/-- A key may follow here, behind these members. -/
def Continues (most : Nat) (done : List (String × Json)) (outer : List Open) (reading : Reading) :
    Prop :=
  ∀ name, reading.next most (.string name) = some (.colon done name outer)

theorem completes_member {member : String × Json} {done : List (String × Json)}
    (deeper : outer.length + 1 + room ≤ most) (completes : Completes most room member.2)
    (continues : Continues most done outer reading) :
    (memberSpelling member).foldlM (Reading.next most) reading =
      some (.completed member.2 (.object done member.1 :: outer)) := by
  have completed := completes (.object done member.1 :: outer) _ deeper (begins_value most _)
  rw [memberSpelling, List.foldlM_cons, continues]
  exact completed

theorem completes_members {members done : List (String × Json)} (nonempty : members ≠ [])
    (deeper : outer.length + 1 + room ≤ most)
    (distinct : ((done ++ members).map (·.1)).Nodup)
    (each : ∀ member ∈ members, Completes most room member.2)
    (continues : Continues most done outer reading) :
    ([Token.comma].intercalate (members.map memberSpelling) ++ [Token.closeObject]).foldlM
      (Reading.next most) reading = some (.completed (.object (done ++ members)) outer) := by
  induction members generalizing done reading with
  | nil => exact absurd rfl nonempty
  | cons member members ih =>
    obtain ⟨here, there⟩ := List.forall_mem_cons.1 each
    have completed := completes_member deeper here continues
    have new : member.1 ∉ done.map (·.1) := by
      rw [List.map_append, List.map_cons] at distinct
      exact fun old => (List.nodup_append.1 distinct).2.2 _ old _ List.mem_cons_self rfl
    have put : putMember member.1 member.2 done = done ++ [member] := putMember_of_new new
    cases members with
    | nil =>
      rw [List.map_singleton, List.intercalate_singleton, List.foldlM_append, completed, ← put]
      rfl
    | cons next members =>
      have later : Continues most (done ++ [member]) outer (.key (done ++ [member]) outer) :=
        fun _ => rfl
      have rest := ih (List.cons_ne_nil _ _) (by rwa [List.append_assoc]) there later
      rw [List.append_assoc, List.singleton_append, ← put] at rest
      rw [List.map_cons] at rest ⊢
      rw [List.map_cons, List.intercalate_cons_cons, List.append_assoc, List.append_assoc,
        List.foldlM_append, completed]
      exact rest

theorem completes_leaf {json : Json} {token : Token} (single : json.spelling = [token])
    (value : token ≠ .closeArray)
    (begun : ∀ outer, beginValue most outer token = some (.completed json outer)) :
    Completes most room json := by
  intro outer reading _ begins
  rw [single, List.foldlM_cons, begins token value, begun]
  rfl

theorem completes_spelling {json : Json} (exact : json.Exact) (within : json.NestsWithin room) :
    Completes most room json := by
  induction json using Json.induction generalizing room with
  | node json parts =>
    cases exact with
    | null => exact completes_leaf rfl nofun fun _ => rfl
    | bool value => exact completes_leaf rfl nofun fun _ => rfl
    | number _ => exact completes_leaf rfl nofun fun _ => rfl
    | string text => exact completes_leaf rfl nofun fun _ => rfl
    | @array items exact =>
      cases room with
      | zero => exact absurd rfl within.1
      | succ room =>
        intro outer reading deeper begins
        have each : ∀ item ∈ items, Completes most room item :=
          fun item member => parts item member (exact item member) (within item member)
        have opened : beginValue most outer .openArray = some (.item outer) := if_pos (by omega)
        have start : Begins most (.array [] :: outer) (.item outer) :=
          fun _ going => next_item most outer going
        rw [spelling, spellingItems_eq, List.cons_append, List.foldlM_cons,
          begins .openArray nofun, opened]
        by_cases none : items = []
        · subst none
          rfl
        · exact completes_items none (by omega) each start
    | @object members distinct exact =>
      cases room with
      | zero => exact absurd rfl within.2
      | succ room =>
        intro outer reading deeper begins
        have each : ∀ member ∈ members, Completes most room member.2 := fun member inside =>
          have part := List.mem_map_of_mem inside
          parts member.2 part (exact member inside) (within member.2 part)
        have opened : beginValue most outer .openObject = some (.member outer) := if_pos (by omega)
        have start : Continues most [] outer (.member outer) := fun _ => rfl
        rw [spelling, spellingMembers_eq, List.cons_append, List.foldlM_cons,
          begins .openObject nofun, opened]
        by_cases none : members = []
        · subst none
          rfl
        · exact completes_members none (by omega) (by simpa using distinct) each start

/-! ## Printed text reads back -/

theorem nestsWithin_of_sizeOf {json : Json} (small : sizeOf json ≤ room) :
    json.NestsWithin room := by
  induction room generalizing json with
  | zero =>
    have positive : 0 < sizeOf json := by cases json <;> simp +arith
    omega
  | succ room ih =>
    intro part member
    have smaller := sizeOf_lt_of_mem_parts member
    exact ih (by omega)

theorem parseWithin?_of_cuts {json : Json} {text : String} (exact : json.Exact)
    (within : json.NestsWithin most) (cuts : CutsValue text.toList json.spelling) :
    parseWithin? most text = some json := by
  have cut := cuts [] nofun
  have empty : tokens [] = some [] := by rw [tokens]
  rw [List.append_nil, empty, Option.map_some, List.append_nil] at cut
  exact parseWithin?_eq_some_iff.2 ⟨_, cut, completes_spelling exact within [] (.value [])
    (Nat.le_of_eq (Nat.zero_add most)) (begins_value most [])⟩

theorem spells_compact {json : Json} (exact : json.Exact) : Spells json.compact json :=
  ⟨sizeOf json, parseWithin?_of_cuts exact (nestsWithin_of_sizeOf (Nat.le_refl _))
    (cutsValue_compact json exact)⟩

theorem spells_pretty {json : Json} (exact : json.Exact) : Spells json.pretty json :=
  ⟨sizeOf json, parseWithin?_of_cuts exact (nestsWithin_of_sizeOf (Nat.le_refl _))
    (cutsValue_prettyAt 0 json exact)⟩

end SchemaWire.Json

namespace SchemaWire.Namespace

variable {types : Namespace} {type : String} {value : Value} {json : Json}

theorem exact_toJson (primitive : Primitive) : primitive.toJson.Exact := by
  cases primitive with
  | varint n =>
    rw [Primitive.toJson]
    split
    · exact .number (.natural _)
    · exact .string _
  | text content => exact .string content
  | bytes content => exact .string _
  | bool value => exact .bool value

theorem exact_jsonOfValue (written : types.jsonOfValue type value = .ok json) : json.Exact := by
  induction value using Value.induction generalizing type json with
  | step value payload parts =>
    obtain ⟨definition, -, -, writes⟩ := jsonOfValue_eq_ok_iff.1 written
    cases value with
    | singleton => exact writes ▸ .null
    | builtin primitive => exact writes ▸ exact_toJson primitive
    | enum case held =>
      obtain ⟨inner, below, rfl⟩ := writes
      refine .object (List.nodup_singleton _) (List.forall_mem_singleton.2 ?_)
      exact payload case held rfl below
    | record values | list values =>
      obtain ⟨items, converted, rfl⟩ := writes
      refine .array fun item member => ?_
      obtain ⟨partType, part, held, written⟩ := exists_of_mem_convertParts converted member
      exact parts part held written

end SchemaWire.Namespace
