import SchemaWire.Json.Parser
import SchemaWire.Proofs.Acceptance
import SchemaWire.Proofs.JsonForm

/-! How deep JSON text may nest.

The reader counts the containers that are open. A limit on them decides which text is read, but
never what it stands for. No value that is read under the limit is too deep to be encoded.
-/

set_option autoImplicit false

namespace SchemaWire

namespace Json

variable {most larger : Nat} {json other : Json} {outer : List Open} {reading next : Reading}
  {token : Token} {text : String}

theorem parseWithin?_eq_some_iff :
    parseWithin? most text = some json ↔ ∃ tokens, Json.tokens text.toList = some tokens ∧
      tokens.foldlM (Reading.next most) (.value []) = some (.completed json []) := by
  simp only [parseWithin?, Option.bind_eq_bind, Option.bind_eq_some_iff]
  refine exists_congr fun tokens => and_congr_right fun _ => ?_
  constructor
  · rintro ⟨reading, done, complete⟩
    split at complete
    · cases complete
      exact done
    · cases complete
  · intro done
    exact ⟨_, done, rfl⟩

/-! ## Containers in containers -/

/-- At most so many containers lie inside of one another. -/
def NestsWithin : Nat → Json → Prop
  | 0, json => json.form ≠ .array ∧ json.form ≠ .object
  | most + 1, json => ∀ part ∈ json.parts, NestsWithin most part

theorem nestsWithin_leaf (array : json.form ≠ .array) (object : json.form ≠ .object) :
    NestsWithin most json := by
  cases most with
  | zero => exact ⟨array, object⟩
  | succ most =>
    cases json with
    | array items => exact absurd rfl array
    | object members => exact absurd rfl object
    | _ => exact nofun

def Open.parts : Open → List Json
  | .array items => items
  | .object members _ => members.map (·.2)

def Reading.containers : Reading → List Open
  | .value outer => outer
  | .item outer => .array [] :: outer
  | .member outer => .object [] "" :: outer
  | .key members outer => .object members "" :: outer
  | .colon members name outer => .object members name :: outer
  | .completed _ outer => outer

/-- No more containers are open than may be, and what they hold leaves room for them. -/
def OpenWithin (most : Nat) : List Open → Prop
  | [] => True
  | container :: outer =>
    outer.length < most ∧
      (∀ part ∈ container.parts, NestsWithin (most - (outer.length + 1)) part) ∧
      OpenWithin most outer

structure Reading.Within (most : Nat) (reading : Reading) : Prop where
  containers : OpenWithin most reading.containers
  completed {json : Json} {outer : List Open} :
    reading = .completed json outer → NestsWithin (most - outer.length) json

theorem OpenWithin.completed (within : OpenWithin most outer) (array : json.form ≠ .array)
    (object : json.form ≠ .object) : Reading.Within most (.completed json outer) where
  containers := within
  completed same := by
    cases same
    exact nestsWithin_leaf array object

theorem OpenWithin.going (within : OpenWithin most reading.containers)
    (going : ∀ json outer, reading ≠ .completed json outer) : reading.Within most where
  containers := within
  completed same := absurd same (going _ _)

theorem OpenWithin.close {container : Open} (within : OpenWithin most (container :: outer))
    (parts : ∀ part ∈ json.parts, NestsWithin (most - (outer.length + 1)) part) :
    Reading.Within most (.completed json outer) where
  containers := within.2.2
  completed same := by
    cases same
    have room : most - outer.length = most - (outer.length + 1) + 1 := by
      have := within.1
      omega
    rw [room]
    exact parts

theorem mem_putMember {key : String} {value : Json} {members : List (String × Json)}
    {member : String × Json} (put : member ∈ putMember key value members) :
    member = (key, value) ∨ member ∈ members := by
  induction members with
  | nil => exact .inl (List.mem_singleton.1 put)
  | cons first rest ih =>
    rw [putMember] at put
    split at put
    · rcases List.mem_cons.1 put with same | member
      · exact .inl same
      · exact .inr (List.mem_cons_of_mem _ member)
    · rcases List.mem_cons.1 put with rfl | member
      · exact .inr List.mem_cons_self
      · exact (ih member).imp_right (List.mem_cons_of_mem _)

/-- Unless an array ends as soon as it was opened, its first item begins. -/
theorem next_item (most : Nat) (outer : List Open) (going : token ≠ .closeArray) :
    Reading.next most (.item outer) token = beginValue most (.array [] :: outer) token := by
  cases token with
  | closeArray => exact absurd rfl going
  | _ => rfl

theorem within_beginValue (within : OpenWithin most outer)
    (begun : beginValue most outer token = some next) : next.Within most := by
  cases token with
  | openArray =>
    simp only [beginValue, Option.ite_none_right_eq_some] at begun
    obtain ⟨room, same⟩ := begun
    cases same
    have opened : OpenWithin most (.array [] :: outer) := ⟨room, by exact nofun, within⟩
    exact opened.going nofun
  | openObject =>
    simp only [beginValue, Option.ite_none_right_eq_some] at begun
    obtain ⟨room, same⟩ := begun
    cases same
    have opened : OpenWithin most (.object [] "" :: outer) := ⟨room, by exact nofun, within⟩
    exact opened.going nofun
  | null | bool | number | string =>
    cases begun
    exact within.completed nofun nofun
  | closeArray | closeObject | comma | colon => cases begun

theorem within_continueAfter (within : Reading.Within most (.completed json outer))
    (continued : continueAfter json outer token = some next) : next.Within most := by
  have containers : OpenWithin most outer := within.containers
  have last := within.completed rfl
  cases outer with
  | nil => cases continued
  | cons container outer =>
    obtain ⟨room, held, behind⟩ := containers
    cases container with
    | array items =>
      have parts : ∀ part ∈ json :: items, NestsWithin (most - (outer.length + 1)) part :=
        List.forall_mem_cons.2 ⟨last, held⟩
      cases token with
      | comma =>
        cases continued
        have longer : OpenWithin most (.array (json :: items) :: outer) := ⟨room, parts, behind⟩
        exact longer.going nofun
      | closeArray =>
        cases continued
        have whole : OpenWithin most (.array items :: outer) := ⟨room, held, behind⟩
        exact whole.close fun part member => parts part (List.mem_reverse.1 member)
      | _ => cases continued
    | object members key =>
      have parts : ∀ part ∈ (putMember key json members).map (·.2),
          NestsWithin (most - (outer.length + 1)) part := by
        intro part member
        obtain ⟨entry, put, rfl⟩ := List.mem_map.1 member
        rcases mem_putMember put with rfl | old
        · exact last
        · exact held _ (List.mem_map_of_mem old)
      cases token with
      | comma =>
        cases continued
        have longer : OpenWithin most (.object (putMember key json members) "" :: outer) :=
          ⟨room, parts, behind⟩
        exact longer.going nofun
      | closeObject =>
        cases continued
        have whole : OpenWithin most (.object members key :: outer) := ⟨room, held, behind⟩
        exact whole.close parts
      | _ => cases continued

theorem within_next (within : reading.Within most) (stepped : reading.next most token = some next) :
    next.Within most := by
  have containers := within.containers
  cases reading with
  | value outer => exact within_beginValue containers stepped
  | item outer =>
    by_cases ending : token = .closeArray
    · subst ending
      cases stepped
      have empty : OpenWithin most (.array [] :: outer) := containers
      exact empty.close nofun
    · rw [next_item _ _ ending] at stepped
      exact within_beginValue containers stepped
  | member outer =>
    cases token with
    | closeObject =>
      cases stepped
      have empty : OpenWithin most (.object [] "" :: outer) := containers
      exact empty.close nofun
    | string name =>
      cases stepped
      have named : OpenWithin most (.object [] name :: outer) := containers
      exact named.going nofun
    | _ => cases stepped
  | key members outer =>
    cases token with
    | string name =>
      cases stepped
      have named : OpenWithin most (.object members name :: outer) := containers
      exact named.going nofun
    | _ => cases stepped
  | colon members name outer =>
    cases token with
    | colon =>
      cases stepped
      have named : OpenWithin most (.object members name :: outer) := containers
      exact named.going nofun
    | _ => cases stepped
  | completed json outer => exact within_continueAfter within stepped

theorem within_foldlM {tokens : List Token} (within : reading.Within most)
    (done : tokens.foldlM (Reading.next most) reading = some next) : next.Within most := by
  induction tokens generalizing reading with
  | nil =>
    cases done
    exact within
  | cons token tokens ih =>
    rw [List.foldlM_cons, Option.bind_eq_bind, Option.bind_eq_some_iff] at done
    obtain ⟨between, stepped, done⟩ := done
    exact ih (within_next within stepped) done

theorem within_start (most : Nat) : Reading.Within most (.value []) := OpenWithin.going trivial nofun

theorem nestsWithin_of_parseWithin (parsed : parseWithin? most text = some json) :
    NestsWithin most json := by
  obtain ⟨tokens, -, done⟩ := parseWithin?_eq_some_iff.1 parsed
  exact (within_foldlM (within_start most) done).completed rfl

/-! ## How many containers are open -/

def Token.opened (before : Nat) : Token → Nat
  | .openArray | .openObject => before + 1
  | .closeArray | .closeObject => before - 1
  | _ => before

def mostOpen (before : Nat) : List Token → Nat
  | [] => before
  | token :: tokens => max before (mostOpen (token.opened before) tokens)

/-- The most containers that are open at a time in a text. -/
def nesting (text : String) : Nat := mostOpen 0 ((tokens text.toList).getD [])

theorem opened_beginValue (begun : beginValue most outer token = some next) :
    next.containers.length = token.opened outer.length := by
  cases token with
  | openArray | openObject =>
    simp only [beginValue, Option.ite_none_right_eq_some] at begun
    cases begun.2
    rfl
  | null | bool | number | string =>
    cases begun
    rfl
  | closeArray | closeObject | comma | colon => cases begun

theorem opened_next (stepped : reading.next most token = some next) :
    next.containers.length = token.opened reading.containers.length := by
  cases reading with
  | value outer => exact opened_beginValue stepped
  | item outer =>
    by_cases ending : token = .closeArray
    · subst ending
      cases stepped
      rfl
    · rw [next_item _ _ ending] at stepped
      exact opened_beginValue stepped
  | completed json outer =>
    cases outer with
    | nil => cases stepped
    | cons container outer => cases container <;> cases token <;> cases stepped <;> rfl
  | _ => cases token <;> cases stepped <;> rfl

theorem beginValue_of_room (begun : beginValue larger outer token = some next)
    (room : next.containers.length ≤ most) : beginValue most outer token = some next := by
  cases token with
  | openArray | openObject =>
    simp only [beginValue, Option.ite_none_right_eq_some] at begun ⊢
    cases begun.2
    exact ⟨room, rfl⟩
  | _ => exact begun

/-- A limit only matters to what opens more containers than it allows. -/
theorem next_of_room (stepped : reading.next larger token = some next)
    (room : next.containers.length ≤ most) : reading.next most token = some next := by
  cases reading with
  | value outer => exact beginValue_of_room stepped room
  | item outer =>
    by_cases ending : token = .closeArray
    · subst ending
      exact stepped
    · rw [next_item _ _ ending] at stepped ⊢
      exact beginValue_of_room stepped room
  | _ => cases token <;> exact stepped

theorem le_mostOpen (before : Nat) (tokens : List Token) : before ≤ mostOpen before tokens := by
  cases tokens with
  | nil => exact Nat.le_refl _
  | cons token tokens => exact Nat.le_max_left _ _

theorem foldlM_of_room {tokens : List Token} {last : Reading}
    (done : tokens.foldlM (Reading.next larger) reading = some last)
    (room : mostOpen reading.containers.length tokens ≤ most) :
    tokens.foldlM (Reading.next most) reading = some last := by
  induction tokens generalizing reading with
  | nil => exact done
  | cons token tokens ih =>
    rw [List.foldlM_cons, Option.bind_eq_bind, Option.bind_eq_some_iff] at done ⊢
    obtain ⟨between, stepped, done⟩ := done
    have behind := (Nat.max_le.1 room).2
    rw [← opened_next stepped] at behind
    exact ⟨between, next_of_room stepped (Nat.le_trans (le_mostOpen _ _) behind), ih done behind⟩

theorem Reading.Within.length_le (within : reading.Within most) :
    reading.containers.length ≤ most := by
  have containers := within.containers
  cases holding : reading.containers with
  | nil => exact Nat.zero_le most
  | cons container outer =>
    rw [holding] at containers
    exact containers.1

theorem mostOpen_le {tokens : List Token} {last : Reading} (within : reading.Within most)
    (done : tokens.foldlM (Reading.next most) reading = some last) :
    mostOpen reading.containers.length tokens ≤ most := by
  induction tokens generalizing reading with
  | nil => exact within.length_le
  | cons token tokens ih =>
    rw [List.foldlM_cons, Option.bind_eq_bind, Option.bind_eq_some_iff] at done
    obtain ⟨between, stepped, done⟩ := done
    rw [mostOpen, ← opened_next stepped]
    exact Nat.max_le.2 ⟨within.length_le, ih (within_next within stepped) done⟩

/-- The text stands for the value, however deep it nests. -/
def Spells (text : String) (json : Json) : Prop := ∃ most, parseWithin? most text = some json

theorem parseWithin?_iff_spells :
    parseWithin? most text = some json ↔ Spells text json ∧ nesting text ≤ most := by
  constructor
  · intro parsed
    obtain ⟨tokens, split, done⟩ := parseWithin?_eq_some_iff.1 parsed
    refine ⟨⟨most, parsed⟩, ?_⟩
    rw [nesting, split]
    exact mostOpen_le (within_start most) done
  · rintro ⟨⟨larger, parsed⟩, room⟩
    obtain ⟨tokens, split, done⟩ := parseWithin?_eq_some_iff.1 parsed
    rw [nesting, split] at room
    exact parseWithin?_eq_some_iff.2 ⟨tokens, split, foldlM_of_room done room⟩

theorem parse?_iff_spells : parse? text = some json ↔ Spells text json ∧ nesting text ≤ maxOpen :=
  parseWithin?_iff_spells

theorem Spells.unique (spells : Spells text json) (again : Spells text other) : json = other := by
  have parsed := parseWithin?_iff_spells.2 ⟨spells, Nat.le_refl (nesting text)⟩
  have reparsed := parseWithin?_iff_spells.2 ⟨again, Nat.le_refl (nesting text)⟩
  exact Option.some.inj (parsed.symm.trans reparsed)

/-! ## Arrays in arrays -/

theorem tokens_cons {c : Char} {rest left : List Char} {token : Token} (visible : isBlank c = false)
    (taken : Token.take (c :: rest) = some (token, left)) :
    tokens (c :: rest) = (tokens left).map (token :: ·) := by
  rw [tokens, if_neg (by simp [visible])]
  split
  · rename_i none
    cases none.symm.trans taken
  · rename_i some
    cases some.symm.trans taken
    cases tokens left <;> rfl

end Json

/-! ## Depth of values -/

namespace Namespace

variable {types : Namespace} {type : String} {json : Json} {value : Value} {most : Nat}

theorem depth_le_of_valueOfJson (within : json.NestsWithin most)
    (read : types.valueOfJson type json = .ok value) : value.depth ≤ most := by
  induction json using Json.induction generalizing type value most with
  | node json parts =>
    obtain ⟨definition, -, -, reads⟩ := valueOfJson_eq_ok_iff.1 read
    cases value with
    | singleton => exact Nat.zero_le most
    | builtin primitive => exact Nat.zero_le most
    | enum case payload =>
      obtain ⟨inner, converted, rfl⟩ := reads
      have member : inner ∈ (Json.object [(case, inner)]).parts := List.mem_singleton_self inner
      cases most with
      | zero => exact absurd rfl within.2
      | succ most =>
        have below : payload.depth ≤ most := parts inner member (within inner member) converted
        exact Nat.le_succ_of_le below
    | record values | list values =>
      obtain ⟨items, converted, -, rfl⟩ := reads
      cases most with
      | zero => exact absurd rfl within.1
      | succ most =>
        rw [Value.depth_le_iff (by exact nofun)]
        intro part member
        obtain ⟨partType, item, listed, read⟩ := exists_of_mem_convertParts converted member
        exact Nat.lt_succ_of_le (parts item listed (within item listed) read)

/-- No text is read to a value that is too deep to be encoded. -/
theorem depth_le_of_parse {text : String} (parsed : Json.parse? text = some json)
    (read : types.valueOfJson type json = .ok value) : value.depth ≤ Codec.defaultMaxDepth :=
  Nat.le_succ_of_le (depth_le_of_valueOfJson (Json.nestsWithin_of_parseWithin parsed) read)

end Namespace

end SchemaWire
