import Mathlib.Data.List.Basic
import SchemaWire.Proofs.NameOrder
import SchemaWire.Proofs.Printing

/-! Names and identifiers stand for each other, in the same order.

A table is the ordered list of its names, and the identifier of a name says where it stands in that
list. So identifiers go up without a gap from the first free one, and listing a table shows every
type of a schema once.
-/

set_option autoImplicit false

namespace SchemaWire

namespace IdentifierTable

variable {table : IdentifierTable} {name : String} {identifier : Identifier}

/-! ## Numbers in use -/

theorem exists_name?_iff :
    (∃ name, table.name? identifier = some name) ↔
      Identifier.first ≤ identifier ∧ identifier < Identifier.first + table.size := by
  simp only [name?_eq_some_iff_getElem?, List.getElem?_eq_some_iff]
  constructor
  · rintro ⟨_, index, rfl, bound, -⟩
    exact ⟨Nat.le_add_right _ _, Nat.add_lt_add_left bound _⟩
  · rintro ⟨above, below⟩
    obtain ⟨index, rfl⟩ := Nat.exists_eq_add_of_le above
    exact ⟨_, index, rfl, Nat.lt_of_add_lt_add_left below, rfl⟩

theorem isReserved_of_name? (named : table.name? identifier = some name) :
    Identifier.isReserved identifier = false :=
  decide_eq_false (Nat.not_lt_of_le (first_le_of_name? named))

theorem lt_of_name?_lt {later : String} {laterIdentifier : Identifier}
    (named : table.name? identifier = some name)
    (laterNamed : table.name? laterIdentifier = some later)
    (below : identifier < laterIdentifier) : name < later := by
  obtain ⟨index, rfl, found⟩ := name?_eq_some_iff_getElem?.1 named
  obtain ⟨laterIndex, rfl, laterFound⟩ := name?_eq_some_iff_getElem?.1 laterNamed
  obtain ⟨bound, rfl⟩ := List.getElem?_eq_some_iff.1 found
  obtain ⟨laterBound, rfl⟩ := List.getElem?_eq_some_iff.1 laterFound
  exact List.pairwise_iff_getElem.1 table.ascending _ _ bound laterBound
    (Nat.lt_of_add_lt_add_left below)

theorem lt_iff_identifier_lt {first second : String} {firstIdentifier secondIdentifier : Identifier}
    (firstNumbered : table.identifier? first = some firstIdentifier)
    (secondNumbered : table.identifier? second = some secondIdentifier) :
    first < second ↔ firstIdentifier < secondIdentifier := by
  have firstNamed := name?_eq_some_iff.2 firstNumbered
  have secondNamed := name?_eq_some_iff.2 secondNumbered
  refine ⟨fun before => ?_, lt_of_name?_lt firstNamed secondNamed⟩
  rcases Nat.lt_trichotomy firstIdentifier secondIdentifier with below | same | above
  · exact below
  · subst same
    cases firstNamed.symm.trans secondNamed
    exact absurd before (String.lt_irrefl _)
  · exact absurd before (String.lt_asymm (lt_of_name?_lt secondNamed firstNamed above))

/-! ## Entries -/

theorem mem_entries_iff :
    (name, identifier) ∈ table.entries ↔ table.identifier? name = some identifier := by
  rw [entries, List.mem_zipIdx_iff_le_and_getElem?_sub, ← name?_eq_some_iff, name?,
    Option.ite_none_left_eq_some, Identifier.isReserved, decide_eq_true_eq, Nat.not_lt]

theorem ascending_entries (table : IdentifierTable) :
    table.entries.Pairwise fun entry later => entry.1 < later.1 ∧ entry.2 < later.2 := by
  have ascending := table.ascending
  rw [List.pairwise_iff_getElem] at ascending ⊢
  simp only [entries, List.length_zipIdx, List.getElem_zipIdx]
  intro i j iBound jBound before
  exact ⟨ascending i j iBound jBound before, Nat.add_lt_add_left before _⟩

theorem nodup_entries (table : IdentifierTable) : (table.entries.map (·.1)).Nodup := by
  rw [entries, List.zipIdx_map_fst]
  exact table.nodup_names

theorem lookup_eq_find? (entries : List (String × Identifier)) (name : String) :
    entries.lookup name = (entries.find? (·.1 == name)).map (·.2) := by
  induction entries with
  | nil => rfl
  | cons entry entries ih =>
    obtain ⟨first, identifier⟩ := entry
    rw [List.lookup_cons, List.find?_cons, Bool.beq_comm, ih]
    cases first == name <;> rfl

theorem lookup_entries (table : IdentifierTable) (name : String) :
    table.entries.lookup name = table.identifier? name := by
  have same : table.entries.find? (·.1 == name) = table.byName.find? (·.1 == name) := by
    ext entry
    rw [find?_key_eq_some_iff table.nodup_entries, find?_key_eq_some_iff table.nodup_byName,
      table.numbered.mem_iff]
    rfl
  rw [lookup_eq_find?, same, identifier?]

end IdentifierTable

/-! ## The listing -/

namespace CommandLine.Command

open IdentifierTable (assign)

def numberedRows (types : Namespace) : List (String × Identifier × Kind) :=
  (types.ordered.zipIdx Identifier.first).map fun (definition, identifier) =>
    (definition.name, identifier, definition.kind)

theorem length_numberedRows (types : Namespace) : (numberedRows types).length = types.size := by
  rw [numberedRows, List.length_map, List.length_zipIdx, types.ordered_perm.length_eq,
    Namespace.size]

theorem entries_assign (types : Namespace) :
    (assign types).entries =
      (types.ordered.zipIdx Identifier.first).map (Prod.map Definition.name id) := by
  calc
    _ = types.names.zipIdx Identifier.first := rfl
    _ = (types.ordered.map (·.name)).zipIdx Identifier.first := by rw [types.map_name_ordered]
    _ = _ := List.zipIdx_map

theorem map_numberedRows (types : Namespace) :
    (numberedRows types).map (fun (name, identifier, _) => (name, identifier)) =
      (assign types).entries := by
  rw [numberedRows, List.map_map, entries_assign]
  rfl

theorem mem_numberedRows {types : Namespace} {name : String} {identifier : Identifier}
    {kind : Kind} :
    (name, identifier, kind) ∈ numberedRows types ↔
      (assign types).identifier? name = some identifier ∧
        ∃ definition, types.find? name = some definition ∧ definition.kind = kind := by
  rw [← IdentifierTable.mem_entries_iff, entries_assign, numberedRows]
  simp only [List.mem_map, Prod.exists, Prod.map_apply, id_eq, Prod.mk.injEq]
  constructor
  · rintro ⟨definition, number, member, rfl, rfl, rfl⟩
    have bound : definition ∈ types.definitions :=
      types.ordered_perm.mem_iff.1 (List.fst_mem_of_mem_zipIdx member)
    exact ⟨⟨definition, number, member, rfl, rfl⟩, definition, Namespace.find?_name bound, rfl⟩
  · rintro ⟨⟨definition, number, member, rfl, rfl⟩, other, found, rfl⟩
    have bound : definition ∈ types.definitions :=
      types.ordered_perm.mem_iff.1 (List.fst_mem_of_mem_zipIdx member)
    cases (Namespace.find?_name bound).symm.trans found
    exact ⟨definition, number, member, rfl, rfl, rfl⟩

theorem identifierRows_eq (schema : Schema) :
    identifierRows schema = numberedRows schema.types := by
  rw [identifierRows, Schema.identifiers, entries_assign, List.filterMap_map, numberedRows,
    List.filterMap_eq_map_iff_forall_eq_some]
  rintro ⟨definition, identifier⟩ member
  have bound : schema.types.find? definition.name = some definition :=
    Namespace.find?_name (schema.types.ordered_perm.mem_iff.1 (List.fst_mem_of_mem_zipIdx member))
  simp [bound]

theorem run_ids {environment : Environment} {path : String} {schema : Schema}
    (loaded : environment.loadSchema path = .ok schema) (asked : Option Format) :
    Invocation.run environment ⟨asked, .ids path⟩ =
      showIdentifiers environment (environment.formatFor asked) (numberedRows schema.types) := by
  simp only [Invocation.run, Command.run, runIds, loaded, identifierRows_eq]
  rfl

theorem prints_ids {environment : Environment} {path : String} {schema : Schema}
    (loaded : environment.loadSchema path = .ok schema) (asked : Option Format) :
    let outcome := Invocation.run environment ⟨asked, .ids path⟩
    outcome.exit = .success ∧
      PrintsRows environment (numberedRows schema.types) outcome.stdout
        (environment.formatFor asked) := by
  have plain : ∀ row ∈ numberedRows schema.types, OneLine row.1 := by
    intro row member
    obtain ⟨-, definition, found, -⟩ := mem_numberedRows.1 member
    obtain ⟨bound, same⟩ := Namespace.find?_eq_some_iff.1 found
    exact same ▸ oneLine_of_loadSchema loaded bound
  obtain ⟨stdout, prints⟩ := exists_printsRows plain
  rw [run_ids loaded, (printsRows_iff plain).1 prints]
  exact ⟨rfl, prints⟩

end CommandLine.Command

/-! ## Tables of namespaces -/

namespace IdentifierTable

open CommandLine

/-- A table stands for the names of a namespace: it numbers all of them and nothing else, one to
one, without a gap behind the reserved identifiers, and in the order of their bytes. -/
structure Numbers (table : IdentifierTable) (types : Namespace) : Prop where
  inverse (name : String) (identifier : Identifier) :
    table.identifier? name = some identifier ↔ table.name? identifier = some name
  used (identifier : Identifier) :
    (∃ name, table.name? identifier = some name) ↔ 6 ≤ identifier ∧ identifier ≤ 5 + types.size
  free (name : String) (identifier : Identifier) :
    table.name? identifier = some name → Identifier.isReserved identifier = false
  bound (name : String) :
    (∃ identifier, table.identifier? name = some identifier) ↔ types.contains name = true
  ordered (first second : String) (firstIdentifier secondIdentifier : Identifier) :
    table.identifier? first = some firstIdentifier →
    table.identifier? second = some secondIdentifier →
    (Bytes.ofText first < Bytes.ofText second ↔ firstIdentifier < secondIdentifier)
  entry (name : String) (identifier : Identifier) :
    (name, identifier) ∈ table.entries ↔ table.identifier? name = some identifier
  ascending :
    table.entries.Pairwise fun entry later =>
      Bytes.ofText entry.1 < Bytes.ofText later.1 ∧ entry.2 < later.2
  lookup (name : String) : table.entries.lookup name = table.identifier? name

/-- The numbers of a namespace are given by its names, however the map from them is arranged. -/
theorem numbers_of_names {table : IdentifierTable} {types : Namespace}
    (same : table.names = types.names) : table.Numbers types where
  inverse _ _ := name?_eq_some_iff.symm
  used identifier := by
    have next : Identifier.first + types.size = 5 + types.size + 1 := Nat.add_right_comm 5 1 _
    rw [exists_name?_iff, size, same, types.length_names, next, Nat.lt_succ_iff]
    rfl
  free _ _ := isReserved_of_name?
  bound _ := by
    rw [exists_identifier?_iff, same]
    exact Namespace.mem_names
  ordered first second _ _ firstNumbered secondNumbered := by
    rw [Bytes.ofText_lt_ofText_iff]
    exact lt_iff_identifier_lt firstNumbered secondNumbered
  entry _ _ := mem_entries_iff
  ascending := by
    simp only [Bytes.ofText_lt_ofText_iff]
    exact ascending_entries _
  lookup := lookup_entries _

/-- The table of a namespace stands for its names, and so does one whose map is arranged otherwise.
The listing of a schema has one row for every type, with its kind and with the identifier that the
table has for it, and nothing else is printed. -/
theorem assign_in_order (types : Namespace) :
    let rows := Command.numberedRows types
    (assign types).Numbers types ∧
    (∀ table : IdentifierTable, table.names = (assign types).names → table.Numbers types) ∧
    rows.length = types.size ∧
    rows.map (fun (name, identifier, _) => (name, identifier)) = (assign types).entries ∧
    (∀ name identifier kind, (name, identifier, kind) ∈ rows ↔
      (assign types).identifier? name = some identifier ∧
        ∃ definition, types.find? name = some definition ∧ definition.kind = kind) ∧
    ∀ environment path schema, Environment.loadSchema environment path = .ok schema →
      schema.types = types → ∀ asked,
        let outcome := Invocation.run environment ⟨asked, .ids path⟩
        outcome.exit = .success ∧
          PrintsRows environment rows outcome.stdout (environment.formatFor asked) := by
  intro rows
  refine ⟨numbers_of_names rfl, fun _ => numbers_of_names, Command.length_numberedRows types,
    Command.map_numberedRows types, fun _ _ _ => Command.mem_numberedRows, ?_⟩
  rintro environment path schema loaded rfl asked
  exact Command.prints_ids loaded asked

/-- The three names are in the order of their bytes, in which the ligature precedes the letter from
beyond the first 65536 characters. -/
theorem assign_in_order_letters :
    let text := "𝔸: Singleton\nﬁ: List Z\nZ: Builtin Bool\n"
    let environment : Environment :=
      { contentsAt := fun _ => .ok (Bytes.ofText text), stdin := .ok [] }
    let outcome := Invocation.run environment ⟨some .raw, .ids "letters"⟩
    ∃ schema, environment.loadSchema "letters" = .ok schema ∧
      (assign schema.types).identifier? "ﬁ" = some 7 ∧
      (assign schema.types).identifier? "𝔸" = some 8 ∧
      Bytes.ofText "ﬁ" < Bytes.ofText "𝔸" ∧
      (assign schema.types).name? 8 = some "𝔸" ∧ Identifier.isReserved 8 = false ∧
      (∀ name, (assign schema.types).name? 9 ≠ some name) ∧
      outcome.exit = .success ∧
      PrintsLines ["   6  Z  (Builtin)".toList, "   7  ﬁ  (List)".toList,
        "   8  𝔸  (Singleton)".toList] outcome.stdout := by
  intro text environment outcome
  let bit : Definition := ⟨"Z", .builtin .bool⟩
  let ligature : Definition := ⟨"ﬁ", .list (.named "Z")⟩
  let letter : Definition := ⟨"𝔸", .singleton⟩
  let schema : Schema := ⟨⟨[bit, ligature, letter], by decide⟩, by cbv⟩
  have read : SchemaText.parse text = .ok [letter, ligature, bit] :=
    SchemaText.parseLines_eq_ok_iff.2 ⟨by decide, by decide⟩
  have built : Namespace.build [letter, ligature, bit] = .ok schema.types :=
    Namespace.build_eq_ok_iff.2 ⟨by decide, rfl⟩
  have loaded : environment.loadSchema "letters" = .ok schema :=
    loadSchema_of_text rfl read built
  have seventh : (assign schema.types).identifier? "ﬁ" = some 7 := by cbv
  have eighth : (assign schema.types).identifier? "𝔸" = some 8 := by cbv
  obtain ⟨numbers, _, _, _, _, shows⟩ := assign_in_order schema.types
  obtain ⟨success, prints⟩ := shows environment "letters" schema loaded rfl (some .raw)
  have rows : Command.numberedRows schema.types =
      [("Z", 6, .builtin), ("ﬁ", 7, .list), ("𝔸", 8, .singleton)] := by cbv
  have first : rowText ("Z", 6, .builtin) = "   6  Z  (Builtin)" := by cbv
  have second : rowText ("ﬁ", 7, .list) = "   7  ﬁ  (List)" := by cbv
  have third : rowText ("𝔸", 8, .singleton) = "   8  𝔸  (Singleton)" := by cbv
  rw [rows] at prints
  have named := (numbers.inverse "𝔸" 8).1 eighth
  refine ⟨schema, loaded, seventh, eighth, ?_, named, numbers.free _ _ named, ?_, success, ?_⟩
  · exact (numbers.ordered _ _ _ _ seventh eighth).2 (by decide)
  · intro name beyond
    exact absurd ((numbers.used 9).1 ⟨name, beyond⟩).2 (by decide)
  · rw [← first, ← second, ← third]
    exact prints

end IdentifierTable

end SchemaWire
