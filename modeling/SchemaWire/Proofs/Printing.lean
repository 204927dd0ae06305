import SchemaWire.Proofs.CanonicalText
import SchemaWire.Proofs.DecimalText
import SchemaWire.Proofs.HexText
import SchemaWire.Proofs.JsonText

/-! What stands on standard output.

Each format is told by the text or by the lines it puts there. Names, numbers, digits and JSON on one
line hold no line feed, so what is listed takes one line for each row.
-/

set_option autoImplicit false

namespace SchemaWire

/-! ## Texts on one line -/

def OneLine (text : String) : Prop := '\n' ∉ text.toList

instance (text : String) : Decidable (OneLine text) := inferInstanceAs (Decidable (¬ _))

theorem OneLine.append {front back : String} (first : OneLine front) (second : OneLine back) :
    OneLine (front ++ back) := by
  rw [OneLine, String.toList_append, List.mem_append, not_or]
  exact ⟨first, second⟩

theorem OneLine.intercalate {separator : String} {texts : List String} (apart : OneLine separator)
    (inside : ∀ text ∈ texts, OneLine text) : OneLine (separator.intercalate texts) := by
  rw [OneLine, String.toList_intercalate]
  exact Text.notMem_intercalate apart (List.forall_mem_map.2 inside)

theorem Numeral.oneLine_decimal (n : Nat) : OneLine (decimal n) := by
  have digits : ∀ d : Fin 10, Nat.digitChar d ≠ '\n' := by decide
  obtain ⟨first, rest, written, small, -⟩ := Decimal.Natural.exists_digits n
  rw [OneLine, written, List.mem_map]
  rintro ⟨d, member, newline⟩
  exact digits ⟨d, small d member⟩ newline

theorem Hex.oneLine_encode (bytes : Bytes) : OneLine (encode bytes) := by
  rw [OneLine, encode, String.toList_ofList]
  exact fun newline => absurd (mem_lowerDigits_of_mem newline) (by decide)

theorem Definition.Writable.oneLine_name {definition : Definition}
    (writable : definition.Writable) : OneLine definition.name :=
  writable.name.newline_notMem

theorem Kind.oneLine_keyword (kind : Kind) : OneLine kind.keyword :=
  kind.isWord_keyword.newline_notMem

namespace Decimal.Layout

variable {digits : List Char}

theorem newline_notMem_positional (exponent : Int) (plain : '\n' ∉ digits) :
    '\n' ∉ positional digits exponent := by
  have front (n : Nat) : '\n' ∉ digits.take n := fun member => plain (List.mem_of_mem_take member)
  have back (n : Nat) : '\n' ∉ digits.drop n := fun member => plain (List.mem_of_mem_drop member)
  have zeros (n : Nat) : '\n' ∉ List.replicate n '0' := by simp
  simp only [positional]
  split
  · simp [plain, zeros]
  · split
    · simp [front, back]
    · simp [plain, zeros]

theorem newline_notMem_scientific (leading : Int) (plain : '\n' ∉ digits) :
    '\n' ∉ scientific digits leading := by
  have power := Numeral.oneLine_decimal leading.natAbs
  have exponent : '\n' ∉ 'e' :: (if leading < 0 then '-' else '+') ::
      (Numeral.decimal leading.natAbs).toList := by
    have sign : '\n' ≠ if leading < 0 then '-' else '+' := by split <;> decide
    exact List.not_mem_cons_of_ne_of_not_mem (by decide)
      (List.not_mem_cons_of_ne_of_not_mem sign power)
  cases digits with
  | nil => exact exponent
  | cons first rest =>
    obtain ⟨notFirst, notRest⟩ := not_or.1 (List.mem_cons.not.1 plain)
    cases rest with
    | nil => simpa [scientific, notFirst] using exponent
    | cons second rest =>
      obtain ⟨notSecond, others⟩ := not_or.1 (List.mem_cons.not.1 notRest)
      simpa [scientific, notFirst, notSecond, others] using exponent

theorem oneLine_text (layout : Layout) (decimal : Decimal) : OneLine (layout.text decimal) := by
  have digits := Numeral.oneLine_decimal decimal.digits
  rw [OneLine, text, String.toList_ofList]
  split
  · exact newline_notMem_positional _ digits
  · exact newline_notMem_scientific _ digits

end Decimal.Layout

namespace Json

theorem newline_notMem_escaped (c : Char) : '\n' ∉ escaped c := by
  have digits (n : Nat) (small : n < 16) : Nat.digitChar n ≠ '\n' := by
    have each : ∀ n : Fin 16, Nat.digitChar n ≠ '\n' := by decide
    exact each ⟨n, small⟩
  unfold escaped
  repeat' split
  all_goals try decide
  · rename_i control
    have low : c.toNat < 32 := control
    have high := digits (c.toNat / 16) (by omega)
    have rest := digits (c.toNat % 16) (by omega)
    simp [high.symm, rest.symm]
  · rename_i other _ _ _
    simpa using Ne.symm other

theorem oneLine_quoted (text : String) : OneLine (quoted text) := by
  simp [OneLine, quoted, newline_notMem_escaped]

theorem Number.oneLine_text (number : Number) : OneLine number.text := by
  cases number with
  | natural n => exact Numeral.oneLine_decimal _
  | negative n => exact OneLine.append (by decide) (Numeral.oneLine_decimal _)
  | float x =>
    have sign : OneLine (if x.negative then "-" else "") := by split <;> decide
    exact sign.append (layout.oneLine_text _)

theorem oneLine_compact (json : Json) : OneLine json.compact := by
  induction json using Json.induction with
  | node json parts =>
    have bracketed {opening closing : String} {children : List String} (first : OneLine opening)
        (last : OneLine closing) (inside : ∀ child ∈ children, OneLine child) :
        OneLine (opening ++ ",".intercalate children ++ closing) :=
      (first.append (OneLine.intercalate (by decide) inside)).append last
    cases json with
    | null => decide
    | bool value => cases value <;> decide
    | number number => exact number.oneLine_text
    | string text => exact oneLine_quoted text
    | array items =>
      rw [compact, compactItems_eq]
      exact bracketed (by decide) (by decide) (List.forall_mem_map.2 parts)
    | object members =>
      rw [compact, compactMembers_eq]
      refine bracketed (by decide) (by decide) (List.forall_mem_map.2 fun member inside => ?_)
      exact ((oneLine_quoted _).append (by decide)).append (parts _ (List.mem_map_of_mem inside))

end Json

/-! ## Tables -/

namespace CommandLine

namespace Table

variable {widths : List Nat} {row : List String} {table : Table}

def rowLine (widths : List Nat) (row : List String) : List Char :=
  '│' :: ['┆'].intercalate (List.zipWith drawCell widths (row.map String.toList)) ++ ['│']

/-- The drawing of a table whose cells have one line each: a line for the header, one for each row,
and rules around them. -/
def ruled (table : Table) : List (List Char) :=
  let widths := table.widths
  let rows := table.rows.map fun row => [rowLine widths row]
  [drawRule widths top] ++ [rowLine widths table.header] ++ [drawRule widths belowHeader]
    ++ [drawRule widths betweenRows].intercalate rows ++ [drawRule widths bottom]

structure PlainRow (row : List String) : Prop where
  some : row ≠ []
  cells : ∀ cell ∈ row, OneLine cell

instance : DecidablePred PlainRow := fun row =>
  decidable_of_iff (row ≠ [] ∧ ∀ cell ∈ row, OneLine cell)
    ⟨fun parts => ⟨parts.1, parts.2⟩, fun plain => ⟨plain.some, plain.cells⟩⟩

structure Plain (table : Table) : Prop where
  header : PlainRow table.header
  rows : ∀ row ∈ table.rows, PlainRow row ∧ row.length = table.header.length

theorem drawRow_of_plain (plain : PlainRow row) : drawRow widths row = [rowLine widths row] := by
  have cells : row.map cellLines = row.map fun cell => [cell.toList] :=
    List.map_congr_left fun cell member => Text.lines_eq_singleton (plain.cells cell member)
  have height : ((row.map cellLines).map List.length).foldl max 0 = 1 := by
    rw [cells, List.map_map, List.foldl_map]
    cases row with
    | nil => exact absurd rfl plain.some
    | cons cell row => exact List.foldl_fixed' (fun _ => rfl) row
  have first : ((row.map cellLines).map fun lines => (lines[0]?).getD []) =
      row.map String.toList := by
    rw [cells, List.map_map]
    rfl
  simp only [drawRow, height, List.range_one, List.map_singleton, first, rowLine]

theorem draw_of_plain (plain : table.Plain) : table.draw = table.ruled := by
  have rows : table.rows.map (drawRow table.widths) =
      table.rows.map fun row => [rowLine table.widths row] :=
    List.map_congr_left fun row member => drawRow_of_plain (plain.rows row member).1
  simp only [draw, ruled, rows, drawRow_of_plain plain.header]

theorem length_widths (plain : table.Plain) : table.widths.length = table.header.length := by
  have folded (rows : List (List String)) (widths : List Nat)
      (even : ∀ row ∈ rows, row.length = widths.length) :
      (rows.foldl (fun widths row => List.zipWith max widths (row.map cellWidth)) widths).length =
        widths.length := by
    induction rows generalizing widths with
    | nil => rfl
    | cons row rows ih =>
      obtain ⟨here, there⟩ := List.forall_mem_cons.1 even
      have same : (List.zipWith max widths (row.map cellWidth)).length = widths.length := by
        simp [here]
      rw [List.foldl_cons, ih _ fun row member => (there row member).trans same.symm, same]
  have even : ∀ row ∈ table.rows, row.length = (table.header.map cellWidth).length := by
    intro row member
    rw [List.length_map]
    exact (plain.rows row member).2
  rw [widths, folded _ _ even, List.length_map]

/-- In the line of a row stand all of its cells. -/
theorem cell_infix_rowLine (plain : table.Plain) (listed : row ∈ table.rows) {cell : String}
    (held : cell ∈ row) : cell.toList <:+: rowLine table.widths row := by
  obtain ⟨i, bound, rfl⟩ := List.mem_iff_getElem.1 held
  have column : i < table.widths.length := by
    rw [length_widths plain, ← (plain.rows row listed).2]
    exact bound
  let cells := List.zipWith drawCell table.widths (row.map String.toList)
  have drawn : drawCell table.widths[i] row[i].toList ∈ cells := by
    refine List.mem_iff_getElem.2 ⟨i, by simp [cells, column, bound], ?_⟩
    simp [cells]
  have inCell : row[i].toList <:+: drawCell table.widths[i] row[i].toList := ⟨[' '], _, rfl⟩
  have inLine : ['┆'].intercalate cells <:+: rowLine table.widths row := ⟨['│'], ['│'], rfl⟩
  exact (inCell.trans (Text.infix_intercalate drawn)).trans inLine

theorem newline_notMem_drawRule (widths : List Nat) {rule : Rule}
    (plain : '\n' ∉ [rule.left, rule.along, rule.between, rule.right]) :
    '\n' ∉ drawRule widths rule := by
  simp only [List.mem_cons, List.not_mem_nil, or_false, not_or] at plain
  obtain ⟨left, along, between, right⟩ := plain
  have segments : '\n' ∉ [rule.between].intercalate
      (widths.map fun width => List.replicate (width + 2) rule.along) := by
    refine Text.notMem_intercalate (by simpa using between) (List.forall_mem_map.2 fun width _ => ?_)
    simp [along]
  simp [drawRule, left, right, segments]

theorem newline_notMem_rowLine (widths : List Nat) (plain : PlainRow row) :
    '\n' ∉ rowLine widths row := by
  have cells : '\n' ∉ ['┆'].intercalate
      (List.zipWith drawCell widths (row.map String.toList)) := by
    refine Text.notMem_intercalate (by decide) fun cell member => ?_
    obtain ⟨i, bound, rfl⟩ := List.mem_iff_getElem.1 member
    have inRow : i < row.length := by
      rw [List.length_zipWith, List.length_map] at bound
      omega
    have inside : '\n' ∉ row[i].toList := plain.cells _ (List.getElem_mem inRow)
    rw [List.getElem_zipWith, List.getElem_map]
    simp [drawCell, inside]
  simp [rowLine, cells]

theorem newline_notMem_ruled (plain : table.Plain) : ∀ line ∈ table.ruled, '\n' ∉ line := by
  have rule (rule : Rule) (plain : '\n' ∉ [rule.left, rule.along, rule.between, rule.right]) :=
    newline_notMem_drawRule table.widths plain
  have rows : ∀ line ∈ [drawRule table.widths betweenRows].intercalate
      (table.rows.map fun row => [rowLine table.widths row]), '\n' ∉ line := by
    intro line member
    rcases Text.mem_intercalate member with between | ⟨lines, listed, inside⟩
    · obtain rfl := List.mem_singleton.1 between
      exact rule betweenRows (by decide)
    · obtain ⟨row, row_mem, rfl⟩ := List.mem_map.1 listed
      obtain rfl := List.mem_singleton.1 inside
      exact newline_notMem_rowLine _ (plain.rows row row_mem).1
  simp only [ruled, List.forall_mem_append, List.forall_mem_singleton]
  exact ⟨⟨⟨⟨rule top (by decide), newline_notMem_rowLine _ plain.header⟩,
    rule belowHeader (by decide)⟩, rows⟩, rule bottom (by decide)⟩

theorem lines_text (plain : table.Plain) :
    Text.lines (table.text ++ "\n").toList = table.ruled ++ [[]] := by
  have drawn : table.text.toList = ['\n'].intercalate table.ruled := by
    rw [text, String.toList_intercalate, List.map_map, draw_of_plain plain]
    simp [Function.comp_def]
  have cut : Text.lines (['\n'].intercalate table.ruled) = table.ruled :=
    Text.lines_eq_iff.2 ⟨by simp [ruled], newline_notMem_ruled plain, rfl⟩
  have ended : (table.text ++ "\n").toList = ['\n'].intercalate table.ruled ++ '\n' :: [] := by
    rw [String.toList_append, drawn]
    rfl
  rw [ended, Text.lines_append_newline, cut]
  rfl

end Table

/-! ## Lines -/

variable {environment : Environment} {table : Table} {text type : String} {stdout : Bytes}
  {format : Format}

/-- The lines stand there, each of them ended, and nothing else. -/
def PrintsLines (lines : List (List Char)) (stdout : Bytes) : Prop :=
  ∃ text, stdout = Bytes.ofText text ∧ Text.lines text.toList = lines ++ [[]]

theorem printsLines_iff {lines : List (List Char)} (unbroken : ∀ line ∈ lines, '\n' ∉ line) :
    PrintsLines lines stdout ↔
      stdout = Bytes.ofText (String.ofList (lines.flatMap (· ++ ['\n']))) := by
  have ended := Text.lines_of_ended unbroken
  constructor
  · rintro ⟨text, rfl, cut⟩
    have same : text.toList = lines.flatMap (· ++ ['\n']) :=
      (Text.lines_eq_iff.1 (cut.trans ended.symm)).2.2.symm.trans (Text.lines_eq_iff.1 rfl).2.2
    rw [← same, String.ofList_toList]
  · rintro rfl
    exact ⟨_, rfl, by rw [String.toList_ofList, ended]⟩

theorem printsLines_singleton (plain : OneLine text) :
    PrintsLines [text.toList] stdout ↔ stdout = Bytes.ofText (text ++ "\n") := by
  rw [printsLines_iff (List.forall_mem_singleton.2 plain), List.flatMap_singleton,
    String.ofList_append, String.ofList_toList]

/-- JSON stands there on one line, in a text that reads back as the value. -/
structure PrintsJson (json : Json) (stdout : Bytes) : Prop where
  line : PrintsLines [json.compact.toList] stdout
  spells : Json.Spells json.compact json

theorem printsJson_iff {json : Json} (exact : json.Exact) :
    PrintsJson json stdout ↔ stdout = Bytes.ofText (json.compact ++ "\n") := by
  have line : PrintsLines [json.compact.toList] stdout ↔ _ :=
    printsLines_singleton json.oneLine_compact
  exact ⟨fun prints => line.1 prints.line, fun same => ⟨line.2 same, Json.spells_compact exact⟩⟩

/-- A table stands there: as the terminal wants it, and without a terminal on a line for each row
that has the cells of the row in it. -/
structure Tabulates (environment : Environment) (table : Table) (stdout : Bytes) : Prop where
  layout : stdout = Bytes.ofText (environment.layout table ++ "\n")
  lines : environment.terminal = none → PrintsLines table.ruled stdout
  cells : ∀ row ∈ table.rows, ∀ cell ∈ row, cell.toList <:+: Table.rowLine table.widths row

theorem tabulates_iff (plain : table.Plain) :
    Tabulates environment table stdout ↔
      stdout = Bytes.ofText (environment.layout table ++ "\n") := by
  refine ⟨Tabulates.layout, fun same => ⟨same, fun none => ⟨_, same, ?_⟩, fun row listed cell => ?_⟩⟩
  · rw [Environment.layout, none]
    exact Table.lines_text plain
  · exact Table.cell_infix_rowLine plain listed

/-! ## Formats -/

/-- A row of a listing: the number at the right end of four columns, the name and the kind. -/
def rowText (row : String × Identifier × Kind) : String :=
  let (name, identifier, kind) := row
  let digits := Numeral.decimal identifier
  String.ofList (List.replicate (4 - digits.toList.length) ' ') ++ digits
    ++ s!"  {name}  ({kind.keyword})"

def PrintsRows (environment : Environment) (rows : List (String × Identifier × Kind))
    (stdout : Bytes) : Format → Prop
  | .json =>
    let object := fun (name, identifier, (kind : Kind)) =>
      Json.object [("name", .string name), ("identifier", .number (.natural (.ofNat identifier))),
        ("kind", .string kind.keyword)]
    PrintsJson (.array (rows.map object)) stdout
  | .table =>
    let cells := fun (name, identifier, (kind : Kind)) =>
      [Numeral.decimal identifier, name, kind.keyword]
    Tabulates environment ⟨["ID", "NAME", "KIND"], rows.map cells⟩ stdout
  | .pretty | .raw => PrintsLines (rows.map fun row => (rowText row).toList) stdout

def PrintsBytes (environment : Environment) (type : String) (identifier : Identifier)
    (framed : Bool) (bytes stdout : Bytes) : Format → Prop
  | .json =>
    PrintsJson
      (.object [("type", .string type), ("identifier", .number (.natural (.ofNat identifier))),
        ("framed", .bool framed), ("size", .number (.natural (.ofNat bytes.length))),
        ("hex", .string (Hex.encode bytes))])
      stdout
  | .table =>
    let cells := [type, Numeral.decimal identifier, Numeral.decimal bytes.length, Hex.encode bytes]
    Tabulates environment ⟨["TYPE", "ID", "SIZE", "HEX"], [cells]⟩ stdout
  | .pretty => PrintsLines [(Hex.encode bytes).toList] stdout
  | .raw => stdout = bytes

def PrintsValue (environment : Environment) (type : String) (json : Json) (stdout : Bytes) :
    Format → Prop
  | .json => PrintsJson (.object [("type", .string type), ("value", json)]) stdout
  | .table =>
    Tabulates environment ⟨["TYPE", "VALUE"], [[type, json.compact]]⟩ stdout ∧
      Json.Spells json.compact json
  | .pretty => stdout = Bytes.ofText (json.pretty ++ "\n") ∧ Json.Spells json.pretty json
  | .raw => PrintsJson json stdout

theorem oneLine_rowText {row : String × Identifier × Kind} (plain : OneLine row.1) :
    OneLine (rowText row) := by
  have blanks (n : Nat) : OneLine (String.ofList (List.replicate n ' ')) := by simp [OneLine]
  have tail : OneLine s!"  {row.1}  ({row.2.2.keyword})" :=
    ((((by decide : OneLine "  ").append plain).append (by decide)).append
      row.2.2.oneLine_keyword).append (by decide)
  exact ((blanks _).append (Numeral.oneLine_decimal _)).append tail

theorem print_eq_iff :
    Outcome.print text = ⟨.success, stdout, ""⟩ ↔ stdout = Bytes.ofText text := by
  simp [Outcome.print, eq_comm]

theorem exact_natural (n : Nat) : (Json.number (.natural (.ofNat n))).Exact := .number (.natural _)

section

variable {rows : List (String × Identifier × Kind)}

theorem printsRows_iff (plain : ∀ row ∈ rows, OneLine row.1) :
    PrintsRows environment rows stdout format ↔
      Command.showIdentifiers environment format rows = ⟨.success, stdout, ""⟩ := by
  cases format with
  | json =>
    have keys : ["name", "identifier", "kind"].Nodup := by decide
    refine (printsJson_iff (.array (List.forall_mem_map.2 fun row _ => ?_))).trans print_eq_iff.symm
    refine .object ?_ ?_
    · exact keys
    simp only [List.forall_mem_cons]
    exact ⟨.string _, exact_natural _, .string _, nofun⟩
  | table =>
    have header : Table.PlainRow ["ID", "NAME", "KIND"] := by decide
    refine (tabulates_iff ⟨header, List.forall_mem_map.2 fun row member => ?_⟩).trans
      print_eq_iff.symm
    refine ⟨⟨List.cons_ne_nil _ _, ?_⟩, rfl⟩
    simp only [List.forall_mem_cons]
    exact ⟨Numeral.oneLine_decimal _, plain row member, row.2.2.oneLine_keyword, nofun⟩
  | pretty | raw =>
    have ended : String.ofList ((rows.map fun row => (rowText row).toList).flatMap (· ++ ['\n'])) =
        String.join (rows.map fun (name, identifier, (kind : Kind)) =>
          s!"{Command.alignRight identifier}  {name}  ({kind.keyword})\n") := by
      have closing : (toString ")\n").toList = (toString ")").toList ++ ['\n'] := rfl
      have aligned (n : Nat) : (toString (Command.alignRight n)).toList =
          List.replicate (4 - (Numeral.decimal n).toList.length) ' ' ++
            (Numeral.decimal n).toList := String.toList_ofList
      rw [← String.toList_inj, String.toList_ofList, String.toList_join, List.flatMap_map,
        List.flatMap_map]
      simp [rowText, aligned, closing]
    have unbroken : ∀ line ∈ rows.map fun row => (rowText row).toList, '\n' ∉ line :=
      List.forall_mem_map.2 fun row member => oneLine_rowText (plain row member)
    refine (printsLines_iff unbroken).trans ?_
    rw [ended]
    exact print_eq_iff.symm

theorem exists_printsRows (plain : ∀ row ∈ rows, OneLine row.1) :
    ∃ stdout, PrintsRows environment rows stdout format := by
  simp only [printsRows_iff plain]
  cases format <;> exact ⟨_, rfl⟩

end

section

variable {identifier : Identifier} {framed : Bool} {bytes : Bytes}

theorem printsBytes_iff (plain : OneLine type) :
    PrintsBytes environment type identifier framed bytes stdout format ↔
      Command.showEncoded environment format type identifier framed bytes =
        ⟨.success, stdout, ""⟩ := by
  cases format with
  | json =>
    have keys : ["type", "identifier", "framed", "size", "hex"].Nodup := by decide
    refine (printsJson_iff (.object ?_ ?_)).trans print_eq_iff.symm
    · exact keys
    simp only [List.forall_mem_cons]
    exact ⟨.string _, exact_natural _, .bool _, exact_natural _, .string _, nofun⟩
  | table =>
    have header : Table.PlainRow ["TYPE", "ID", "SIZE", "HEX"] := by decide
    refine (tabulates_iff ⟨header, List.forall_mem_singleton.2 ?_⟩).trans print_eq_iff.symm
    refine ⟨⟨List.cons_ne_nil _ _, ?_⟩, rfl⟩
    simp only [List.forall_mem_cons]
    exact ⟨plain, Numeral.oneLine_decimal _, Numeral.oneLine_decimal _, Hex.oneLine_encode bytes,
      nofun⟩
  | pretty => exact (printsLines_singleton (Hex.oneLine_encode bytes)).trans print_eq_iff.symm
  | raw => simp [PrintsBytes, Command.showEncoded, eq_comm]

theorem exists_printsBytes (plain : OneLine type) :
    ∃ stdout, PrintsBytes environment type identifier framed bytes stdout format := by
  simp only [printsBytes_iff plain]
  cases format <;> exact ⟨_, rfl⟩

end

section

variable {json : Json}

theorem printsValue_iff (plain : OneLine type) (exact : json.Exact) :
    PrintsValue environment type json stdout format ↔
      Command.showDecoded environment format type json = ⟨.success, stdout, ""⟩ := by
  cases format with
  | json =>
    have keys : ["type", "value"].Nodup := by decide
    refine (printsJson_iff (.object ?_ ?_)).trans print_eq_iff.symm
    · exact keys
    simp only [List.forall_mem_cons]
    exact ⟨.string _, exact, nofun⟩
  | table =>
    have header : Table.PlainRow ["TYPE", "VALUE"] := by decide
    refine (and_iff_left (Json.spells_compact exact)).trans ?_
    refine (tabulates_iff ⟨header, List.forall_mem_singleton.2 ?_⟩).trans print_eq_iff.symm
    refine ⟨⟨List.cons_ne_nil _ _, ?_⟩, rfl⟩
    simp only [List.forall_mem_cons]
    exact ⟨plain, json.oneLine_compact, nofun⟩
  | pretty => exact (and_iff_left (Json.spells_pretty exact)).trans print_eq_iff.symm
  | raw => exact (printsJson_iff exact).trans print_eq_iff.symm

theorem exists_printsValue (plain : OneLine type) (exact : json.Exact) :
    ∃ stdout, PrintsValue environment type json stdout format := by
  simp only [printsValue_iff plain exact]
  cases format <;> exact ⟨_, rfl⟩

end

/-! ## Schemas -/

theorem oneLine_of_loadSchema {path : String} {schema : Schema} {definition : Definition}
    (loaded : environment.loadSchema path = .ok schema)
    (bound : definition ∈ schema.types.definitions) : OneLine definition.name := by
  obtain ⟨text, -, compiled⟩ := Environment.loadSchema_eq_ok_iff.1 loaded
  obtain ⟨definitions, read, built⟩ := Schema.compile_eq_ok_iff.1 compiled
  have member := (Namespace.perm_of_build built).mem_iff.1 bound
  exact (SchemaText.writable_of_parse read definition member).oneLine_name

end CommandLine

end SchemaWire
