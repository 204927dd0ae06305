import SchemaWire.CommandLine.Run
import SchemaWire.Proofs.DefinitionOrder
import SchemaWire.Proofs.SchemaLine

/-! Canonical schema text is read back as the namespace it was printed from.

The reader returns writable definitions only, and the line of a writable definition is read back.
Sorting the definitions by name leaves nothing of the text they came from but what it means.
-/

set_option autoImplicit false

namespace SchemaWire

/-! ## Reading back -/

namespace SchemaText

theorem lines_render {types : Namespace}
    (writable : ∀ definition ∈ types.ordered, definition.Writable) :
    Text.lines types.render.toList = types.ordered.map (·.text.toList) ++ [[]] := by
  have ended : types.render.toList =
      (types.ordered.map (·.text.toList)).flatMap (· ++ ['\n']) := by
    simp [Namespace.render, String.toList_join, List.flatMap_map]
  rw [ended]
  apply Text.lines_of_ended
  intro line member
  obtain ⟨definition, inside, rfl⟩ := List.mem_map.1 member
  exact (writable definition inside).newline_notMem_text

theorem parse_render {types : Namespace}
    (writable : ∀ definition ∈ types.ordered, definition.Writable) :
    parse types.render = .ok types.ordered := by
  rw [parse, lines_render writable, parseLines_eq_ok_iff]
  have lineWords : (types.ordered.map (·.text.toList)).map Text.words =
      types.ordered.map (·.words.map String.toList) := by
    rw [List.map_map]
    apply List.map_congr_left
    intro definition member
    exact (writable definition member).words_text
  refine ⟨writable, ?_⟩
  -- What follows the last line end is blank, and the lines before it are not.
  rw [List.map_append, lineWords, List.filter_append, List.filter_eq_self.2]
  · exact (List.append_nil _).symm
  · intro words member
    obtain ⟨definition, -, rfl⟩ := List.mem_map.1 member
    rfl

theorem writable_of_parse {text : String} {definitions : List Definition}
    (read : parse text = .ok definitions) : ∀ definition ∈ definitions, definition.Writable :=
  (parseLines_eq_ok_iff.1 read).1

theorem reread {text : String} {definitions : List Definition} {types : Namespace}
    (read : parse text = .ok definitions) (built : Namespace.build definitions = .ok types) :
    parse types.render = .ok types.ordered ∧
      ∃ again, Namespace.build types.ordered = .ok again ∧ again.Same types := by
  have perm := types.ordered_perm.trans (Namespace.perm_of_build built)
  obtain ⟨again, rebuilt⟩ := Namespace.exists_build_iff.2
    ((Namespace.exists_build_iff.1 ⟨types, built⟩).of_perm perm.symm)
  refine ⟨parse_render ?_, again, rebuilt, ?_⟩
  · intro definition member
    exact writable_of_parse read definition (perm.mem_iff.1 member)
  · exact (Namespace.perm_of_build rebuilt).trans types.ordered_perm

end SchemaText

/-! ## Compiling -/

namespace Schema

theorem ofNamespace_eq_ok_iff {types : Namespace} {schema : Schema} :
    ofNamespace types = .ok schema ↔ schema.types = types := by
  constructor
  · intro compiled
    unfold ofNamespace at compiled
    split at compiled
    · cases compiled
      rfl
    · cases compiled
  · intro same
    subst same
    unfold ofNamespace
    split
    · rfl
    · rename_i invalid
      cases schema.valid.symm.trans invalid

theorem compile_eq_ok_iff {text : String} {schema : Schema} :
    compile text = .ok schema ↔
      ∃ definitions, SchemaText.parse text = .ok definitions ∧
        Namespace.build definitions = .ok schema.types := by
  simp [compile, ofNamespace_eq_ok_iff]

theorem compile_render {text : String} {schema : Schema} (compiled : compile text = .ok schema) :
    ∃ reloaded, compile schema.types.render = .ok reloaded ∧
      reloaded.types.Same schema.types := by
  obtain ⟨definitions, read, built⟩ := compile_eq_ok_iff.1 compiled
  obtain ⟨reread, again, rebuilt, same⟩ := SchemaText.reread read built
  have valid : again.validate = .ok () := same.validate.trans schema.valid
  exact ⟨⟨again, valid⟩, compile_eq_ok_iff.2 ⟨_, reread, rebuilt⟩, same⟩

end Schema

/-! ## The command -/

namespace CommandLine

theorem Environment.loadSchema_eq_ok_iff {environment : Environment} {path : String}
    {schema : Schema} :
    environment.loadSchema path = .ok schema ↔
      ∃ text, environment.readText path = .ok text ∧ Schema.compile text = .ok schema := by
  simp [loadSchema, Schema.compileFile]

theorem Environment.readText_of_contents {environment : Environment} {path text : String}
    (contents : environment.contentsAt path = .ok (Bytes.ofText text)) :
    environment.readText path = .ok text := by
  rw [readText, contents]
  simp [textOf]

variable {environment : Environment} {path : String} {schema : Schema}

theorem loadSchema_of_text {text : String} {definitions : List Definition}
    (contents : environment.contentsAt path = .ok (Bytes.ofText text))
    (read : SchemaText.parse text = .ok definitions)
    (built : Namespace.build definitions = .ok schema.types) :
    environment.loadSchema path = .ok schema :=
  Environment.loadSchema_eq_ok_iff.2 ⟨text, Environment.readText_of_contents contents,
    Schema.compile_eq_ok_iff.2 ⟨definitions, read, built⟩⟩

theorem run_fmt (loaded : environment.loadSchema path = .ok schema) (format : Option Format) :
    Invocation.run environment ⟨format, .fmt path false⟩ = .print schema.types.render := by
  simp only [Invocation.run, Command.run, Command.runFmt, loaded]
  rfl

theorem run_check {text : String} (loaded : environment.loadSchema path = .ok schema)
    (current : environment.readText path = .ok text) (format : Option Format) :
    Invocation.run environment ⟨format, .fmt path true⟩ =
      if text = schema.types.render then .print ""
      else ⟨.failure, [], s!"{path}: not in canonical form\n"⟩ := by
  have checked : Command.runFmt environment path true =
      .ok (if text = schema.types.render then .print ""
        else ⟨.failure, [], s!"{path}: not in canonical form\n"⟩) := by
    simp only [Command.runFmt, loaded, current]
    by_cases canonical : text = schema.types.render
    · rw [if_pos canonical]
      exact if_pos canonical
    · rw [if_neg canonical]
      exact if_neg canonical
  simp only [Invocation.run, Command.run, checked]

/-- Canonical text is read and bound to the definitions that it was printed from, so that it has the
same identifiers and is printed again as it is. The command therefore prints text that compiles to
the same schema and passes its check, and what passes the check of a file that compiles is canonical
text and nothing else. -/
theorem canonical_text_fixpoint :
    (∀ text definitions types, SchemaText.parse text = .ok definitions →
      Namespace.build definitions = .ok types →
      ∃ reread again, SchemaText.parse types.render = .ok reread ∧
        Namespace.build reread = .ok again ∧ again.Same types ∧
        IdentifierTable.assign again = IdentifierTable.assign types ∧
        again.render = types.render) ∧
    ∀ environment path schema format, Environment.loadSchema environment path = .ok schema →
      Invocation.run environment ⟨format, .fmt path false⟩ = .print schema.types.render ∧
      (∀ later file, Environment.contentsAt later file =
          .ok (Invocation.run environment ⟨format, .fmt path false⟩).stdout →
        ∃ reloaded, later.loadSchema file = .ok reloaded ∧ reloaded.types.Same schema.types ∧
          reloaded.identifiers = schema.identifiers ∧
          ∀ format, (Invocation.run later ⟨format, .fmt file true⟩).exit = .success) ∧
      ((Invocation.run environment ⟨format, .fmt path true⟩).exit = .success ↔
        environment.readText path = .ok schema.types.render) := by
  constructor
  · intro text definitions types read built
    obtain ⟨reread, again, rebuilt, same⟩ := SchemaText.reread read built
    exact ⟨types.ordered, again, reread, rebuilt, same, same.assign, same.render⟩
  · intro environment path schema format loaded
    obtain ⟨text, current, compiled⟩ := Environment.loadSchema_eq_ok_iff.1 loaded
    have printed := run_fmt loaded format
    rw [printed]
    refine ⟨rfl, ?_, ?_⟩
    · intro later file contents
      have kept := Environment.readText_of_contents contents
      obtain ⟨reloaded, recompiled, same⟩ := Schema.compile_render compiled
      have loadedAgain := Environment.loadSchema_eq_ok_iff.2 ⟨_, kept, recompiled⟩
      refine ⟨reloaded, loadedAgain, same, same.assign, fun format => ?_⟩
      rw [run_check loadedAgain kept, if_pos same.render.symm]
      rfl
    · rw [run_check loaded current, current, Except.ok.injEq]
      split
      · rename_i canonical
        exact iff_of_true rfl canonical
      · rename_i other
        exact iff_of_false nofun other

/-- A file with blank lines, tabs and line ends of two kinds does not pass the check, and what is
printed in its place does. -/
theorem canonical_text_fixpoint_sums :
    let untidy := "\r\nΣ:\tEnum  Bit   This\r\n\nBit: Builtin Bool"
    let tidy := "Bit: Builtin Bool\nΣ: Enum Bit This\n"
    let holding (contents : Bytes) : Environment :=
      { contentsAt := fun _ => .ok contents, stdin := .ok [] }
    let printed := Invocation.run (holding (Bytes.ofText untidy)) ⟨none, .fmt "sums" false⟩
    printed = .print tidy ∧
      (Invocation.run (holding (Bytes.ofText untidy)) ⟨none, .fmt "sums" true⟩).exit ≠ .success ∧
      (Invocation.run (holding printed.stdout) ⟨none, .fmt "sums" true⟩).exit = .success ∧
      ∃ reread again, SchemaText.parse tidy = .ok reread ∧ Namespace.build reread = .ok again ∧
        again.render = tidy := by
  intro untidy tidy holding printed
  let bit : Definition := ⟨"Bit", .builtin .bool⟩
  let sum : Definition := ⟨"Σ", .enum [.named "Bit", .self]⟩
  let schema : Schema := ⟨⟨[bit, sum], by decide⟩, by cbv⟩
  have read : SchemaText.parse untidy = .ok [sum, bit] :=
    SchemaText.parseLines_eq_ok_iff.2 ⟨by decide, by decide⟩
  have built : Namespace.build [sum, bit] = .ok schema.types :=
    Namespace.build_eq_ok_iff.2 ⟨by decide, rfl⟩
  have current : (holding (Bytes.ofText untidy)).readText "sums" = .ok untidy :=
    Environment.readText_of_contents rfl
  have loaded : (holding (Bytes.ofText untidy)).loadSchema "sums" = .ok schema :=
    loadSchema_of_text rfl read built
  have ordered : schema.types.ordered = [bit, sum] := by cbv
  have rendered : schema.types.render = tidy := by
    rw [Namespace.render, ordered]
    decide
  obtain ⟨fixed, command⟩ := canonical_text_fixpoint
  obtain ⟨prints, settles, checks⟩ := command _ _ schema none loaded
  obtain ⟨reread, again, parsed, rebuilt, -, -, same⟩ := fixed untidy _ schema.types read built
  rw [rendered] at parsed same
  refine ⟨?_, ?_, ?_, reread, again, parsed, rebuilt, same⟩
  · rw [← rendered]
    exact prints
  · intro passes
    have same := checks.1 passes
    rw [current, rendered] at same
    exact absurd (Except.ok.inj same) (by decide)
  · obtain ⟨reloaded, -, -, -, passes⟩ := settles (holding printed.stdout) "sums" rfl
    exact passes none

end CommandLine

end SchemaWire
