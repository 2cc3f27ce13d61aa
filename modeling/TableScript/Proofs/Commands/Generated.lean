import TableScript.Proofs.Commands.Output
import TableScript.Proofs.Documents.Stored
import TableScript.Proofs.RoundTrip.Parsed

/-!
Commands one after the other. The document that is written for a script is loaded as the schema of
the script just where loading finds nothing in it to refuse or to change, and then the script that
is generated from the document is the one that formatting prints.
-/

namespace TableScript.Command

/-- A command line that asks for a task on a source, with the document of it at a path or printed.
How much is put on record, and in which form, is left open. -/
def Asks (arguments : List String) (task : Task) (source : String) (document : Option String)
    (mode : Resolution) : Prop :=
  ∃ options, Request.ofArguments arguments = .run options ∧ options.task = task ∧
    options.source = some source ∧ options.jsonOut = document ∧ options.sqlOut = none ∧
    options.resolution = some mode

section Commands

variable {catalog : Option (List (CatalogTable Value Value))} {stamp : Stamp}
  {arguments : List String} {mode : Resolution} {tree : FileTree} {source path text : String}
  {names : List String}

/-- A command that ends well, with a text printed and no stand-ins in it. -/
def Succeeds (catalog : Option (List (CatalogTable Value Value))) (stamp : Stamp)
    (arguments : List String) (tree : FileTree) (printed : String) (after : FileTree) : Prop :=
  ∃ log, (run FileTree.storage catalog stamp arguments).run tree = (⟨0, printed, log, .none⟩, after)

theorem succeeds_ends {options : Options} {working : Work (StateM FileTree) Unit} {last : Session}
    {printed : String} {after : FileTree} (asked : Request.ofArguments arguments = .run options)
    (works : work FileTree.storage catalog options = working)
    (ends : Ends working ⟨"", [announcement options], .none⟩ tree () last after)
    (said : last.stdout = printed) (apart : last.standIns = .none) :
    Succeeds catalog stamp arguments tree printed after := by
  refine ⟨recordLines stamp options last.records, ?_⟩
  rw [run, asked, ← said, ← apart]
  simp only [runOptions, works, StateT.run_bind]
  rw [ends]
  rfl

theorem format_succeeds (asks : Asks arguments .format source none mode)
    (stands : sourceText tree source = .ok text) :
    Succeeds catalog stamp arguments tree (PlainSchema.script (parse mode text).1) tree := by
  obtain ⟨options, asked, task, given, jsonOut, sqlOut, resolution⟩ := asks
  obtain ⟨records, parsed⟩ := readParsed_ends given resolution stands
  have written := PlainSchema.script_written (parse mode text).1
  have ends : Ends (readParsed FileTree.storage options >>= output FileTree.storage options .script)
      ⟨"", [announcement options], .none⟩ tree () _ tree :=
    (parsed _).bind (output_printed jsonOut sqlOut written)
  exact succeeds_ends asked (by rw [work, task]) ends String.empty_append rfl

theorem parse_succeeds (asks : Asks arguments .parse source (some path) mode)
    (stands : sourceText tree source = .ok text) (file : FileTree.FilePath tree path names) :
    Succeeds catalog stamp arguments tree ("JSON schema saved to " ++ path ++ "\n")
      (FileTree.put names (Text.encode ((parse mode text).1.toDocument.indented .none)) tree) := by
  obtain ⟨options, asked, task, given, jsonOut, sqlOut, resolution⟩ := asks
  obtain ⟨records, parsed⟩ := readParsed_ends given resolution stands
  have ends : Ends (readParsed FileTree.storage options >>= output FileTree.storage options .document)
      ⟨"", [announcement options], .none⟩ tree () _ _ :=
    (parsed _).bind (output_written jsonOut sqlOut file)
  exact succeeds_ends asked (by rw [work, task]) ends String.empty_append rfl

theorem generate_succeeds {schema : PlainSchema} (asks : Asks arguments .generate path none mode)
    (holds : FileTree.read tree path = .ok (Text.encode (schema.toDocument.indented .none)))
    (nowhere : ∀ table ∈ schema.tables, table.position = none)
    (loaded : Schema.ofDocument schema.toDocument = .ok (PlainSchema.stored schema)) :
    Succeeds catalog stamp arguments tree (PlainSchema.script schema) tree := by
  obtain ⟨options, asked, task, given, jsonOut, sqlOut, resolution⟩ := asks
  obtain ⟨text, decoded, read⟩ := Document.bytes_restored _ (PlainSchema.document_plain schema nowhere)
  have written : (PlainSchema.stored schema).script = .ok (PlainSchema.script schema) := by
    rw [PlainSchema.stored_script, PlainSchema.script_written]
  have ends : Ends (readDocument FileTree.storage path >>= output FileTree.storage options .script)
      ⟨"", [announcement options], .none⟩ tree () _ tree :=
    (readDocument_ends holds decoded read loaded).bind (output_printed jsonOut sqlOut written)
  exact succeeds_ends asked (by rw [work, task, given]; rfl) ends String.empty_append rfl

end Commands

end TableScript.Command

namespace TableScript

open Lexeme Command

/-- A data type that reads back as it is spelled already has its one spelling. -/
theorem spelled_normalized (dataType : String) (spelled : SpelledType dataType) :
    normalizeType dataType = dataType := by
  obtain ⟨pieces, spells⟩ := spelled
  have reads : Reads dataType.toList [] (inkTokens pieces) :=
    spells.text ▸ reads_inks pieces [] (spells.written [] (by decide)) (by simp [Closed])
  rw [normalizeType, spelled_trimmed spells, tokenize_reads dataType _ reads, spells.rendered]

/-- The document of a script is loaded as the schema of the script just where loading finds nothing
to refuse or to change, which is so at least where every reference names a column and every data
type reads back as it is spelled. Then the command that generates a script from a document prints,
for the document that was written for a source, what the command that formats prints for the source
itself. -/
theorem generated_as_formatted (mode : Resolution) (text : String) :
    let schema := (parse mode text).1
    (Schema.ofDocument schema.toDocument = .ok (PlainSchema.stored schema) ↔
      PlainSchema.Storable schema) ∧
    ((∀ table ∈ schema.tables, ∀ column ∈ table.columns,
      PlainColumn.Complete column ∧ SpelledType column.dataType) → PlainSchema.Storable schema) ∧
    ∀ (catalog : Option (List (CatalogTable Value Value))) (stamp : Stamp)
      (formatting parsing generating : List String) (again : Resolution) (tree : FileTree)
      (source path : String) (names : List String),
      PlainSchema.Storable schema → sourceText tree source = .ok text →
      FileTree.FilePath tree path names → Asks formatting .format source none mode →
      Asks parsing .parse source (some path) mode → Asks generating .generate path none again →
      ∃ after, Succeeds catalog stamp formatting tree (PlainSchema.script schema) tree ∧
        Succeeds catalog stamp parsing tree ("JSON schema saved to " ++ path ++ "\n") after ∧
        Succeeds catalog stamp generating after (PlainSchema.script schema) after := by
  intro schema
  have linked : schema = (link mode (readStatements text).1).1 := parse_schema mode text
  have wellFormed : schema.WellFormed := linked ▸ Link.link_wellFormed mode _ (statements_named text)
  have nowhere : ∀ table ∈ schema.tables, table.position = none := linked ▸ Link.link_positions mode _
  have loaded := PlainSchema.loaded_iff wellFormed
  refine ⟨loaded, fun spelled table member column among => ?_, ?_⟩
  · obtain ⟨complete, dataType⟩ := spelled table member column among
    exact ⟨complete, spelled_normalized column.dataType dataType⟩
  · intro catalog stamp formatting parsing generating again tree source path names storable stands file
      asksFormat asksParse asksGenerate
    exact ⟨_, format_succeeds asksFormat stands, parse_succeeds asksParse stands file,
      generate_succeeds asksGenerate (file.read _) nowhere (loaded.mpr storable)⟩

-- A directory with one script, in which a table refers to another that is not there.
def visitText : String :=
  "create table visit (at int references day (id), who character varying(80))"

def visitTree : FileTree :=
  [(["in", "a.sql"], .file (Text.encode visitText)), (["in", "b.txt"], .file [])]

def visitSchema : PlainSchema :=
  ⟨[⟨"visit", [⟨"at", "int", false, true, false, some ⟨"day", "id"⟩⟩,
    ⟨"who", "character varying(80)", false, true, false, none⟩], none⟩]⟩

def visitScript : String :=
  "CREATE TABLE visit (\n  at int,\n  who character varying(80)\n);\n\n" ++
    "ALTER TABLE visit ADD FOREIGN KEY (at) REFERENCES day (id);\n"

theorem visit_parsed : (parse .deferred visitText).1 = visitSchema := by
  have same : Schema.same (parse .deferred visitText).1 visitSchema = true := by
    decide +kernel
  rw [Schema.same_iff, PlainSchema.parsed_unplaced] at same
  exact same

theorem visit_spelled : ∀ table ∈ visitSchema.tables, ∀ column ∈ table.columns,
    PlainColumn.Complete column ∧ SpelledType column.dataType := by
  have number : SpelledType "int" := ⟨[.word "int".toList], by decide +kernel⟩
  have name : SpelledType "character varying(80)" :=
    ⟨.word "character".toList :: wordInks ["varying"] ++
      [.mark '(', .number "80".toList, .mark ')'], by decide +kernel⟩
  refine List.forall_mem_singleton.mpr (List.forall_mem_cons.mpr ⟨⟨by decide, number⟩, ?_⟩)
  exact List.forall_mem_singleton.mpr ⟨by decide, name⟩

theorem visit_generated_as_formatted :
    (∀ table ∈ (parse .deferred visitText).1.tables, ∀ column ∈ table.columns,
        PlainColumn.Complete column ∧ SpelledType column.dataType) ∧
      PlainSchema.script (parse .deferred visitText).1 = visitScript ∧
      sourceText visitTree "in" = .ok visitText ∧
      FileTree.FilePath visitTree "in/m.json" ["in", "m.json"] ∧
      ∃ after,
        Succeeds none ⟨"", ""⟩ ["format", "--source", "in", "--resolution=deferred"] visitTree
          visitScript visitTree ∧
        Succeeds none ⟨"", ""⟩
          ["--json", "in/m.json", "parse", "--source", "in", "--resolution=deferred"] visitTree
          "JSON schema saved to in/m.json\n" after ∧
        Succeeds none ⟨"", ""⟩ ["-v", "generate", "--source", "in/m.json"] after visitScript after := by
  have written : PlainSchema.script (parse .deferred visitText).1 = visitScript := by
    rw [visit_parsed]
    decide +kernel
  have spelled : ∀ table ∈ (parse .deferred visitText).1.tables, ∀ column ∈ table.columns,
      PlainColumn.Complete column ∧ SpelledType column.dataType := by
    rw [visit_parsed]
    exact visit_spelled
  have stands : sourceText visitTree "in" = .ok visitText := by
    have found : (sourceText visitTree "in").toOption = some visitText := by decide +kernel
    cases same : sourceText visitTree "in" <;> simp_all [Except.toOption]
  have file : FileTree.FilePath visitTree "in/m.json" ["in", "m.json"] :=
    ⟨rfl, by decide +kernel⟩
  obtain ⟨_, storable, commands⟩ := generated_as_formatted .deferred visitText
  refine ⟨spelled, written, stands, file, ?_⟩
  rw [written] at commands
  exact commands none ⟨"", ""⟩ _ _ _ .deferred visitTree "in" "in/m.json" _ (storable spelled) stands
    file ⟨_, rfl, rfl, rfl, rfl, rfl, rfl⟩ ⟨_, rfl, rfl, rfl, rfl, rfl, rfl⟩
    ⟨_, rfl, rfl, rfl, rfl, rfl, rfl⟩

-- A reference to a column without a name is read, and refused when it is loaded.
example : (Schema.ofDocument (parse .deferred
    "CREATE TABLE t (a INT REFERENCES u (\"\"))").1.toDocument).toBool = false := by
  decide +kernel

end TableScript
