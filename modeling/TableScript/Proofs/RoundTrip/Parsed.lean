import TableScript.Proofs.RoundTrip.Schema

/-!
Scripts that are read, written and read again. A schema that comes from a script has everything
that is needed to write it, except that a name or a data type may be written as something else.
Where none is, the script that is written for the schema describes the same schema again, and is
the script that is written for that.
-/

namespace TableScript

open Lexeme

namespace Identifier

theorem undouble_part (quote : Char) (chars : List Char) :
    ∀ c ∈ undouble quote chars, c ∈ chars := by
  fun_induction undouble quote chars with
  | case1 => simp
  | case2 => simp
  | case3 c d rest same ih =>
      intro e member
      rcases List.mem_cons.mp member with rfl | later
      · exact same.1 ▸ List.mem_cons_self
      · exact List.mem_cons_of_mem _ (List.mem_cons_of_mem _ (ih e later))
  | case4 c d rest other ih =>
      intro e member
      rcases List.mem_cons.mp member with rfl | later
      · exact List.mem_cons_self
      · exact List.mem_cons_of_mem _ (ih e later)

theorem trimmed_part (chars : List Char) : ∀ c ∈ Text.trimChars chars, c ∈ chars := by
  intro c member
  have inner := (List.dropWhile_sublist _).mem (List.mem_reverse.mp member)
  exact (List.dropWhile_sublist _).mem (List.mem_reverse.mp inner)

/-- No zero-width space is left in a name that is cleaned. -/
theorem clean_visible (written : String) : '\u200B' ∉ (clean written).toList := by
  rw [clean, String.toList_ofList, cleanChars]
  have hidden : '\u200B' ∉ Text.trimChars (written.toList.filter fun c => c.toNat != 0x200B) := by
    intro member
    have kept := (List.mem_filter.mp (trimmed_part _ _ member)).2
    exact absurd kept (by decide)
  have inside : ∀ (quote : Char) (rest : List Char), '\u200B' ∉ quote :: rest →
      '\u200B' ∉ rest.dropLast := fun quote rest absent member =>
    absent (List.mem_cons_of_mem _ ((List.dropLast_sublist rest).mem member))
  split
  case h_1 rest same =>
    rw [same] at hidden ⊢
    split
    · exact fun member => inside _ rest hidden (undouble_part _ _ _ member)
    · exact hidden
  case h_2 rest same =>
    rw [same] at hidden ⊢
    split
    · exact fun member => inside _ rest hidden (undouble_part _ _ _ member)
    · exact hidden
  case h_3 rest same =>
    rw [same] at hidden ⊢
    split
    · exact inside _ rest hidden
    · exact hidden
  case h_4 => exact hidden

theorem IsRead.legible {name : String} (read : IsRead name) (clear : Clear name) : Legible name where
  toClear := clear
  visible := by
    obtain ⟨written, rfl⟩ := read
    exact clean_visible written

theorem IsFull.proper {name : String} (full : IsFull name) (clear : Clear name) : Proper name where
  toLegible := full.read.legible clear
  occupied := full.occupied

end Identifier

/-- A column of which the name, the data type and the reference are written as what they are. -/
structure PlainColumn.Clear (column : PlainColumn) : Prop where
  name : Identifier.Clear column.name
  dataType : SpelledType column.dataType
  reference : ∀ reference ∈ column.reference,
    Identifier.Clear reference.table ∧ Identifier.Clear reference.column

structure PlainTable.Clear (table : PlainTable) : Prop where
  name : Identifier.Clear table.name
  columns : ∀ column ∈ table.columns, PlainColumn.Clear column

namespace PlainSchema

/-- A schema of which everything is written as what it is. -/
def Clear (schema : PlainSchema) : Prop :=
  ∀ table ∈ schema.tables, PlainTable.Clear table

theorem settled_restorable (column : PlainColumn) (settles : Link.Settles column)
    (clear : PlainColumn.Clear column) : PlainColumn.Restorable column where
  name := settles.name.proper clear.name
  dataType := clear.dataType
  key := settles.key
  reference := by
    intro reference found
    obtain ⟨table, target⟩ := settles.reference reference found
    obtain ⟨clearTable, clearTarget⟩ := clear.reference reference found
    exact ⟨table.proper clearTable, target.legible clearTarget⟩

/-- A schema that is read lacks nothing that it needs to be read back, if it is clear. -/
theorem parsed_restorable (mode : Resolution) (text : String) (clear : Clear (parse mode text).1) :
    Restorable (parse mode text).1 := by
  rw [parse_schema] at clear ⊢
  have named := statements_named text
  have settled := Link.link_settles mode _ named
  refine ⟨fun table member => ?_, (Link.link_wellFormed mode _ named).distinct⟩
  have clearTable := clear table member
  exact ⟨(Link.link_named mode _ named table member).proper clearTable.name,
    fun column among => settled_restorable column (settled table member column among)
      (clearTable.columns column among),
    Link.link_distinct mode _ table member⟩

theorem unplaced_self (schema : PlainSchema)
    (nowhere : ∀ table ∈ schema.tables, table.position = none) : unplaced schema = schema := by
  have each : ∀ table ∈ schema.tables, { table with position := none } = table := by
    intro table member
    rw [← nowhere table member]
  exact congrArg Schema.mk ((List.map_congr_left each).trans (List.map_id' _))

theorem parsed_unplaced (mode : Resolution) (text : String) :
    unplaced (parse mode text).1 = (parse mode text).1 := by
  rw [parse_schema]
  exact unplaced_self _ (Link.link_positions mode _)

/-- Where everything in the schema of a script is clear, the script that is written for it makes
the same schema, in either mode, and is written again for that. -/
theorem rewritten_stable (mode again : Resolution) (text : String)
    (clear : Clear (parse mode text).1) :
    ∃ script, Schema.script (parse mode text).1 = .ok script ∧
      (parse again script).1 = (parse mode text).1 ∧
      Schema.script (parse again script).1 = .ok script := by
  have written := script_written (parse mode text).1
  have restored : (parse again (script (parse mode text).1)).1 = (parse mode text).1 := by
    rw [script_restored again _ (parsed_restorable mode text clear), parsed_unplaced]
  refine ⟨script (parse mode text).1, written, restored, ?_⟩
  rw [restored]
  exact written

/-- A name with a backslash, a data type of two words, and a reference to a column without a name. -/
def visits : String :=
  "create table [c:\\log] (who character varying(80) references day (\"\"))"

def visitsSchema : PlainSchema :=
  ⟨[⟨"c:\\log", [⟨"who", "character varying(80)", false, true, false, some ⟨"day", ""⟩⟩], none⟩]⟩

theorem visits_parsed : (parse .deferred visits).1 = visitsSchema := by
  have same : Schema.same (parse .deferred visits).1 visitsSchema = true := by
    decide +kernel
  rw [Schema.same_iff, parsed_unplaced] at same
  exact same

theorem visits_clear : Clear visitsSchema := by
  have words : SpelledType "character varying(80)" :=
    ⟨.word "character".toList :: wordInks ["varying"] ++
      [.mark '(', .number "80".toList, .mark ')'], by decide +kernel⟩
  refine List.forall_mem_singleton.mpr
    ⟨by decide +kernel, List.forall_mem_singleton.mpr ⟨by decide +kernel, words, ?_⟩⟩
  rintro reference ⟨rfl⟩
  exact ⟨by decide +kernel, by decide +kernel⟩

theorem visits_stable : Clear (parse .deferred visits).1 ∧
    ∃ script, Schema.script (parse .deferred visits).1 = .ok script ∧
      (parse .sequential script).1 = (parse .deferred visits).1 ∧
      Schema.script (parse .sequential script).1 = .ok script := by
  have clear : Clear (parse .deferred visits).1 := by
    rw [visits_parsed]
    exact visits_clear
  exact ⟨clear, rewritten_stable .deferred .sequential visits clear⟩

-- A name that is an operator is written bare, and its column is lost.
example : (parse .deferred (script (parse .deferred "CREATE TABLE t (\"DIV\" INT)").1)).1.tables.map
    (·.columns) = [[]] := by
  decide +kernel

end PlainSchema

end TableScript
