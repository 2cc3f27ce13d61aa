import TableScript.Proofs.Linking.Declared

/-!
What becomes of a single column while a list of constraints is bound. The flags only depend on
which constraints there are. A reference may depend on the primary key of another table at the
time, so for it the order counts.
-/

namespace TableScript.Link

/-- What one item of a list of constraints does to a column of a table. -/
def stepColumn (tables : List PlainTable) (item : String × Constraint) (table : PlainTable)
    (column : PlainColumn) : PlainColumn :=
  if table.name = item.1 then boundColumn tables table item.2 column else column

def stepTable (tables : List PlainTable) (item : String × Constraint) (table : PlainTable) :
    PlainTable :=
  table.mapColumns (stepColumn tables item table)

def evolve : List (String × Constraint) → List PlainTable → PlainTable → PlainColumn → PlainColumn
  | [], _, _, column => column
  | item :: rest, tables, table, column =>
      evolve rest (bindTo tables item) (stepTable tables item table) (stepColumn tables item table column)

theorem bindTo_eq_map (tables : List PlainTable) (item : String × Constraint) :
    bindTo tables item = tables.map (stepTable tables item) := by
  apply List.map_congr_left
  intro table _
  by_cases same : table.name = item.1
  · rw [if_pos same, stepTable]
    exact table.mapColumns_congr _ _ fun column _ => (if_pos same).symm
  · rw [if_neg same, stepTable]
    exact (table.mapColumns_id).symm.trans
      (table.mapColumns_congr _ _ fun column _ => (if_neg same).symm)

theorem bind_all_eq_map (items : List (String × Constraint)) (tables : List PlainTable) :
    items.foldl bindTo tables = tables.map fun table => table.mapColumns (evolve items tables table) := by
  induction items generalizing tables with
  | nil => exact (List.map_id' tables).symm.trans (List.map_congr_left fun table _ =>
      (table.mapColumns_id).symm)
  | cons item rest ih =>
      rw [List.foldl_cons, ih, bindTo_eq_map, List.map_map]
      apply List.map_congr_left
      intro table _
      simp only [Function.comp_apply, evolve, ← bindTo_eq_map]
      exact Table.mapColumns_mapColumns _ _ table

theorem bind_all_names (items : List (String × Constraint)) (tables : List PlainTable) :
    tableNames (items.foldl bindTo tables) = tableNames tables := by
  rw [bind_all_eq_map, tableNames, tableNames, List.map_map]
  rfl

/-- The table with a name after some constraints are bound. -/
theorem bound_table (items : List (String × Constraint)) (statements : List Statement)
    (name : String) :
    (Schema.mk (items.foldl bindTo (bareTables statements))).table? name =
      (lastClauses? name statements).map fun clauses =>
        (bareTable name clauses).mapColumns
          (evolve items (bareTables statements) (bareTable name clauses)) := by
  rw [bind_all_eq_map]
  simp only [Schema.table?, same_stored_text, bareTables, List.map_map, List.find?_map,
    Function.comp_def, Table.mapColumns_name, bareTable]
  cases found : (createdNames statements).eraseDups.find? (fun other => other == name) with
  | none =>
      have absent : name ∉ createdNames statements := fun member =>
        List.find?_eq_none.mp found name (List.mem_eraseDups.mpr member) (by simp)
      simp [(last_clauses_none name statements).mpr absent]
  | some other =>
      have same : other = name := by simpa using List.find?_some found
      have created : name ∈ createdNames statements :=
        same ▸ List.mem_eraseDups.mp (List.mem_of_find?_eq_some found)
      obtain ⟨clauses, last⟩ := Option.ne_none_iff_exists'.mp fun absent =>
        (last_clauses_none name statements).mp absent created
      simp [same, last]

/-- Some primary key constraint on a table names a column. -/
def Keyed (items : List (String × Constraint)) (table column : String) : Prop :=
  ∃ columns label, (table, Constraint.primaryKey columns label) ∈ items ∧ column ∈ columns

/-- Some unique constraint on a table is about a column alone. -/
def Single (items : List (String × Constraint)) (table column : String) : Prop :=
  ∃ label, (table, Constraint.unique [column] label) ∈ items

/-- How a column after some constraints are bound compares to the column before, leaving its
reference aside. -/
structure Flagged (items : List (String × Constraint)) (table : String)
    (before after : PlainColumn) : Prop where
  name : after.name = before.name
  dataType : after.dataType = before.dataType
  primaryKey : after.primaryKey = true ↔ before.primaryKey = true ∨ Keyed items table before.name
  unique : after.unique = true ↔ before.unique = true ∨ Single items table before.name
  nullable : after.nullable = true ↔ before.nullable = true ∧ ¬ Keyed items table before.name

theorem keyed_cons (item : String × Constraint) (rest : List (String × Constraint))
    (table column : String) :
    Keyed (item :: rest) table column ↔ Keyed [item] table column ∨ Keyed rest table column := by
  simp [Keyed, or_and_right, exists_or]

theorem single_cons (item : String × Constraint) (rest : List (String × Constraint))
    (table column : String) :
    Single (item :: rest) table column ↔ Single [item] table column ∨ Single rest table column := by
  simp [Single, exists_or]

theorem step_flagged (tables : List PlainTable) (item : String × Constraint) (table : PlainTable)
    (column : PlainColumn) :
    Flagged [item] table.name column (stepColumn tables item table column) := by
  obtain ⟨name, constraint⟩ := item
  by_cases same : table.name = name
  · rw [stepColumn, if_pos same]
    cases constraint with
    | primaryKey columns label =>
        by_cases member : column.name ∈ columns <;> constructor <;>
          simp [boundColumn, member, asKey, Keyed, Single, same]
    | unique columns label =>
        by_cases alone : columns = [column.name]
        · constructor <;> simp [boundColumn, alone, asUnique, Keyed, Single, same]
        · constructor <;> simp [boundColumn, alone, Ne.symm alone, Keyed, Single, same]
    | foreignKey columns target label =>
        have kept : Flagged [] table.name column
            (boundColumn tables table (.foreignKey columns target label) column) := by
          simp only [boundColumn, repoint]
          split
          · split <;> constructor <;> simp [pointingAt, Keyed, Single]
          · constructor <;> simp [Keyed, Single]
        obtain ⟨named, typed, primaryKey, unique, nullable⟩ := kept
        refine ⟨named, typed, primaryKey.trans ?_, unique.trans ?_, nullable.trans ?_⟩ <;>
          simp [Keyed, Single]
  · rw [stepColumn, if_neg same]
    constructor <;> simp [Keyed, Single, same]

/-- The flags of a column after a whole list of constraints, in whatever order they come. -/
theorem evolve_flagged (items : List (String × Constraint)) (tables : List PlainTable)
    (table : PlainTable) (column : PlainColumn) :
    Flagged items table.name column (evolve items tables table column) := by
  induction items generalizing tables table column with
  | nil => constructor <;> simp [evolve, Keyed, Single]
  | cons item rest ih =>
      have first := step_flagged tables item table column
      have later := ih (bindTo tables item) (stepTable tables item table)
        (stepColumn tables item table column)
      rw [stepTable, Table.mapColumns_name] at later
      refine ⟨later.name.trans first.name, later.dataType.trans first.dataType, ?_, ?_, ?_⟩
      · rw [evolve, stepTable, later.primaryKey, first.primaryKey, first.name,
          keyed_cons item rest, or_assoc]
      · rw [evolve, stepTable, later.unique, first.unique, first.name, single_cons item rest,
          or_assoc]
      · rw [evolve, stepTable, later.nullable, first.nullable, first.name,
          keyed_cons item rest, not_or, and_assoc]

theorem evolve_keeps (items : List (String × Constraint)) (tables : List PlainTable)
    (table : PlainTable) : Table.KeepsNames (evolve items tables table) :=
  fun column => (evolve_flagged items tables table column).name

end TableScript.Link
