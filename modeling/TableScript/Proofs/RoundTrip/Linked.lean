import TableScript.Proofs.Linking.Modes
import TableScript.Proofs.Linking.Order
import TableScript.Proofs.RoundTrip.Script

/-!
The statements of a written schema, linked again. Each table is made with its columns but without
their references, and the statements behind them give each column its own reference.
-/

namespace TableScript

open Link

/-- Where no two elements share a key, only the element with a key gives what is asked for. -/
theorem flatMap_keyed {α β κ : Type} (keyOf : α → κ) (items : List α)
    (distinct : (items.map keyOf).Nodup) (item : α) (member : item ∈ items) (use : α → List β)
    (others : ∀ other ∈ items, keyOf other ≠ keyOf item → use other = []) :
    items.flatMap use = use item := by
  induction items with
  | nil => cases member
  | cons first rest ih =>
      obtain ⟨fresh, distinct⟩ := List.nodup_cons.mp (List.map_cons ▸ distinct)
      obtain ⟨head, tail⟩ := List.forall_mem_cons.mp others
      rw [List.flatMap_cons]
      rcases List.mem_cons.mp member with rfl | inside
      · have nothing : rest.flatMap use = [] := by
          refine List.flatMap_eq_nil_iff.mpr fun other among => tail other among fun same => fresh ?_
          rw [← same]
          exact List.mem_map_of_mem among
        rw [nothing, List.append_nil]
      · have apart : keyOf first ≠ keyOf item := fun same => fresh (by
          rw [same]
          exact List.mem_map_of_mem inside)
        rw [head apart, List.nil_append]
        exact ih distinct inside tail

namespace Relationship

/-- The reference is one of a column of a table. -/
def isOf (table column : String) (edge : Relationship String) : Bool :=
  edge.source == table && edge.sourceColumn == column

theorem settle_edge (table : String) (column : PlainColumn) (edge : Relationship String) :
    settle table column (edge.source, constraintOf edge) =
      if isOf table column.name edge = true then pointingAt edge.target edge.targetColumn column
      else column := by
  have bound : boundColumn [] (.empty table) (constraintOf edge) column =
      if edge.sourceColumn = column.name then pointingAt edge.target edge.targetColumn column
      else column := by
    by_cases same : edge.sourceColumn = column.name
    · simp [boundColumn, constraintOf, targetsOf, repoint, lastTarget?, same]
    · simp [boundColumn, constraintOf, targetsOf, repoint, lastTarget?, same]
  simp only [settle, bound, isOf, Bool.and_eq_true, beq_iff_eq]
  by_cases here : edge.source = table
  · simp [here]
  · simp [here, Ne.symm here]

/-- Only the references of a column do anything to it. -/
theorem settle_edges (table : String) (edges : List (Relationship String)) (column : PlainColumn) :
    (edges.map fun edge => (edge.source, constraintOf edge)).foldl (settle table) column =
      (edges.filter (isOf table column.name)).foldl
        (fun column edge => pointingAt edge.target edge.targetColumn column) column := by
  induction edges generalizing column with
  | nil => rfl
  | cons edge rest ih =>
      rw [List.map_cons, List.foldl_cons, ih, settle_name, settle_edge, List.filter_cons]
      split
      · rfl
      · rfl

end Relationship

namespace PlainSchema

/-- A column with a reference is where exactly that reference is from. -/
theorem column_relationships (schema : PlainSchema) (restorable : Restorable schema) (table : PlainTable)
    (inside : table ∈ schema.tables) (column : PlainColumn) (among : column ∈ table.columns) :
    schema.relationships.filter (Relationship.isOf table.name column.name) =
      column.reference.toList.map fun reference =>
        ⟨table.name, column.name, reference.table, reference.column⟩ := by
  have elsewhere : ∀ other ∈ schema.tables, other.name ≠ table.name →
      (other.columns.filterMap fun column => column.reference.map fun reference =>
        (⟨other.name, column.name, reference.table, reference.column⟩ : Relationship String)).filter
        (Relationship.isOf table.name column.name) = [] := by
    intro other _ apart
    apply List.filter_eq_nil_iff.mpr
    intro edge member
    obtain ⟨source, _, reference, _, rfl⟩ := by simpa using member
    simp [Relationship.isOf, apart]
  rw [Schema.relationships, List.filter_flatMap,
    flatMap_keyed (·.name) schema.tables restorable.distinct table inside _ elsewhere,
    List.filterMap_eq_flatMap_toList, List.filter_flatMap,
    flatMap_keyed (·.name) table.columns (restorable.tables table inside).distinct column among]
  · cases column.reference with
    | none => rfl
    | some reference => simp [Relationship.isOf]
  · intro other _ apart
    cases other.reference with
    | none => rfl
    | some reference => simp [Relationship.isOf, apart]

theorem column_made (column : PlainColumn) (restorable : PlainColumn.Restorable column) :
    Building.columnOf (PlainColumn.definitionOf column) = { column with reference := none } := by
  have key := restorable.key
  cases column with
  | mk name dataType primaryKey nullable unique reference =>
      cases primaryKey <;> cases nullable <;>
        simp_all [Building.columnOf, PlainColumn.definitionOf, Building.directReference?]

/-- A column gets its reference back. -/
theorem column_restored (schema : PlainSchema) (restorable : Restorable schema) (table : PlainTable)
    (inside : table ∈ schema.tables) (column : PlainColumn) (among : column ∈ table.columns) :
    (schema.relationships.map fun edge => (edge.source, Relationship.constraintOf edge)).foldl
      (settle table.name) (Building.columnOf (PlainColumn.definitionOf column)) = column := by
  have source := (restorable.tables table inside).columns column among
  rw [column_made column source, Relationship.settle_edges,
    column_relationships schema restorable table inside column among]
  cases column with
  | mk name dataType primaryKey nullable unique reference =>
      cases reference with
      | none => rfl
      | some reference => rfl

theorem firstDefinitions_distinct (definitions : List ColumnDefinition) (taken : List String)
    (distinct : (definitions.map (·.name)).Nodup)
    (fresh : ∀ definition ∈ definitions, definition.name ∉ taken) :
    firstDefinitions taken (definitions.map .column) = definitions := by
  induction definitions generalizing taken with
  | nil => rfl
  | cons definition rest ih =>
      obtain ⟨other, distinct⟩ := List.nodup_cons.mp (List.map_cons ▸ distinct)
      obtain ⟨head, others⟩ := List.forall_mem_cons.mp fresh
      rw [List.map_cons, firstDefinitions, if_neg head, ih _ distinct]
      intro later member
      rw [List.mem_append, List.mem_singleton, not_or]
      constructor
      · exact others later member
      · intro same
        apply other
        rw [← same]
        exact List.mem_map_of_mem member

/-- A schema without the places of its tables. -/
def unplaced (schema : PlainSchema) : PlainSchema :=
  ⟨schema.tables.map fun table => { table with position := none }⟩

theorem created_names (schema : PlainSchema) :
    createdNames (statements schema) = schema.tables.map (·.name) := by
  have made : schema.tables.filterMap (createdName? ∘ PlainTable.createOf) =
      schema.tables.map (·.name) := by
    rw [← List.filterMap_eq_map]
    rfl
  have added : schema.relationships.filterMap (createdName? ∘ Relationship.alterOf) = [] :=
    List.filterMap_eq_nil_iff.mpr fun _ _ => rfl
  rw [statements, createdNames, List.filterMap_append, List.filterMap_map, List.filterMap_map, made,
    added, List.append_nil]

theorem tables_made (schema : PlainSchema) (restorable : Restorable schema) :
    (statements schema).filterMap made? = schema.tables.map fun table =>
      { table with
        columns := table.columns.map (Building.columnOf ∘ PlainColumn.definitionOf), position := none } := by
  have made : schema.tables.filterMap (made? ∘ PlainTable.createOf) = schema.tables.map fun table =>
      { table with
        columns := table.columns.map (Building.columnOf ∘ PlainColumn.definitionOf), position := none } := by
    rw [← List.filterMap_eq_map]
    apply List.filterMap_congr
    intro table inside
    have distinct : ((table.columns.map PlainColumn.definitionOf).map (·.name)).Nodup := by
      rw [List.map_map]
      exact (restorable.tables table inside).distinct
    have definitions := firstDefinitions_distinct (table.columns.map PlainColumn.definitionOf) []
      distinct (by simp)
    rw [List.map_map] at definitions
    simp [made?, PlainTable.createOf, bareTable, definitions]
  have added : schema.relationships.filterMap (made? ∘ Relationship.alterOf) = [] :=
    List.filterMap_eq_nil_iff.mpr fun _ _ => rfl
  rw [statements, List.filterMap_append, List.filterMap_map, List.filterMap_map, made, added,
    List.append_nil]

theorem stated_edges (schema : PlainSchema) :
    (statements schema).flatMap statedBy =
      schema.relationships.map fun edge => (edge.source, Relationship.constraintOf edge) := by
  have made : schema.tables.flatMap (statedBy ∘ PlainTable.createOf) = [] := by
    apply List.flatMap_eq_nil_iff.mpr
    intro table _
    simp [statedBy, PlainTable.createOf, tableOf?, clausesOf, stated?]
  have added : schema.relationships.flatMap (statedBy ∘ Relationship.alterOf) =
      schema.relationships.map fun edge => (edge.source, Relationship.constraintOf edge) := by
    rw [List.map_eq_flatMap]
    rfl
  rw [statements, List.flatMap_append, List.flatMap_map, List.flatMap_map]
  exact (congrArg₂ _ made added).trans (List.nil_append _)

theorem statements_explicit (schema : PlainSchema) :
    AllExplicit ((statements schema).flatMap clausesOf) := by
  intro clause member
  obtain ⟨statement, inside, found⟩ := List.mem_flatMap.mp member
  rcases List.mem_append.mp inside with made | added
  · obtain ⟨table, _, rfl⟩ := List.mem_map.mp made
    obtain ⟨column, _, rfl⟩ := List.mem_map.mp found
    simp [clauseTargets, PlainColumn.definitionOf]
  · obtain ⟨edge, _, rfl⟩ := List.mem_map.mp added
    rw [List.mem_singleton.mp found]
    simp [Action.toClause, clauseTargets, constraintTargets, Relationship.constraintOf]

/-- The statements of a written schema describe that schema, in both modes. -/
theorem statements_linked (mode : Resolution) (schema : PlainSchema) (restorable : Restorable schema) :
    (link mode (statements schema)).1 = unplaced schema := by
  have makes : ∀ statement ∈ schema.tables.map PlainTable.createOf, Makes statement := by
    intro statement member
    obtain ⟨table, _, rfl⟩ := List.mem_map.mp member
    intro clause inside
    obtain ⟨column, _, rfl⟩ := List.mem_map.mp inside
    rfl
  have adds : ∀ statement ∈ schema.relationships.map Relationship.alterOf,
      createdName? statement = none := by
    intro statement member
    obtain ⟨edge, _, rfl⟩ := List.mem_map.mp member
    rfl
  have once : (createdNames (statements schema)).Nodup := by
    rw [created_names]
    exact restorable.distinct
  have linked := deferred_settled (statements schema) once (statements_explicit schema)
  rw [tables_made schema restorable, stated_edges, List.map_map] at linked
  have restored : (link .deferred (statements schema)).1.tables = (unplaced schema).tables := by
    rw [linked]
    apply List.map_congr_left
    intro table inside
    have columns : (table.columns.map (Building.columnOf ∘ PlainColumn.definitionOf)).map
        (fun column => (schema.relationships.map fun edge =>
          (edge.source, Relationship.constraintOf edge)).foldl (settle table.name) column) =
        table.columns := by
      rw [List.map_map]
      exact (List.map_congr_left fun column among =>
        column_restored schema restorable table inside column among).trans (List.map_id _)
    exact congrArg (fun columns => (⟨table.name, columns, none⟩ : PlainTable)) columns
  exact (modes_agree mode _ _ makes adds).trans (congrArg Schema.mk restored)

end PlainSchema

end TableScript
