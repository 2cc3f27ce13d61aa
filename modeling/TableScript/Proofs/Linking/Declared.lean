import TableScript.Proofs.Linking.Binding

/-!
What statements declare, read off them without linking: the tables they make, the columns of each
table, and the constraints on it in the order in which deferred linking binds them.
-/

namespace TableScript.Link

def createdName? : Statement → Option String
  | .createTable name _ _ => some name
  | _ => none

/-- The names of the tables that are made, once for each time one is made. -/
def createdNames (statements : List Statement) : List String :=
  statements.filterMap createdName?

def clausesFor? (name : String) : Statement → Option (List Clause)
  | .createTable other clauses _ => if other = name then some clauses else none
  | _ => none

/-- The clauses of the last statement that makes a table of a name. -/
def lastClauses? (name : String) : List Statement → Option (List Clause)
  | [] => none
  | statement :: rest => (lastClauses? name rest).or (clausesFor? name statement)

/-- The definitions that make a column, where `taken` are the names that are columns already: of
several definitions with one name it is the first. -/
def firstDefinitions (taken : List String) : List Clause → List ColumnDefinition
  | [] => []
  | .column definition :: rest =>
      if definition.name ∈ taken then firstDefinitions taken rest
      else definition :: firstDefinitions (taken ++ [definition.name]) rest
  | .constraint _ :: rest => firstDefinitions taken rest
  | .ignored _ :: rest => firstDefinitions taken rest

/-- A table before any constraint is bound. -/
def bareTable (name : String) (clauses : List Clause) : PlainTable :=
  ⟨name, (firstDefinitions [] clauses).map Building.columnOf, none⟩

/-- The tables that statements make, in the order in which their names first come up, each as it
was made last. -/
def bareTables (statements : List Statement) : List PlainTable :=
  (createdNames statements).eraseDups.map fun name =>
    bareTable name ((lastClauses? name statements).getD [])

def tableNames (tables : List PlainTable) : List String :=
  tables.map (·.name)

/-- The constraints inside a table in the order of its clauses. A column that only points at a
table has a foreign key constraint of its own. -/
def ownConstraints (taken : List String) : List Clause → List Constraint
  | [] => []
  | .column definition :: rest =>
      if definition.name ∈ taken then ownConstraints taken rest
      else (Building.openReference? definition).toList ++
        ownConstraints (taken ++ [definition.name]) rest
  | .constraint constraint :: rest => constraint :: ownConstraints taken rest
  | .ignored _ :: rest => ownConstraints taken rest

def added? : Action → Option Constraint
  | .add constraint => some constraint
  | .ignored _ => none

/-- The constraints that deferred linking binds, each with the name of its table, in the order in
which it binds them. What was declared inside a table that is made again later is left out. -/
def bindOrder : List Statement → List (String × Constraint)
  | [] => []
  | .createTable name clauses _ :: rest =>
      (if name ∈ createdNames rest then [] else (ownConstraints [] clauses).map (name, ·)) ++
        bindOrder rest
  | .alterTable table actions :: rest => (actions.filterMap added?).map (table, ·) ++ bindOrder rest
  | .ignored _ :: rest => bindOrder rest

/-- Binds a constraint to the table with a name. -/
def bindTo (tables : List PlainTable) (item : String × Constraint) : List PlainTable :=
  tables.map fun table =>
    if table.name = item.1 then table.mapColumns (boundColumn tables table item.2) else table

@[simp] theorem created_names_nil : createdNames [] = [] := rfl

@[simp] theorem created_names_append (before after : List Statement) :
    createdNames (before ++ after) = createdNames before ++ createdNames after := by
  simp [createdNames]

@[simp] theorem created_names_create (name : String) (clauses : List Clause) (hasBody : Bool)
    (rest : List Statement) :
    createdNames (.createTable name clauses hasBody :: rest) = name :: createdNames rest := rfl

@[simp] theorem created_names_alter (table : String) (actions : List Action)
    (rest : List Statement) :
    createdNames (.alterTable table actions :: rest) = createdNames rest := rfl

@[simp] theorem created_names_ignored (statement : Ignored) (rest : List Statement) :
    createdNames (.ignored statement :: rest) = createdNames rest := rfl

theorem last_clauses_append (name : String) (before after : List Statement) :
    lastClauses? name (before ++ after) = (lastClauses? name after).or (lastClauses? name before) := by
  induction before with
  | nil => simp [lastClauses?]
  | cons statement rest ih => simp [lastClauses?, ih, Option.or_assoc]

theorem last_clauses_none (name : String) (statements : List Statement) :
    lastClauses? name statements = none ↔ name ∉ createdNames statements := by
  induction statements with
  | nil => simp [lastClauses?]
  | cons statement rest ih =>
      cases statement with
      | createTable other clauses hasBody =>
          by_cases same : other = name
          · simp [lastClauses?, clausesFor?, same]
          · simp [lastClauses?, clausesFor?, ih, same, Ne.symm same]
      | alterTable table actions => simp [lastClauses?, clausesFor?, ih]
      | ignored statement => simp [lastClauses?, clausesFor?, ih]

theorem first_definitions_fresh (taken : List String) (clauses : List Clause) :
    ∀ definition ∈ firstDefinitions taken clauses, definition.name ∉ taken := by
  induction clauses generalizing taken with
  | nil => simp [firstDefinitions]
  | cons clause rest ih =>
      cases clause with
      | column definition =>
          simp only [firstDefinitions]
          split
          · exact ih taken
          case isFalse fresh =>
            intro later member
            rcases List.mem_cons.mp member with rfl | member
            · exact fresh
            · exact fun taken' => ih _ later member (List.mem_append_left _ taken')
      | constraint constraint => exact ih taken
      | ignored clause => exact ih taken

theorem first_definitions_nodup (taken : List String) (clauses : List Clause) :
    ((firstDefinitions taken clauses).map (·.name)).Nodup := by
  induction clauses generalizing taken with
  | nil => exact List.nodup_nil
  | cons clause rest ih =>
      cases clause with
      | column definition =>
          simp only [firstDefinitions]
          split
          · exact ih taken
          · refine List.nodup_cons.mpr ⟨fun again => ?_, ih _⟩
            obtain ⟨later, member, same⟩ := List.mem_map.mp again
            exact first_definitions_fresh _ rest later member (by simp [same])
      | constraint constraint => exact ih taken
      | ignored clause => exact ih taken

theorem first_definitions_written (taken : List String) (clauses : List Clause) :
    ∀ definition ∈ firstDefinitions taken clauses, .column definition ∈ clauses := by
  induction clauses generalizing taken with
  | nil => simp [firstDefinitions]
  | cons clause rest ih =>
      cases clause with
      | column definition =>
          simp only [firstDefinitions]
          split
          · exact fun later member => List.mem_cons_of_mem _ (ih taken later member)
          · intro later member
            rcases List.mem_cons.mp member with rfl | member
            · exact List.mem_cons_self
            · exact List.mem_cons_of_mem _ (ih _ later member)
      | constraint constraint => exact fun later member => List.mem_cons_of_mem _ (ih taken later member)
      | ignored clause => exact fun later member => List.mem_cons_of_mem _ (ih taken later member)

theorem bare_table_distinct (name : String) (clauses : List Clause) :
    (bareTable name clauses).Distinct := by
  simpa [Table.Distinct, bareTable, Function.comp_def, Building.columnOf] using
    first_definitions_nodup [] clauses

theorem bare_table_names (statements : List Statement) :
    tableNames (bareTables statements) = (createdNames statements).eraseDups := by
  simp [tableNames, bareTables, bareTable, Function.comp_def]

theorem bare_tables_create (statements : List Statement) (name : String) (clauses : List Clause)
    (hasBody : Bool) :
    bareTables (statements ++ [.createTable name clauses hasBody]) =
      if name ∈ createdNames statements then
        (bareTables statements).map fun old =>
          if old.name = name then bareTable name clauses else old
      else bareTables statements ++ [bareTable name clauses] := by
  have last : ∀ other, lastClauses? other (statements ++ [.createTable name clauses hasBody]) =
      if name = other then some clauses else lastClauses? other statements := by
    intro other
    by_cases same : name = other <;>
      simp [last_clauses_append, lastClauses?, clausesFor?, same]
  have updated : ∀ other, bareTable other ((if name = other then some clauses
      else lastClauses? other statements).getD []) =
      if other = name then bareTable name clauses
      else bareTable other ((lastClauses? other statements).getD []) := by
    intro other
    by_cases same : name = other
    · simp [same]
    · simp [same, Ne.symm same]
  simp only [bareTables, created_names_append, last, updated]
  split
  case isTrue present =>
    have names : (createdNames statements ++ createdNames [.createTable name clauses hasBody]).eraseDups =
        (createdNames statements).eraseDups := by
      simp [List.eraseDups_append, List.removeAll, present]
    rw [names, List.map_map]
    rfl
  case isFalse absent =>
    have names : (createdNames statements ++ createdNames [.createTable name clauses hasBody]).eraseDups =
        (createdNames statements).eraseDups ++ [name] := by
      simp [List.eraseDups_append, List.removeAll, absent, List.eraseDups_cons]
    rw [names, List.map_append]
    congr 1
    · apply List.map_congr_left
      intro other member
      have different : other ≠ name := fun same =>
        absent (same ▸ List.mem_eraseDups.mp member)
      simp [different]
    · simp

theorem bare_tables_other (statements : List Statement) (statement : Statement)
    (other : createdName? statement = none) :
    bareTables (statements ++ [statement]) = bareTables statements := by
  have names : createdNames (statements ++ [statement]) = createdNames statements := by
    simp [createdNames, other]
  have last : ∀ name, lastClauses? name (statements ++ [statement]) = lastClauses? name statements := by
    intro name
    cases statement with
    | createTable created clauses hasBody => cases other
    | alterTable table actions => simp [last_clauses_append, lastClauses?, clausesFor?]
    | ignored statement => simp [last_clauses_append, lastClauses?, clausesFor?]
  simp only [bareTables, names, last]

theorem bind_to_distinct (tables : List PlainTable) (item : String × Constraint)
    (distinct : ∀ table ∈ tables, table.Distinct) :
    ∀ table ∈ bindTo tables item, table.Distinct := by
  intro table member
  obtain ⟨old, oldMember, rfl⟩ := List.mem_map.mp member
  split
  · exact Table.distinct_mapColumns _ (bound_keeps_names tables old item.2) old
      (distinct old oldMember)
  · exact distinct old oldMember

end TableScript.Link
