import TableScript.Proofs.Linking.Meaning
import TableScript.Proofs.Linking.Order
import TableScript.Proofs.Linking.Sequential

/-!
Statements in order. Where whatever a constraint looks at is there before it, it makes no
difference whether constraints are bound at once or after the last statement: every table that is
made behind a constraint is one that the constraint neither changes nor points at by its key.
-/

namespace TableScript.Link

def IsConstraint : Clause → Prop
  | .constraint _ => True
  | _ => False

/-- All columns of a table come before all of its constraints. -/
def ColumnsFirst (clauses : List Clause) : Prop :=
  clauses.Pairwise fun earlier later => IsConstraint earlier → definition? later = none

/-- Statements in which no table is made twice, the columns of a table come before its
constraints, a table is altered only behind where it is made, and a foreign key that names no
columns points at a table that an earlier statement makes, or that none makes. -/
structure Ordered (statements : List Statement) : Prop where
  once : (createdNames statements).Nodup
  columnsFirst : ∀ name clauses hasBody, .createTable name clauses hasBody ∈ statements →
    ColumnsFirst clauses
  altersLater : ∀ before table actions after, statements = before ++ .alterTable table actions :: after →
    table ∈ createdNames statements → table ∈ createdNames before
  targetsEarlier : ∀ before statement after, statements = before ++ statement :: after →
    ∀ clause ∈ clausesOf statement, ∀ target ∈ clauseTargets clause, target.columns = [] →
      target.table ∈ createdNames before ∨ target.table ∉ createdNames statements

theorem ordered_before (before : List Statement) (last : Statement)
    (ordered : Ordered (before ++ [last])) : Ordered before := by
  have longer : createdNames (before ++ [last]) = createdNames before ++ createdNames [last] :=
    created_names_append before [last]
  refine ⟨?_, ?_, ?_, ?_⟩
  · exact (List.nodup_append.mp (longer ▸ ordered.once)).1
  · intro name clauses hasBody member
    exact ordered.columnsFirst name clauses hasBody (List.mem_append_left _ member)
  · rintro front table actions behind rfl created
    exact ordered.altersLater front table actions (behind ++ [last]) (by simp)
      (longer ▸ List.mem_append_left _ created)
  · rintro front statement behind rfl clause member target pointed opened
    refine (ordered.targetsEarlier front statement (behind ++ [last]) (by simp) clause member target
      pointed opened).imp_right fun nowhere created => nowhere ?_
    rw [longer]
    exact List.mem_append_left _ created

/-- A constraint that does not point at a table by its key. -/
def Unaware (name : String) (constraint : Constraint) : Prop :=
  ∀ target ∈ constraintTargets constraint, target.columns = [] → target.table ≠ name

theorem key_unaware (known : List PlainTable) (other current : PlainTable) (name : String)
    (apart : name ≠ other.name) : keyOf (known ++ [other]) name current = keyOf known name current := by
  have absent : (other.name == name) = false := beq_eq_false_iff_ne.mpr (Ne.symm apart)
  simp [keyOf, Schema.table?, List.find?_append, absent]

/-- Only a table of the same name counts as the table that is being made. -/
theorem key_current (known : List PlainTable) (current grown : PlainTable) (name : String)
    (same : grown.name = current.name) (apart : name ≠ current.name) :
    keyOf known name grown = keyOf known name current := by
  have other : (current.name == name) = false := beq_eq_false_iff_ne.mpr (Ne.symm apart)
  simp [keyOf, same, other]

theorem bound_agree (known known' : List PlainTable) (table table' : PlainTable)
    (constraint : Constraint)
    (keys : ∀ target ∈ constraintTargets constraint, target.columns = [] →
      keyOf known target.table table = keyOf known' target.table table') :
    boundColumn known table constraint = boundColumn known' table' constraint := by
  cases constraint with
  | primaryKey columns label => rfl
  | unique columns label => rfl
  | foreignKey columns target label =>
      have targets : targetsOf known table target = targetsOf known' table' target := by
        unfold targetsOf
        split
        case isTrue opened => exact keys target (by simp [constraintTargets]) (List.isEmpty_iff.mp opened)
        case isFalse => rfl
      funext column
      simp only [boundColumn, targets]

theorem bound_unaware (known : List PlainTable) (other table : PlainTable) (constraint : Constraint)
    (unaware : Unaware other.name constraint) :
    boundColumn (known ++ [other]) table constraint = boundColumn known table constraint :=
  bound_agree _ _ table table constraint fun target member opened =>
    key_unaware known other table target.table (unaware target member opened)

/-- Binding to other tables leaves a table alone, and does not look at it. -/
theorem bindTo_unaware (tables : List PlainTable) (other : PlainTable) (item : String × Constraint)
    (apart : item.1 ≠ other.name) (unaware : Unaware other.name item.2) :
    bindTo (tables ++ [other]) item = bindTo tables item ++ [other] := by
  simp only [bindTo, List.map_append, List.map_cons, List.map_nil, if_neg (Ne.symm apart),
    bound_unaware tables other _ item.2 unaware]

theorem bind_all_unaware (items : List (String × Constraint)) (other : PlainTable)
    (apart : ∀ item ∈ items, item.1 ≠ other.name) (unaware : ∀ item ∈ items, Unaware other.name item.2)
    (tables : List PlainTable) :
    items.foldl bindTo (tables ++ [other]) = items.foldl bindTo tables ++ [other] := by
  induction items generalizing tables with
  | nil => rfl
  | cons item rest ih =>
      obtain ⟨headApart, apart⟩ := List.forall_mem_cons.mp apart
      obtain ⟨head, unaware⟩ := List.forall_mem_cons.mp unaware
      rw [List.foldl_cons, bindTo_unaware tables other item headApart head, ih apart unaware,
        List.foldl_cons]

/-- The constraints of the last table are bound to it among the tables before it. -/
theorem bind_own_last (name : String) (constraints : List Constraint) (tables : List PlainTable)
    (fresh : name ∉ tableNames tables) (unaware : ∀ constraint ∈ constraints, Unaware name constraint)
    (table : PlainTable) (named : table.name = name) :
    (constraints.map (name, ·)).foldl bindTo (tables ++ [table]) =
      tables ++ [constraints.foldl (bindOwn tables) table] := by
  induction constraints generalizing table with
  | nil => rfl
  | cons constraint rest ih =>
      obtain ⟨head, others⟩ := List.forall_mem_cons.mp unaware
      have bound : bindTo (tables ++ [table]) (name, constraint) =
          tables ++ [bindOwn tables table constraint] := by
        have kept : ∀ old ∈ tables, (if old.name = name then
            old.mapColumns (boundColumn (tables ++ [table]) old constraint) else old) = old := by
          intro old member
          refine if_neg fun same => fresh ?_
          rw [← same]
          exact List.mem_map_of_mem member
        simp only [bindTo, List.map_append, List.map_congr_left kept, List.map_id', List.map_cons,
          List.map_nil, if_pos named, bindOwn]
        rw [bound_unaware tables table table constraint (named ▸ head)]
      rw [List.map_cons, List.foldl_cons, bound, ih others (bindOwn tables table constraint) named,
        List.foldl_cons]

theorem open_reference (definition : ColumnDefinition) (constraint : Constraint)
    (opened : Building.openReference? definition = some constraint) :
    ∃ target, definition.reference = some target ∧ target.columns = [] ∧
      constraint = .foreignKey [definition.name] target none := by
  simp only [Building.openReference?, Option.bind_eq_some_iff] at opened
  obtain ⟨target, found, made⟩ := opened
  split at made
  case isTrue empty =>
    exact ⟨target, found, List.isEmpty_iff.mp empty, (Option.some.inj made).symm⟩
  case isFalse => cases made

/-- The reference of a column can be bound before or after columns of other names are added. -/
theorem bind_open_early (known : List PlainTable) (table : PlainTable)
    (definition : ColumnDefinition) (constraint : Constraint) (columns : List PlainColumn)
    (opened : Building.openReference? definition = some constraint)
    (unaware : Unaware table.name constraint)
    (apart : ∀ column ∈ columns, column.name ≠ definition.name) :
    bindOwn known (withColumns table columns) constraint =
      withColumns (bindOwn known table constraint) columns := by
  obtain ⟨target, _, empty, rfl⟩ := open_reference definition constraint opened
  have bound : boundColumn known (withColumns table columns) (.foreignKey [definition.name] target none) =
      boundColumn known table (.foreignKey [definition.name] target none) :=
    bound_agree _ _ _ _ _ fun target member opened => key_current known table _ target.table rfl
      (unaware target member opened)
  have kept : ∀ column ∈ columns,
      boundColumn known table (.foreignKey [definition.name] target none) column = column := by
    intro column member
    have other : column.name ∉ (List.zip [definition.name] (targetsOf known table target)).map Prod.fst := by
      intro inside
      obtain ⟨pair, paired, same⟩ := List.mem_map.mp inside
      have named := List.mem_singleton.mp (List.of_mem_zip paired).1
      exact apart column member (same.symm.trans named)
    simp only [boundColumn, repoint, lastTarget_none column.name _ other, ite_self]
  rw [bindOwn, bound, bindOwn]
  simp only [Table.mapColumns, withColumns, List.map_append, List.map_congr_left kept, List.map_id']

/-- In a table whose columns come first, the constraints can be bound after all clauses. -/
theorem grown_columns_first (known : List PlainTable) (clauses : List Clause)
    (columnsFirst : ColumnsFirst clauses) (table : PlainTable)
    (unaware : ∀ clause ∈ clauses, ∀ target ∈ clauseTargets clause, target.columns = [] →
      target.table ≠ table.name) :
    clauses.foldl (growBy known) table =
      (ownConstraints (table.columns.map (·.name)) clauses).foldl (bindOwn known)
        (withColumns table ((firstDefinitions (table.columns.map (·.name)) clauses).map
          Building.columnOf)) := by
  induction clauses generalizing table with
  | nil => simp [ownConstraints, firstDefinitions, withColumns]
  | cons clause rest ih =>
      obtain ⟨behind, restFirst⟩ := List.pairwise_cons.mp columnsFirst
      obtain ⟨head, others⟩ := List.forall_mem_cons.mp unaware
      rw [List.foldl_cons]
      cases clause with
      | column definition =>
          by_cases taken : definition.name ∈ table.columns.map (·.name)
          · simp only [growBy, if_pos taken, ownConstraints, firstDefinitions]
            exact ih restFirst table others
          · have names : (withColumns table [Building.columnOf definition]).columns.map (·.name) =
                table.columns.map (·.name) ++ [definition.name] := by
              simp [withColumns, Building.columnOf]
            have together : ∀ columns, withColumns table (Building.columnOf definition :: columns) =
                withColumns (withColumns table [Building.columnOf definition]) columns := by
              simp [withColumns]
            simp only [growBy, if_neg taken, ownConstraints, firstDefinitions, List.map_cons]
            rw [together ((firstDefinitions _ rest).map Building.columnOf)]
            cases opened : Building.openReference? definition with
            | none =>
                have later := ih restFirst (withColumns table [Building.columnOf definition]) others
                rwa [names] at later
            | some constraint =>
                have later := ih restFirst
                  (bindOwn known (withColumns table [Building.columnOf definition]) constraint) others
                have unaware : Unaware table.name constraint := by
                  obtain ⟨target, pointed, _, rfl⟩ := open_reference definition constraint opened
                  intro other member
                  exact head other (by simpa [clauseTargets, pointed, constraintTargets] using member)
                rw [bindOwn_columns, names, ← bind_open_early known
                  (withColumns table [Building.columnOf definition]) definition constraint _ opened
                  unaware] at later
                · exact later
                · intro column member same
                  obtain ⟨other, inside, rfl⟩ := List.mem_map.mp member
                  refine first_definitions_fresh _ rest other inside ?_
                  have named : other.name = definition.name := same
                  simp [named]
      | constraint constraint =>
          have later := ih restFirst (bindOwn known table constraint) others
          have columnless : firstDefinitions (table.columns.map (·.name)) rest = [] := by
            have none_left : rest.filterMap definition? = [] :=
              List.filterMap_eq_nil_iff.mpr fun clause member => behind clause member trivial
            rw [firstDefinitions_columns, none_left]
            rfl
          rw [bindOwn_columns, columnless, List.map_nil, withColumns_nil] at later
          simpa only [growBy, ownConstraints, firstDefinitions, columnless, List.map_nil,
            withColumns_nil, List.foldl_cons] using later
      | ignored clause => exact ih restFirst table others

theorem last_clauses_made (name : String) (clauses : List Clause) (statements : List Statement)
    (last : lastClauses? name statements = some clauses) :
    ∃ hasBody, .createTable name clauses hasBody ∈ statements := by
  induction statements with
  | nil => cases last
  | cons statement rest ih =>
      rw [lastClauses?, Option.or_eq_some_iff] at last
      rcases last with later | ⟨_, here⟩
      · obtain ⟨hasBody, member⟩ := ih later
        exact ⟨hasBody, List.mem_cons_of_mem _ member⟩
      · cases statement with
        | createTable other made hasBody =>
            simp only [clausesFor?] at here
            split at here
            case isTrue same =>
              cases here
              exact ⟨hasBody, same ▸ List.mem_cons_self⟩
            case isFalse => cases here
        | alterTable table actions => cases here
        | ignored statement => cases here

/-- The constraints that a clause states. -/
def constraintsOf : Clause → List Constraint
  | .column definition => (Building.openReference? definition).toList
  | .constraint constraint => [constraint]
  | .ignored _ => []

/-- Every constraint that is bound is stated by a clause. -/
theorem bound_origin (statements : List Statement) (table : String) (constraint : Constraint)
    (member : (table, constraint) ∈ bindOrder statements) :
    ∃ statement ∈ statements, ∃ clause ∈ clausesOf statement, constraint ∈ constraintsOf clause := by
  rcases (mem_bindOrder statements table constraint).mp member with
    ⟨clauses, last, own⟩ | ⟨actions, altered, added⟩
  · obtain ⟨hasBody, made⟩ := last_clauses_made table clauses statements last
    refine ⟨_, made, ?_⟩
    rcases (mem_ownConstraints [] clauses constraint).mp own with stated | ⟨definition, first, opened⟩
    · exact ⟨_, stated, by simp [constraintsOf]⟩
    · exact ⟨.column definition, first_definitions_written [] clauses definition first, by
        simp [constraintsOf, opened]⟩
  · exact ⟨_, altered, .constraint constraint, List.mem_map.mpr ⟨_, added, rfl⟩, by simp [constraintsOf]⟩

/-- A constraint points at what the clause that states it points at. -/
theorem stated_targets (clause : Clause) (constraint : Constraint)
    (stated : constraint ∈ constraintsOf clause) :
    ∀ target ∈ constraintTargets constraint, target ∈ clauseTargets clause := by
  cases clause with
  | column definition =>
      obtain ⟨target, pointed, _, rfl⟩ :=
        open_reference definition constraint (Option.mem_toList.mp stated)
      simp [constraintTargets, clauseTargets, pointed]
  | constraint other =>
      rw [List.mem_singleton.mp stated]
      exact fun target pointed => pointed
  | ignored clause => cases stated

/-- What stands before a table that is made once neither alters it nor points at its key. -/
theorem before_unaware (before : List Statement) (name : String) (clauses : List Clause)
    (hasBody : Bool) (ordered : Ordered (before ++ [.createTable name clauses hasBody]))
    (fresh : name ∉ createdNames before) :
    ∀ item ∈ bindOrder before, item.1 ≠ name ∧ Unaware name item.2 := by
  have made : name ∈ createdNames (before ++ [.createTable name clauses hasBody]) := by simp
  have earlier : ∀ front behind, before = front ++ behind → name ∉ createdNames front := by
    rintro front behind rfl there
    exact fresh (by simp [there])
  rintro ⟨table, constraint⟩ member
  constructor
  · rintro rfl
    rcases (mem_bindOrder before table constraint).mp member with
      ⟨clauses, last, _⟩ | ⟨actions, altered, _⟩
    · rw [(last_clauses_none table before).mpr fresh] at last
      cases last
    · obtain ⟨front, behind, split⟩ := List.mem_iff_append.mp altered
      exact earlier front _ split (ordered.altersLater front table actions
        (behind ++ [.createTable table clauses hasBody]) (by simp [split]) made)
  · intro target pointed opened same
    obtain ⟨statement, inside, clause, among, stated⟩ := bound_origin before table constraint member
    obtain ⟨front, behind, split⟩ := List.mem_iff_append.mp inside
    rcases ordered.targetsEarlier front statement (behind ++ [.createTable name clauses hasBody])
      (by simp [split]) clause among target (stated_targets clause constraint stated target pointed)
      opened with there | nowhere
    · exact earlier front _ split (same ▸ there)
    · exact nowhere (same ▸ made)

theorem bindOrder_behind (before : List Statement) (statement : Statement)
    (fresh : ∀ name ∈ createdName? statement, name ∉ createdNames before) :
    bindOrder (before ++ [statement]) = bindOrder before ++ bindOrder [statement] := by
  induction before with
  | nil => rfl
  | cons first rest ih =>
      have others : ∀ name ∈ createdName? statement, name ∉ createdNames rest := by
        intro name made there
        apply fresh name made
        rw [← List.singleton_append, created_names_append]
        exact List.mem_append_right _ there
      cases first with
      | createTable name clauses hasBody =>
          have same : name ∈ createdNames (rest ++ [statement]) ↔ name ∈ createdNames rest := by
            rw [created_names_append, List.mem_append]
            refine or_iff_left fun last => ?_
            have made : name ∈ createdName? statement := by
              simpa [createdNames] using last
            exact fresh name made (by simp)
          simp only [List.cons_append, bindOrder, same, ih others, List.append_assoc]
      | alterTable table actions => simp [bindOrder, ih others]
      | ignored first => simp [bindOrder, ih others]

/-- The tables that sequential linking of ordered statements makes are those of deferred linking. -/
theorem ordered_tables (statements : List Statement) (ordered : Ordered statements) :
    sequentialTables statements = (bindOrder statements).foldl bindTo (bareTables statements) := by
  induction statements using List.reverseRecOn with
  | nil => rfl
  | append_singleton before statement ih =>
      have known := ih (ordered_before before statement ordered)
      rw [sequential_append]
      cases statement with
      | createTable name clauses hasBody =>
          have fresh : name ∉ createdNames before := by
            have once := ordered.once
            rw [created_names_append] at once
            exact fun member => (List.nodup_append.mp once).2.2 name member name (by simp) rfl
          have unaware := before_unaware before name clauses hasBody ordered fresh
          have own : ∀ clause ∈ clauses, ∀ target ∈ clauseTargets clause, target.columns = [] →
              target.table ≠ name := by
            intro clause member target pointed opened same
            rcases ordered.targetsEarlier before _ [] rfl clause member target pointed opened with
              there | nowhere
            · exact fresh (same ▸ there)
            · exact nowhere (same ▸ by simp)
          have absent : name ∉ tableNames (sequentialTables before) := by
            rw [known, bind_all_names, bare_table_names]
            simpa using fresh
          have grown : grownTable (sequentialTables before) name clauses =
              (ownConstraints [] clauses).foldl (bindOwn (sequentialTables before))
                (bareTable name clauses) :=
            grown_columns_first _ clauses (ordered.columnsFirst name clauses hasBody (by simp))
              (.empty name) own
          have written : ∀ constraint ∈ ownConstraints [] clauses, Unaware name constraint := by
            intro constraint member target pointed
            obtain ⟨statement, inside, clause, among, stated⟩ := bound_origin
              [.createTable name clauses hasBody] name constraint
              (by simpa [bindOrder, createdNames] using member)
            cases List.mem_singleton.mp inside
            exact own clause among target (stated_targets clause constraint stated target pointed)
          rw [bindOrder_behind before _ (by simpa [createdName?] using fresh), List.foldl_append,
            bare_tables_create, if_neg fresh,
            bind_all_unaware (bindOrder before) (bareTable name clauses)
              (fun item member => (unaware item member).1)
              (fun item member => (unaware item member).2), ← known]
          have last : bindOrder [.createTable name clauses hasBody] =
              (ownConstraints [] clauses).map (name, ·) := by
            simp [bindOrder, createdNames]
          rw [last, bind_own_last name _ _ absent written _ rfl, ← grown, sequentialStep, putTable,
            grown_name, if_neg absent]
      | alterTable table actions =>
          rw [bindOrder_behind before _ (by simp [createdName?]), List.foldl_append,
            bare_tables_other before _ rfl, ← known]
          simp [sequentialStep, bindOrder, addedTo]
      | ignored statement =>
          rw [bindOrder_behind before _ (by simp [createdName?]), List.foldl_append,
            bare_tables_other before _ rfl, ← known]
          rfl

/-- Of ordered statements both modes make the same schema. -/
theorem ordered_modes_agree (statements : List Statement) (ordered : Ordered statements) :
    (link .sequential statements).1 = (link .deferred statements).1 := by
  rw [link_sequential, link_deferred, ordered_tables statements ordered]

def roleClauses : List Clause := [.column ⟨"id", "INT", true, false, false, none⟩]

def userClauses : List Clause :=
  [.column ⟨"role_id", "INT", false, false, false, some ⟨"role", []⟩⟩,
    .constraint (.foreignKey ["role_id"] ⟨"staff", ["id"]⟩ none)]

/-- A table that points at the key of an earlier one and that is altered behind both. -/
def userBehindRole : List Statement :=
  [.createTable "role" roleClauses true, .createTable "user" userClauses true,
    .alterTable "user" [.add (.unique ["role_id"] none)]]

theorem user_behind_role_agrees :
    Ordered userBehindRole ∧ (link .sequential userBehindRole).1 = (link .deferred userBehindRole).1 := by
  have ordered : Ordered userBehindRole := by
    refine ⟨by decide, ?_, ?_, ?_⟩
    · intro name clauses hasBody member
      simp only [userBehindRole, List.mem_cons, Statement.createTable.injEq, List.not_mem_nil, or_false,
        reduceCtorEq] at member
      rcases member with ⟨-, rfl, -⟩ | ⟨-, rfl, -⟩
      · simp [ColumnsFirst, roleClauses]
      · simp [ColumnsFirst, userClauses, IsConstraint]
    · intro before table actions after split made
      simp [userBehindRole, List.cons_eq_append_iff] at split
      obtain ⟨rfl, ⟨rfl, _⟩, _⟩ := split
      decide
    · intro before statement after split
      simp [userBehindRole, List.cons_eq_append_iff] at split
      rcases split with ⟨rfl, rfl, _⟩ | ⟨_, rfl, ⟨rfl, rfl, _⟩ | ⟨_, rfl, rfl, rfl, _⟩⟩ <;>
        simp [clausesOf, roleClauses, userClauses, clauseTargets, Action.toClause, constraintTargets]
  exact ⟨ordered, ordered_modes_agree userBehindRole ordered⟩

end TableScript.Link
