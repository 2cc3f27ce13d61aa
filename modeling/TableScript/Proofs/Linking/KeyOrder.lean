import TableScript.Proofs.Linking.OpenReference
import TableScript.Proofs.Linking.Touched

/-!
Composite keys that are pointed at without naming their columns. Once a primary key is bound, its
columns are known in the order in which their table defines them, and the order in which the
primary key lists them is lost. So a foreign key behind it is paired with the columns of the key
as they are defined, which is as they are listed only where the two orders are the same.
-/

namespace TableScript.Link

theorem evolve_append (first second : List (String × Constraint)) (tables : List PlainTable)
    (table : PlainTable) (column : PlainColumn) :
    evolve (first ++ second) tables table column =
      evolve second (first.foldl bindTo tables) (table.mapColumns (evolve first tables table))
        (evolve first tables table column) := by
  induction first generalizing tables table column with
  | nil =>
      simp only [List.nil_append, List.foldl_nil, evolve]
      rw [Table.mapColumns_id]
  | cons item rest ih =>
      rw [List.cons_append, evolve, ih, stepTable, Table.mapColumns_mapColumns]
      rfl

/-- Where no foreign key names a column, it keeps its reference. -/
theorem evolve_unpointed (items : List (String × Constraint)) (tables : List PlainTable)
    (table : PlainTable) (column : PlainColumn)
    (unnamed : ∀ columns target label, (table.name, .foreignKey columns target label) ∈ items →
      column.name ∉ columns) :
    (evolve items tables table column).reference = column.reference := by
  induction items generalizing tables table column with
  | nil => rfl
  | cons item rest ih =>
      have named := (step_flagged tables item table column).name
      have step : (stepColumn tables item table column).reference = column.reference := by
        rw [stepColumn]
        split
        case isFalse => rfl
        case isTrue same =>
          obtain ⟨_, constraint⟩ := item
          cases constraint with
          | primaryKey columns label => rw [boundColumn]; split <;> rfl
          | unique columns label => rw [boundColumn]; split <;> rfl
          | foreignKey columns target label =>
              have absent := unnamed columns target label (by rw [same]; exact List.mem_cons_self)
              rw [(pointed_touched tables table columns target label column).unlisted absent]
      rw [evolve, ih, step]
      intro columns target label member
      rw [named]
      exact unnamed columns target label (List.mem_cons_of_mem item member)

/-- The last foreign key that names a column decides on its reference. -/
theorem evolve_pointed (before after : List (String × Constraint)) (tables : List PlainTable)
    (table : PlainTable) (column : PlainColumn) (columns : List String) (target : Target)
    (label : Option String)
    (unnamed : ∀ other target label, (table.name, .foreignKey other target label) ∈ after →
      column.name ∉ other) :
    (evolve (before ++ (table.name, .foreignKey columns target label) :: after) tables table
        column).reference =
      (boundColumn (before.foldl bindTo tables) (table.mapColumns (evolve before tables table))
        (.foreignKey columns target label) (evolve before tables table column)).reference := by
  have kept := evolve_keeps before tables table column
  rw [evolve_append, evolve, evolve_unpointed, stepColumn, Table.mapColumns_name, if_pos rfl]
  intro other target label member
  rw [(step_flagged _ _ _ _).name, kept]
  exact unnamed other target label member

/-- The columns of a key in the order in which a table defines them. -/
def asDefined (clauses : List Clause) (keys : List String) : List String :=
  ((firstDefinitions [] clauses).map (·.name)).filter fun name => decide (name ∈ keys)

theorem asDefined_perm (clauses : List Clause) (keys : List String) (distinct : keys.Nodup)
    (existing : ∀ key ∈ keys, key ∈ (firstDefinitions [] clauses).map (·.name)) :
    (asDefined clauses keys).Perm keys := by
  have once : (asDefined clauses keys).Nodup := (first_definitions_nodup [] clauses).filter _
  refine (List.perm_ext_iff_of_nodup once distinct).mpr fun key => ?_
  rw [asDefined, List.mem_filter, decide_eq_true_iff]
  exact ⟨And.right, fun member => ⟨existing key member, member⟩⟩

/-- A table has its primary key from one constraint alone, and behind that constraint a foreign
key of some table points at it without naming columns. `front`, `middle` and `back` are the other
constraints in the order of binding. -/
structure BehindKey (statements : List Statement) (front middle back : List (String × Constraint))
    (goal : String) (clauses : List Clause) (keys : List String) (source : String)
    (own : List Clause) (columns : List String) : Prop where
  goalMade : lastClauses? goal statements = some clauses
  sourceMade : lastClauses? source statements = some own
  order : ∃ keyLabel label, bindOrder statements =
    (front ++ (goal, .primaryKey keys keyLabel) :: middle) ++
      (source, .foreignKey columns ⟨goal, []⟩ label) :: back
  undeclared : ∀ definition ∈ firstDefinitions [] clauses, definition.primaryKey = false
  onlyKey : ∀ other label, (goal, .primaryKey other label) ∉ front ++ middle
  distinctKeys : keys.Nodup
  existingKeys : ∀ key ∈ keys, key ∈ (firstDefinitions [] clauses).map (·.name)
  fits : columns.length = keys.length
  distinctColumns : columns.Nodup
  existingColumns : ∀ name ∈ columns, name ∈ (firstDefinitions [] own).map (·.name)
  -- A foreign key that comes later would take the place of this one.
  lastPointed : ∀ other target label, (source, .foreignKey other target label) ∈ back →
    ∀ name ∈ columns, name ∉ other

/-- Each of the columns points at the key that stands at its own place. -/
def Paired (table : PlainTable) (columns : List String) (goal : String) (keys : List String) : Prop :=
  ∀ (place : Nat) (name key : String), columns[place]? = some name → keys[place]? = some key →
    ∃ column, table.column? name = some column ∧ column.reference = some ⟨goal, key⟩

theorem paired_unique (table : PlainTable) (columns : List String) (goal : String)
    (first second : List String) (paired : Paired table columns goal first)
    (again : Paired table columns goal second) (fits : columns.length = first.length)
    (fitsAgain : columns.length = second.length) : first = second := by
  refine List.ext_getElem (fits.symm.trans fitsAgain) fun place inside insideAgain => ?_
  have within : place < columns.length := fits ▸ inside
  have listed : columns[place]? = some columns[place] := List.getElem?_eq_getElem within
  obtain ⟨column, found, pointing⟩ := paired place _ _ listed (List.getElem?_eq_getElem inside)
  obtain ⟨same, foundAgain, pointingAgain⟩ :=
    again place _ _ listed (List.getElem?_eq_getElem insideAgain)
  obtain rfl := Option.some.inj (found.symm.trans foundAgain)
  exact congrArg Reference.column (Option.some.inj (pointing.symm.trans pointingAgain))

/-- What is known of a primary key behind the one constraint that makes it. -/
theorem known_asDefined (statements : List Statement) (front middle : List (String × Constraint))
    (goal : String) (clauses : List Clause) (keys : List String) (label : Option String)
    (made : lastClauses? goal statements = some clauses)
    (undeclared : ∀ definition ∈ firstDefinitions [] clauses, definition.primaryKey = false)
    (onlyKey : ∀ other label, (goal, .primaryKey other label) ∉ front ++ middle) :
    knownKey statements (front ++ (goal, .primaryKey keys label) :: middle) goal =
      asDefined clauses keys := by
  have keyed : ∀ name, Keyed (front ++ (goal, .primaryKey keys label) :: middle) goal name ↔
      name ∈ keys := by
    intro name
    constructor
    · rintro ⟨columns, other, member, inside⟩
      rcases List.mem_cons.mp (List.perm_middle.mem_iff.mp member) with same | elsewhere
      · cases same
        exact inside
      · exact absurd elsewhere (onlyKey columns other)
    · exact fun inside => ⟨keys, label, by simp, inside⟩
  simp only [knownKey, made, asDefined, List.filter_map]
  refine congrArg _ (List.filter_congr fun definition member => ?_)
  rw [undeclared definition member, Bool.false_or, Bool.eq_iff_iff, ← keyed_iff_any, keyed]
  exact decide_eq_true_iff.symm

theorem lastAt_distinct (names : List String) (distinct : names.Nodup) (name : String) (place : Nat)
    (there : names[place]? = some name) : LastAt names name place := by
  refine ⟨there, fun later behind again => ?_⟩
  have inside := (List.getElem?_eq_some_iff.mp there).1
  have same := (List.getElem?_inj inside distinct).mp (there.trans again.symm)
  exact absurd same (Nat.ne_of_lt behind)

/-- A column that is listed once gets the reference of its place. -/
theorem bound_placed (known : List PlainTable) (table : PlainTable) (columns : List String)
    (target : Target) (label : Option String) (column : PlainColumn) (distinct : columns.Nodup)
    (paired : (targetsOf known table target).length = columns.length) (place : Nat) (found : String)
    (listed : columns[place]? = some column.name)
    (aimed : (targetsOf known table target)[place]? = some found) :
    (boundColumn known table (.foreignKey columns target label) column).reference =
      some ⟨target.table, found⟩ := by
  have touched := pointed_touched known table columns target label column
  obtain ⟨other, there, same⟩ := touched.effect.2 paired place
    (lastAt_distinct columns distinct column.name place listed)
  rw [same, Option.some.inj (there.symm.trans aimed)]

section BehindKey

variable {statements : List Statement} {front middle back : List (String × Constraint)}
  {goal : String} {clauses : List Clause} {keys : List String} {source : String}
  {own : List Clause} {columns : List String}
  (behind : BehindKey statements front middle back goal clauses keys source own columns)

include behind

theorem behindKey_perm : (asDefined clauses keys).Perm keys :=
  asDefined_perm clauses keys behind.distinctKeys behind.existingKeys

/-- What a listed column points at in the end. -/
theorem behindKey_reference (bare : PlainColumn) (place : Nat) (key : String)
    (listed : columns[place]? = some bare.name)
    (defined : (asDefined clauses keys)[place]? = some key) :
    (evolve (bindOrder statements) (bareTables statements) (bareTable source own) bare).reference =
      some ⟨goal, key⟩ := by
  obtain ⟨keyLabel, label, order⟩ := behind.order
  have created : source ∈ createdNames statements := by
    by_contra absent
    exact absurd ((last_clauses_none source statements).mpr absent) (by simp [behind.sourceMade])
  have known := known_asDefined statements front middle goal clauses keys keyLabel behind.goalMade
    behind.undeclared behind.onlyKey
  generalize front ++ (goal, .primaryKey keys keyLabel) :: middle = earlier at order known
  -- What the foreign key points at when its turn comes.
  have targets := targets_known statements earlier ((bareTable source own).mapColumns
    (evolve earlier (bareTables statements) (bareTable source own))) created ⟨goal, []⟩
  rw [List.isEmpty_nil, if_pos rfl, known] at targets
  have unnamed : ∀ other target label, (source, .foreignKey other target label) ∈ back →
      bare.name ∉ other := fun other target label member =>
    behind.lastPointed other target label member bare.name (List.mem_of_getElem? listed)
  rw [order]
  refine (evolve_pointed earlier back _ (bareTable source own) bare columns ⟨goal, []⟩ label
    unnamed).trans ?_
  refine bound_placed _ _ columns ⟨goal, []⟩ label _ behind.distinctColumns ?_ place key ?_ ?_
  · rw [targets, (behindKey_perm behind).length_eq, behind.fits]
  · rw [evolve_keeps]
    exact listed
  · rw [targets]
    exact defined

theorem behindKey_paired :
    Paired ((bareTable source own).mapColumns (evolve (bindOrder statements) (bareTables statements)
      (bareTable source own))) columns goal (asDefined clauses keys) := by
  intro place name key listed defined
  have keeps := evolve_keeps (bindOrder statements) (bareTables statements) (bareTable source own)
  have member := behind.existingColumns name (List.mem_of_getElem? listed)
  have there : ((bareTable source own).mapColumns (evolve (bindOrder statements)
      (bareTables statements) (bareTable source own))).column? name ≠ none := by
    rw [ne_eq, Table.column_mapColumns_none _ keeps]
    refine fun absent => (Table.column_eq_none _ name).mp absent ?_
    simpa [bareTable, Building.columnOf] using member
  obtain ⟨column, found⟩ := Option.ne_none_iff_exists'.mp there
  refine ⟨column, found, ?_⟩
  have named : column.name = name := by simpa using List.find?_some found
  obtain ⟨bare, _, rfl⟩ := List.mem_map.mp (List.mem_of_find?_eq_some found)
  rw [keeps] at named
  exact behindKey_reference behind bare place key (named ▸ listed) defined

/-- A foreign key behind the primary key that it means is paired with the columns of that key in
the order in which they are defined. It is paired with them as the key lists them exactly if the
two orders are the same. -/
theorem key_paired_as_defined :
    (asDefined clauses keys).Perm keys ∧
    ∃ table, (link .deferred statements).1.table? source = some table ∧
      Paired table columns goal (asDefined clauses keys) ∧
      (Paired table columns goal keys ↔ asDefined clauses keys = keys) := by
  have perm := behindKey_perm behind
  have paired := behindKey_paired behind
  refine ⟨perm, _, deferred_table statements source own behind.sourceMade, paired, ?_⟩
  constructor
  · intro asListed
    exact paired_unique _ columns goal _ _ paired asListed
      (behind.fits.trans perm.length_eq.symm) behind.fits
  · intro same
    rw [← same]
    exact paired

end BehindKey

/-- A key that lists its columns against the order of their definitions, and a foreign key
behind it. -/
def crossedKey : List Statement :=
  [.createTable "t" [.column ⟨"a", "INT", false, false, false, none⟩,
      .column ⟨"b", "INT", false, false, false, none⟩, .constraint (.primaryKey ["b", "a"] none)] true,
    .createTable "u" [.column ⟨"x", "INT", false, false, false, none⟩,
      .column ⟨"y", "INT", false, false, false, none⟩,
      .constraint (.foreignKey ["x", "y"] ⟨"t", []⟩ none)] true]

theorem crossed_key_paired :
    ∃ table, (link .deferred crossedKey).1.table? "u" = some table ∧
      Paired table ["x", "y"] "t" ["a", "b"] ∧ ¬ Paired table ["x", "y"] "t" ["b", "a"] := by
  have behind : BehindKey crossedKey [] [] [] "t" _ ["b", "a"] "u" _ ["x", "y"] :=
    { goalMade := rfl
      sourceMade := rfl
      order := ⟨none, none, rfl⟩
      undeclared := by decide
      onlyKey := by simp
      distinctKeys := by decide
      existingKeys := by decide
      fits := rfl
      distinctColumns := by decide
      existingColumns := by decide
      lastPointed := by simp }
  obtain ⟨_, table, found, paired, asListed⟩ := key_paired_as_defined behind
  exact ⟨table, found, paired, fun listed => absurd (asListed.mp listed) (by decide)⟩

end TableScript.Link
