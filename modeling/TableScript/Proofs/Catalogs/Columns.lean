import TableScript.Catalog
import TableScript.Proofs.Linking.Binding

/-!
What the catalog of a database says about a single column. Keys, unique constraints and foreign keys
are looked up by names one after the other, but as long as no name is that of two columns they
change each column on its own: the column of a report is a function of that report. A name that no
column has changes nothing.
-/

namespace TableScript

theorem change_first_none {α : Type} (isIt : α → Bool) (change : α → α) (items : List α)
    (none : items.any isIt = false) : changeFirst isIt change items = items := by
  induction items with
  | nil => rfl
  | cons item rest ih =>
      rw [List.any_cons, Bool.or_eq_false_iff] at none
      simp [changeFirst, none.1, ih none.2]

theorem change_first_keeps {α β : Type} (image : α → β) (isIt : α → Bool) (change : α → α)
    (keeps : ∀ item, image (change item) = image item) (items : List α) :
    (changeFirst isIt change items).map image = items.map image := by
  induction items with
  | nil => rfl
  | cons item rest ih =>
      rw [changeFirst]
      split
      · rw [List.map_cons, List.map_cons, keeps]
      · rw [List.map_cons, List.map_cons, ih]

/-- The pairs of all foreign keys in order: a column, and what it is reported to point at. -/
def CatalogTable.targets {ν φ : Type} (reported : CatalogTable ν φ) : List (ν × Reference ν) :=
  reported.foreignKeys.flatMap fun key =>
    (key.columns.zip key.targetColumns).map fun pair => (pair.1, ⟨key.targetTable, pair.2⟩)

namespace Catalog

variable {ν φ : Type}

/-- A mark that counts once may be made as often as it is reported. -/
theorem marked_once {σ : Type} (concerns : ν → σ → Bool) (mark : Column ν φ → Column ν φ)
    (names : ∀ column, (mark column).name = column.name)
    (once : ∀ column, mark (mark column) = mark column) (items : List σ) (column : Column ν φ) :
    items.foldl (fun column item => if concerns column.name item then mark column else column) column =
      if items.any (concerns column.name) then mark column else column := by
  induction items generalizing column with
  | nil => rfl
  | cons item rest ih =>
      rw [List.foldl_cons, ih, List.any_cons]
      cases concerns column.name item with
      | true => simp [names, once]
      | false => simp

variable [OfText ν]

/-- No name is the name of two columns. -/
def NamedApart (columns : List (Column ν φ)) : Prop :=
  ∀ name, columns.Pairwise fun one other =>
    sameStored one.name name = true → sameStored other.name name = false

/-- A step that does something to each column on its own, and leaves its name as it is. -/
structure Each (step : Table ν φ → Table ν φ) (change : Column ν φ → Column ν φ) : Prop where
  names : ∀ column, (change column).name = column.name
  columns : ∀ table, NamedApart table.columns →
    step table = { table with columns := table.columns.map change }

theorem namedApart_map (change : Column ν φ → Column ν φ)
    (names : ∀ column, (change column).name = column.name) (columns : List (Column ν φ))
    (apart : NamedApart columns) : NamedApart (columns.map change) := by
  intro name
  rw [List.pairwise_map]
  simpa only [names] using apart name

theorem each_nothing : Each (fun table : Table ν φ => table) fun column => column where
  names := fun _ => rfl
  columns := fun table _ => by rw [List.map_id']

theorem each_then {first second : Table ν φ → Table ν φ} {one two : Column ν φ → Column ν φ}
    (does : Each first one) (follows : Each second two) :
    Each (fun table => second (first table)) fun column => two (one column) where
  names := fun column => (follows.names _).trans (does.names column)
  columns := by
    intro table apart
    have apart' := namedApart_map one does.names table.columns apart
    rw [does.columns table apart, follows.columns _ apart', List.map_map]
    rfl

theorem each_all {σ : Type} {step : Table ν φ → σ → Table ν φ} {change : Column ν φ → σ → Column ν φ}
    (one : ∀ item, Each (step · item) (change · item)) (items : List σ) :
    Each (items.foldl step) (items.foldl change) := by
  induction items with
  | nil => exact each_nothing
  | cons item rest ih => exact each_then (one item) ih

theorem each_named (name : ν) (change : Column ν φ → Column ν φ)
    (names : ∀ column, (change column).name = column.name) :
    Each (Table.changeColumn name change)
      fun column => if sameStored column.name name then change column else column where
  names := by
    intro column
    split
    · exact names column
    · rfl
  columns := by
    intro table apart
    rw [Table.changeColumn, change_first_only _ change table.columns (apart name)]

def pointTo (table : Table ν φ) (pair : ν × Reference ν) : Table ν φ :=
  pointPair pair.2.table table (pair.1, pair.2.column)

/-- Whether a pair points a column with a name at something. -/
def points (name : ν) (pair : ν × Reference ν) : Bool :=
  holdsStored pair.2.column && sameStored name pair.1

def pointed (column : Column ν φ) (pair : ν × Reference ν) : Column ν φ :=
  if points column.name pair then { column with reference := some pair.2 } else column

def lastTarget? (name : ν) (pairs : List (ν × Reference ν)) : Option (Reference ν) :=
  ((pairs.filter (points name)).getLast?).map (·.2)

theorem points_eq_targets (reported : CatalogTable ν φ) (table : Table ν φ) :
    reported.foreignKeys.foldl point table = reported.targets.foldl pointTo table := by
  rw [CatalogTable.targets, List.foldl_flatMap]
  simp only [List.foldl_map]
  rfl

theorem each_target (pair : ν × Reference ν) : Each (φ := φ) (pointTo · pair) (pointed · pair) := by
  cases holds : holdsStored pair.2.column with
  | true =>
      have named := each_named pair.1 (fun column : Column ν φ => { column with reference := some pair.2 })
        fun _ => rfl
      simpa [pointTo, pointPair, pointed, points, holds] using named
  | false => simpa [pointTo, pointPair, pointed, points, holds] using each_nothing

/-- The last pair that points a column at something decides. -/
theorem pointed_all (pairs : List (ν × Reference ν)) (column : Column ν φ) :
    pairs.foldl pointed column =
      { column with reference := (lastTarget? column.name pairs).or column.reference } := by
  induction pairs generalizing column with
  | nil => rfl
  | cons pair rest ih =>
      rw [List.foldl_cons, ih, pointed, lastTarget?, lastTarget?, List.filter_cons]
      cases points column.name pair with
      | true =>
          simp only [if_true, List.getLast?_cons]
          cases (rest.filter (points column.name)).getLast? <;> rfl
      | false => rfl

variable [OfFlag φ]

def asKey (column : Column ν φ) : Column ν φ :=
  { column with primaryKey := ofFlag true, nullable := ofFlag false }

def keyed (column : Column ν φ) (name : ν) : Column ν φ :=
  if sameStored column.name name then asKey column else column

def asUnique (column : Column ν φ) : Column ν φ :=
  { column with unique := ofFlag true }

/-- A constraint over a single column is about the column with that name. -/
def isAlone (name : ν) : List ν → Bool
  | [only] => sameStored name only
  | _ => false

def singled (column : Column ν φ) (names : List ν) : Column ν φ :=
  if isAlone column.name names then asUnique column else column

theorem each_key (name : ν) : Each (φ := φ) (markKey · name) (keyed · name) :=
  each_named name asKey fun _ => rfl

theorem each_unique (names : List ν) : Each (φ := φ) (markUnique · names) (singled · names) := by
  match names with
  | [name] => exact each_named name asUnique fun _ => rfl
  | [] => exact each_nothing
  | _ :: _ :: _ => exact each_nothing

theorem keyed_all (names : List ν) (column : Column ν φ) :
    names.foldl keyed column =
      if names.any (sameStored column.name) then asKey column else column :=
  marked_once sameStored asKey (fun _ => rfl) (fun _ => rfl) names column

theorem singled_all (constraints : List (List ν)) (column : Column ν φ) :
    constraints.foldl singled column =
      if constraints.any (isAlone column.name) then asUnique column else column :=
  marked_once isAlone asUnique (fun _ => rfl) (fun _ => rfl) constraints column

/-- The column that a report makes of what it says about one. -/
def reportedColumn (reported : CatalogTable ν φ) (found : CatalogColumn ν φ) : Column ν φ :=
  let isKey := reported.keyColumns.any (sameStored found.name)
  { name := found.name
    dataType := ofText (normalizeType (inWords found.dataType))
    primaryKey := ofFlag isKey
    nullable := if isKey then ofFlag false else found.nullable
    unique := ofFlag (reported.unique.any (isAlone found.name))
    reference := lastTarget? found.name reported.targets }

theorem column_reported (reported : CatalogTable ν φ) (found : CatalogColumn ν φ) :
    reported.targets.foldl pointed
        (reported.unique.foldl singled (reported.keyColumns.foldl keyed (columnOf found))) =
      reportedColumn reported found := by
  rw [keyed_all, singled_all, pointed_all]
  cases key : reported.keyColumns.any (sameStored found.name) <;>
    cases unique : reported.unique.any (isAlone found.name) <;>
    simp [columnOf, reportedColumn, asKey, asUnique, key, unique]

theorem tableOf_targets (reported : CatalogTable ν φ) :
    tableOf reported = reported.targets.foldl pointTo
      (reported.unique.foldl markUnique
        (reported.keyColumns.foldl markKey ⟨reported.name, reported.columns.map columnOf, none⟩)) :=
  points_eq_targets reported _

theorem tableOf_eq (reported : CatalogTable ν φ)
    (apart : NamedApart (reported.columns.map (columnOf : CatalogColumn ν φ → Column ν φ))) :
    tableOf reported = ⟨reported.name, reported.columns.map (reportedColumn reported), none⟩ := by
  -- Each list is worked off name by name, and every step does the same to a column wherever it stands.
  have marks := each_then (each_all (φ := φ) each_key reported.keyColumns) (each_all each_unique reported.unique)
  have steps := each_then marks (each_all each_target reported.targets)
  have columns : (reported.columns.map columnOf).map (fun column => reported.targets.foldl pointed
      (reported.unique.foldl singled (reported.keyColumns.foldl keyed column))) =
      reported.columns.map (reportedColumn reported) := by
    rw [List.map_map]
    exact List.map_congr_left fun found _ => column_reported reported found
  rw [tableOf_targets, steps.columns _ apart, columns]

end Catalog

namespace CatalogTable

variable {ν φ : Type} [OfText ν]

/-- Whether a name is that of a reported column. -/
def knows (reported : CatalogTable ν φ) (name : ν) : Bool :=
  reported.columns.any fun column => sameStored column.name name

def knownPairs (reported : CatalogTable ν φ) (key : CatalogForeignKey ν) : List (ν × ν) :=
  (key.columns.zip key.targetColumns).filter fun pair => reported.knows pair.1

/-- A report without the names that are of no reported column: they are left out of the primary key and,
each with what it is paired with, of the foreign keys, and a unique constraint with such a name is left
out. -/
def known (reported : CatalogTable ν φ) : CatalogTable ν φ :=
  { reported with
    primaryKey := reported.primaryKey.map fun key => ⟨key.columns.map (·.filter reported.knows)⟩
    unique := reported.unique.filter (·.all reported.knows)
    foreignKeys := reported.foreignKeys.map fun key =>
      ⟨(reported.knownPairs key).map (·.1), key.targetTable, (reported.knownPairs key).map (·.2)⟩ }

theorem keyColumns_known (reported : CatalogTable ν φ) :
    reported.known.keyColumns = reported.keyColumns.filter reported.knows := by
  rw [keyColumns, keyColumns, known]
  cases reported.primaryKey with
  | none => rfl
  | some key => cases found : key.columns <;> simp [found]

theorem targets_known (reported : CatalogTable ν φ) :
    reported.known.targets = reported.targets.filter fun pair => reported.knows pair.1 := by
  rw [targets, targets, known, List.flatMap_map, List.filter_flatMap]
  congr 1
  funext key
  have zipped : ((reported.knownPairs key).map (·.1)).zip ((reported.knownPairs key).map (·.2)) =
      reported.knownPairs key := (List.zip_of_prod rfl rfl).symm
  rw [zipped, knownPairs, List.filter_map]
  rfl

end CatalogTable

namespace Catalog

variable {ν φ : Type}

/-- The columns of a table have the names that are reported, in order. -/
def Names (reported : CatalogTable ν φ) (table : Table ν φ) : Prop :=
  table.columns.map (·.name) = reported.columns.map (·.name)

/-- A step that leaves the names of the columns as they are, and does nothing for what is not known. -/
structure Looks {σ : Type} (reported : CatalogTable ν φ) (known : σ → Bool)
    (step : Table ν φ → σ → Table ν φ) : Prop where
  names : ∀ table item, Names reported table → Names reported (step table item)
  idle : ∀ table item, Names reported table → known item = false → step table item = table

/-- What is not known may be left out of a report. -/
theorem foldl_known {σ : Type} {reported : CatalogTable ν φ} {known : σ → Bool}
    {step : Table ν φ → σ → Table ν φ} (looks : Looks reported known step) (items : List σ)
    (table : Table ν φ) (names : Names reported table) :
    (items.filter known).foldl step table = items.foldl step table ∧
      Names reported (items.foldl step table) := by
  induction items generalizing table with
  | nil => exact ⟨rfl, names⟩
  | cons item rest ih =>
      obtain ⟨same, ends⟩ := ih (step table item) (looks.names table item names)
      refine ⟨?_, ends⟩
      rw [List.filter_cons, List.foldl_cons, ← same]
      cases found : known item with
      | true => rfl
      | false => simp [looks.idle table item names found]

variable [OfText ν]

theorem changeColumn_names (reported : CatalogTable ν φ) (table : Table ν φ) (names : Names reported table)
    (name : ν) (change : Column ν φ → Column ν φ) (keeps : ∀ column, (change column).name = column.name) :
    Names reported (table.changeColumn name change) :=
  (change_first_keeps _ _ change keeps table.columns).trans names

theorem changeColumn_unknown (reported : CatalogTable ν φ) (table : Table ν φ) (names : Names reported table)
    (name : ν) (change : Column ν φ → Column ν φ) (unknown : reported.knows name = false) :
    table.changeColumn name change = table := by
  have none : table.columns.any (fun column => sameStored column.name name) = false := by
    have same := congrArg (·.any (sameStored · name)) names
    simp only [List.any_map] at same
    exact same.trans unknown
  rw [Table.changeColumn, change_first_none _ change table.columns none]

theorem looks_target (reported : CatalogTable ν φ) :
    Looks reported (fun pair => reported.knows pair.1) pointTo where
  names := by
    intro table pair names
    rw [pointTo, pointPair]
    split
    · exact changeColumn_names reported table names _ _ fun _ => rfl
    · exact names
  idle := by
    intro table pair names unknown
    rw [pointTo, pointPair]
    split
    · exact changeColumn_unknown reported table names _ _ unknown
    · rfl

variable [OfFlag φ]

theorem looks_key (reported : CatalogTable ν φ) : Looks reported reported.knows markKey where
  names := fun table name names => changeColumn_names reported table names name _ fun _ => rfl
  idle := fun table name names unknown => changeColumn_unknown reported table names name _ unknown

theorem looks_unique (reported : CatalogTable ν φ) :
    Looks reported (fun names => names.all reported.knows) markUnique where
  names := by
    intro table constraint names
    match constraint with
    | [name] => exact changeColumn_names reported table names name _ fun _ => rfl
    | [] => exact names
    | _ :: _ :: _ => exact names
  idle := by
    intro table constraint names unknown
    match constraint with
    | [name] =>
        have unknown' : reported.knows name = false := by simpa using unknown
        exact changeColumn_unknown reported table names name _ unknown'
    | [] => rfl
    | _ :: _ :: _ => rfl

theorem tableOf_known (reported : CatalogTable ν φ) : tableOf reported.known = tableOf reported := by
  have start : Names reported (⟨reported.name, reported.columns.map columnOf, none⟩ : Table ν φ) :=
    List.map_map
  obtain ⟨keys, names⟩ := foldl_known (looks_key reported) reported.keyColumns _ start
  obtain ⟨unique, names⟩ := foldl_known (looks_unique reported) reported.unique _ names
  obtain ⟨targets, _⟩ := foldl_known (looks_target reported) reported.targets _ names
  rw [tableOf_targets, tableOf_targets, reported.keyColumns_known, reported.targets_known, ← targets,
    ← unique, ← keys]
  rfl

theorem introspect_known (reported : List (CatalogTable ν φ)) :
    introspect (reported.map (·.known)) = introspect reported := by
  have step : (fun state (table : CatalogTable ν φ) => addReported state table.known) = addReported := by
    funext state table
    rw [addReported, tableOf_known]
    rfl
  rw [introspect, List.foldl_map, step]
  rfl

end Catalog

end TableScript
