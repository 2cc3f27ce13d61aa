import TableScript.Proofs.Linking.WellFormed

/-!
The edges of a diagram and their ids. There is one edge for each column with a reference, in the
order of tables and columns. An id tells the pieces that the names of an edge have between hyphens,
but not where one name ends and the next begins: two edges share an id if their names come to the
same pieces, and only then. Where no more than one of the three names may hold a hyphen, that does
not happen.
-/

namespace TableScript

/-- The columns with a reference, each with its table. -/
def PlainSchema.foreignKeys (schema : PlainSchema) : List (PlainTable × PlainColumn) :=
  schema.tables.flatMap fun table => (table.columns.filter (·.reference.isSome)).map (table, ·)

namespace Relationship

/-- The edge of a column with a reference. -/
def Joins (edge : Relationship String) (key : PlainTable × PlainColumn) : Prop :=
  edge.source = key.1.name ∧ edge.sourceColumn = key.2.name ∧
    key.2.reference = some ⟨edge.target, edge.targetColumn⟩

/-- Where an edge begins. -/
def start (edge : Relationship String) : String × String :=
  (edge.source, edge.sourceColumn)

theorem edges_join (table : PlainTable) (columns : List PlainColumn) :
    List.Forall₂ Joins
      (columns.filterMap fun column => column.reference.map fun reference =>
        ⟨table.name, column.name, reference.table, reference.column⟩)
      ((columns.filter (·.reference.isSome)).map (table, ·)) := by
  induction columns with
  | nil => exact .nil
  | cons column rest ih =>
      cases found : column.reference with
      | none => simpa [found] using ih
      | some reference =>
          have head : Joins ⟨table.name, column.name, reference.table, reference.column⟩
            (table, column) := ⟨rfl, rfl, found⟩
          simpa [found] using And.intro head ih

theorem relationships_join (tables : List PlainTable) :
    List.Forall₂ Joins (Schema.mk tables).relationships (PlainSchema.foreignKeys ⟨tables⟩) := by
  induction tables with
  | nil => exact .nil
  | cons table rest ih => exact List.rel_append (edges_join table table.columns) ih

theorem starts_distinct (schema : PlainSchema) (tables : (schema.tables.map (·.name)).Nodup)
    (columns : ∀ table ∈ schema.tables, table.Distinct) : (schema.relationships.map start).Nodup := by
  rw [List.Nodup, List.pairwise_map, Schema.relationships, List.pairwise_flatMap]
  constructor
  · intro table member
    rw [List.pairwise_filterMap]
    refine (List.pairwise_map.mp (columns table member)).imp fun {one other} apart => ?_
    rintro edge found edge' found' same
    obtain ⟨_, _, rfl⟩ := Option.map_eq_some_iff.mp found
    obtain ⟨_, _, rfl⟩ := Option.map_eq_some_iff.mp found'
    exact apart (Prod.mk.inj same).2
  · refine (List.pairwise_map.mp tables).imp fun {one other} apart => ?_
    rintro edge inside edge' inside' same
    obtain ⟨_, _, found⟩ := List.mem_filterMap.mp inside
    obtain ⟨_, _, found'⟩ := List.mem_filterMap.mp inside'
    obtain ⟨_, _, rfl⟩ := Option.map_eq_some_iff.mp found
    obtain ⟨_, _, rfl⟩ := Option.map_eq_some_iff.mp found'
    exact apart (Prod.mk.inj same).1

/-- The names of an edge, cut at their hyphens. -/
def pieces (edge : Relationship String) : List (List Char) :=
  edge.source.toList.splitOn '-' ++ edge.sourceColumn.toList.splitOn '-' ++
    edge.target.toList.splitOn '-'

theorem splitOn_behind (separator : Char) (front rest : List Char) :
    (front ++ separator :: rest).splitOn separator =
      front.splitOn separator ++ rest.splitOn separator :=
  List.splitOnP_append_cons front rest (by simp)

theorem splitOn_alone (separator : Char) (chars : List Char) (absent : separator ∉ chars) :
    chars.splitOn separator = [chars] := by
  refine List.splitOnP_eq_singleton fun char member => ?_
  simpa using ne_of_mem_of_not_mem member absent

theorem splitOn_injective (separator : Char) (one other : List Char)
    (same : one.splitOn separator = other.splitOn separator) : one = other := by
  have joined := congrArg (List.intercalate [separator]) same
  rwa [List.intercalate_splitOn, List.intercalate_splitOn] at joined

theorem id_chars (edge : Relationship String) :
    edge.id.toList = 'e' :: '-' :: (edge.source.toList ++ '-' ::
      (edge.sourceColumn.toList ++ '-' :: edge.target.toList)) := by
  simp [Relationship.id, inWords, toValue, Value.inWords, Value.inWordsWith]

theorem id_pieces (edge : Relationship String) :
    edge.id.toList.splitOn '-' = ['e'] :: edge.pieces := by
  have letter : 'e' :: '-' :: (edge.source.toList ++ '-' ::
      (edge.sourceColumn.toList ++ '-' :: edge.target.toList)) = ['e'] ++ '-' ::
      (edge.source.toList ++ '-' :: (edge.sourceColumn.toList ++ '-' :: edge.target.toList)) := rfl
  rw [id_chars, letter, splitOn_behind, splitOn_behind, splitOn_behind, splitOn_alone '-' ['e'] (by decide),
    pieces, List.append_assoc, List.singleton_append]

/-- An id tells the pieces of the names between hyphens, and nothing else. -/
theorem id_eq_iff (one other : Relationship String) : one.id = other.id ↔ one.pieces = other.pieces := by
  constructor
  · intro same
    have cut := congrArg (fun text => text.toList.splitOn '-') same
    simp only [id_pieces] at cut
    exact (List.cons.inj cut).2
  · intro same
    have cut : one.id.toList.splitOn '-' = other.id.toList.splitOn '-' := by
      rw [id_pieces, id_pieces, same]
    exact String.toList_inj.mp (splitOn_injective '-' _ _ cut)

def Unhyphenated (name : String) : Prop :=
  '-' ∉ name.toList

instance (name : String) : Decidable (Unhyphenated name) :=
  inferInstanceAs (Decidable ('-' ∉ name.toList))

/-- Of the three names in an id no more than one may hold a hyphen, and for all edges the same. -/
def NamesApart (edges : List (Relationship String)) : Prop :=
  (∀ edge ∈ edges, Unhyphenated edge.source ∧ Unhyphenated edge.sourceColumn) ∨
  (∀ edge ∈ edges, Unhyphenated edge.source ∧ Unhyphenated edge.target) ∨
  (∀ edge ∈ edges, Unhyphenated edge.sourceColumn ∧ Unhyphenated edge.target)

theorem start_told {edges : List (Relationship String)} (apart : NamesApart edges)
    (one : Relationship String) (among : one ∈ edges) (other : Relationship String)
    (among' : other ∈ edges) (same : one.id = other.id) : one.start = other.start := by
  have alone := fun (name : String) (plain : Unhyphenated name) => splitOn_alone '-' name.toList plain
  have cut := (id_eq_iff one other).mp same
  rw [pieces, pieces] at cut
  rcases apart with plain | plain | plain
  · obtain ⟨source, column⟩ := plain one among
    obtain ⟨source', column'⟩ := plain other among'
    rw [alone _ source, alone _ column, alone _ source', alone _ column'] at cut
    simp only [List.cons_append, List.nil_append, List.cons.injEq, String.toList_inj] at cut
    exact Prod.ext cut.1 cut.2.1
  · obtain ⟨source, target⟩ := plain one among
    obtain ⟨source', target'⟩ := plain other among'
    rw [alone _ source, alone _ target, alone _ source', alone _ target'] at cut
    obtain ⟨front, _⟩ := List.append_inj' cut rfl
    obtain ⟨first, columns⟩ := List.cons.inj front
    exact Prod.ext (String.toList_inj.mp first) (String.toList_inj.mp (splitOn_injective '-' _ _ columns))
  · obtain ⟨column, target⟩ := plain one among
    obtain ⟨column', target'⟩ := plain other among'
    rw [alone _ column, alone _ target, alone _ column', alone _ target'] at cut
    obtain ⟨front, _⟩ := List.append_inj' cut rfl
    obtain ⟨sources, columns⟩ := List.append_inj' front rfl
    exact Prod.ext (String.toList_inj.mp (splitOn_injective '-' _ _ sources))
      (String.toList_inj.mp (List.cons.inj columns).1)

/-- What the edges of a schema and their ids are. -/
structure EdgesTold (schema : PlainSchema) : Prop where
  joined : List.Forall₂ Joins schema.relationships schema.foreignKeys
  starts : (schema.relationships.map start).Nodup
  identified : (schema.relationships.map (·.id)).Nodup ↔
    schema.relationships.Pairwise fun one other => one.pieces ≠ other.pieces
  unhyphenated : NamesApart schema.relationships → (schema.relationships.map (·.id)).Nodup

/-- Edges and columns with a reference correspond one to one and in order, and the ids of the edges
are different unless the names of two of them come to the same pieces between hyphens. -/
theorem edges_told (schema : PlainSchema) (tables : (schema.tables.map (·.name)).Nodup)
    (columns : ∀ table ∈ schema.tables, table.Distinct) : EdgesTold schema := by
  have starts := starts_distinct schema tables columns
  constructor
  case joined => exact relationships_join schema.tables
  case starts => exact starts
  case identified =>
    rw [List.Nodup, List.pairwise_map]
    simp only [ne_eq, id_eq_iff]
  case unhyphenated =>
    intro apart
    rw [List.Nodup, List.pairwise_map] at starts ⊢
    refine starts.imp_of_mem fun {one other} among among' different same => ?_
    exact different (start_told apart one among other among' same)

-- Two columns with names that run into those of their tables, and tables with hyphens that no
-- reference is from.
def crossedSchema : PlainSchema :=
  ⟨[⟨"t", [⟨"id", "INT", true, false, false, none⟩], none⟩,
    ⟨"a-b", [⟨"c", "INT", false, true, false, some ⟨"t", "id"⟩⟩], none⟩,
    ⟨"a", [⟨"b-c", "INT", false, true, false, some ⟨"t", "id"⟩⟩], none⟩]⟩

def staffSchema : PlainSchema :=
  ⟨[⟨"staff-role", [⟨"id", "INT", true, false, false, none⟩], none⟩,
    ⟨"user", [⟨"role", "INT", false, true, false, some ⟨"staff-role", "id"⟩⟩,
      ⟨"deputy", "INT", false, true, false, some ⟨"staff-role", "id"⟩⟩], none⟩]⟩

theorem crossed_edges_told :
    ((crossedSchema.tables.map (·.name)).Nodup ∧ (∀ table ∈ crossedSchema.tables, table.Distinct) ∧
      ¬ (crossedSchema.relationships.map (·.id)).Nodup) ∧
    (staffSchema.tables.map (·.name)).Nodup ∧ (∀ table ∈ staffSchema.tables, table.Distinct) ∧
      NamesApart staffSchema.relationships ∧ (staffSchema.relationships.map (·.id)).Nodup := by
  have tables : (crossedSchema.tables.map (·.name)).Nodup := by decide
  have columns : ∀ table ∈ crossedSchema.tables, table.Distinct := by
    simp [crossedSchema, Table.Distinct]
  have tables' : (staffSchema.tables.map (·.name)).Nodup := by decide
  have columns' : ∀ table ∈ staffSchema.tables, table.Distinct := by
    simp [staffSchema, Table.Distinct]
  have apart : NamesApart staffSchema.relationships := .inl (by decide)
  refine ⟨⟨tables, columns, ?_⟩, tables', columns', apart, (edges_told _ tables' columns').unhyphenated apart⟩
  rw [(edges_told crossedSchema tables columns).identified]
  decide

end Relationship

end TableScript
