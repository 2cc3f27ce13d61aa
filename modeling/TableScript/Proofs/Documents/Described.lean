import TableScript.Schema.Load
import Mathlib.Data.List.Forall2

/-!
What a document says, told apart from how it is loaded. Its entries describe the tables and columns
of a schema one by one, in order; a document is loaded as a schema just where it describes that
schema, and what it does not describe is refused.
-/

namespace TableScript

namespace Value

/-- What an object has in a field. -/
def field? (key : String) : Value → Option Value
  | .object fields => lookup key fields
  | _ => none

/-- What an object has in a field, which is null where there is no such field. -/
def part (key : String) (value : Value) : Value :=
  (value.field? key).getD .null

/-- What there is to go through in a field, which is nothing where there is no such field. -/
def entries? (key : String) (value : Value) : Option (List Value) :=
  ((value.field? key).getD (.list [])).items?.toOption

end Value

namespace Load

/-- A reference is none where its place counts as false, and otherwise has both of its parts. -/
def DescribesReference (found : Value) : Option (Reference Value) → Prop
  | none => found.holds = false
  | some reference =>
      found.part "table" = reference.table ∧ reference.table.holds = true ∧
        found.part "column" = reference.column ∧ reference.column.holds = true

/-- A data type is a text, or stands at a place that counts as false. -/
def DescribesType (found : Value) (dataType : String) : Prop :=
  ∃ written, (found = .text written ∨ found.holds = false ∧ written = "") ∧
    dataType = normalizeType written

structure DescribesColumn (value : Value) (column : Column Value Bool) : Prop where
  name : value.part "name" = column.name
  named : column.name.holds = true
  dataType : ∃ dataType, DescribesType (value.part "data_type") dataType ∧
    column.dataType = .text dataType
  primaryKey : column.primaryKey = (value.part "is_primary_key").holds
  -- A key column cannot be left empty, whatever its entry says.
  nullable : column.nullable =
    ((value.field? "is_nullable").elim true Value.holds && !column.primaryKey)
  unique : column.unique = (value.part "is_unique").holds
  reference : DescribesReference (value.part "foreign_key_reference") column.reference
  pointed : (value.part "is_foreign_key").holds = true → column.reference.isSome = true

def DescribesPosition (found : Value) : Option Position → Prop
  | none => found = .null
  | some position => found.kind = .object ∧
      position.x = (found.field? "x").getD (.int 0) ∧ position.y = (found.field? "y").getD (.int 0)

structure DescribesTable (value : Value) (table : Table Value Bool) : Prop where
  name : value.part "name" = table.name
  named : table.name.holds = true
  columns : ∃ entries ∈ value.entries? "columns",
    List.Forall₂ DescribesColumn entries table.columns
  distinct : table.columns.Pairwise fun one other => sameStored one.name other.name = false
  position : DescribesPosition (value.part "position") table.position

/-- A document describes a schema when its tables do so one by one, in order. -/
structure Describes (value : Value) (schema : Schema Value Bool) : Prop where
  object : value.kind = .object
  tables : ∃ entries, (value.field? "tables").getD (.list []) = .list entries ∧
    List.Forall₂ DescribesTable entries schema.tables
  distinct : schema.tables.Pairwise fun one other => sameStored one.name other.name = false

theorem forall₂_left {α β : Type} {related : α → β → Prop} {first : List α} {second : List β}
    (each : List.Forall₂ related first second) : ∀ a ∈ first, ∃ b ∈ second, related a b := by
  induction each with
  | nil => simp
  | cons head _ ih =>
      rintro a (_ | ⟨_, member⟩)
      · exact ⟨_, List.mem_cons_self, head⟩
      · obtain ⟨b, among, same⟩ := ih a member
        exact ⟨b, List.mem_cons_of_mem _ among, same⟩

theorem loaded_bind {α β : Type} (first : Loaded α) (next : α → Loaded β) (result : β) :
    first >>= next = .ok result ↔ ∃ a, first = .ok a ∧ next a = .ok result := by
  cases first with
  | error fault => simp [bind, Except.bind]
  | ok a => simp [bind, Except.bind]

theorem loaded_map {α β : Type} (first : Loaded α) (change : α → β) (result : β) :
    first.map change = .ok result ↔ ∃ a, first = .ok a ∧ change a = result := by
  cases first with
  | error fault => simp [Except.map]
  | ok a => simp [Except.map]

/-- A step that may refuse before it goes on. -/
theorem loaded_check {β : Type} (refused : Prop) [Decidable refused] (fault : LoadFault)
    (next : Unit → Loaded β) (result : β) :
    ((if refused then do let r ← throw fault; next r else next ()) : Loaded β) = .ok result ↔
      ¬ refused ∧ next () = .ok result := by
  by_cases no : refused
  · simp only [no, if_true, not_true, false_and, iff_false]
    intro same
    cases same
  · simp only [no, if_false, not_false_eq_true, true_and]

theorem fieldOr_part (key : String) (fields : List (String × Value)) :
    fieldOr .null key fields = (Value.object fields).part key := rfl

theorem fieldOr_holds (key : String) (fields : List (String × Value)) :
    (fieldOr (.bool false) key fields).holds = ((Value.object fields).part key).holds := by
  rw [fieldOr, Value.part, Value.field?]
  cases Value.lookup key fields <;> rfl

theorem fieldOr_holds_else (key : String) (fields : List (String × Value)) :
    (fieldOr (.bool true) key fields).holds =
      ((Value.object fields).field? key).elim true Value.holds := by
  rw [fieldOr, Value.field?]
  cases Value.lookup key fields <;> rfl

theorem misuse_ok {α : Type} (use : Except Misuse α) (result : α) :
    orMisuse use = .ok result ↔ result ∈ use.toOption := by
  cases use with
  | error misuse => simp [orMisuse, Except.toOption]
  | ok a => simp [orMisuse, Except.toOption, eq_comm]

theorem part_object {key : String} {value : Value} (holds : (value.part key).holds = true) :
    ∃ fields, value = .object fields := by
  cases value with
  | object fields => exact ⟨fields, rfl⟩
  | _ => cases holds

/-- Only an object that has something counts as having anything in a field. -/
theorem part_holds {key : String} {value : Value} (holds : (value.part key).holds = true) :
    value.holds = true := by
  obtain ⟨fields, rfl⟩ := part_object holds
  cases fields with
  | nil => cases holds
  | cons field rest => rfl

theorem named_object (fields : List (String × Value)) :
    named? (.object fields) =
      if ((Value.object fields).part "name").holds then
        some (fields, (Value.object fields).part "name") else none := rfl

theorem named_some (value name : Value) (fields : List (String × Value)) :
    named? value = some (fields, name) ↔
      value = .object fields ∧ value.part "name" = name ∧ name.holds = true := by
  cases value with
  | object found =>
      rw [named_object]
      constructor
      · intro given
        split at given
        case isTrue named =>
          cases given
          exact ⟨rfl, rfl, named⟩
        case isFalse => cases given
      · rintro ⟨⟨rfl⟩, rfl, named⟩
        rw [if_pos named]
  | _ => simp [named?]

theorem named_none (value : Value) :
    named? value = none ↔ (value.part "name").holds = false := by
  cases value with
  | object fields => simp [named_object]
  | _ => simp [named?, Value.part, Value.field?, Value.holds]

theorem reference_object (name : Value) (fields : List (String × Value))
    (holds : (Value.object fields).holds = true) :
    Load.reference name (.object fields) =
      if ((Value.object fields).part "table").holds && ((Value.object fields).part "column").holds then
        .ok (some ⟨(Value.object fields).part "table", (Value.object fields).part "column"⟩)
      else .error (.incompleteReference name (.object fields)) := by
  simp only [Load.reference, holds, Value.fields?]
  rfl

/-- A reference is what its place describes, and a place that describes none is refused. -/
theorem reference_ok (name found : Value) (reference : Option (Reference Value)) :
    Load.reference name found = .ok reference ↔ DescribesReference found reference := by
  by_cases holds : found.holds = true
  · cases found with
    | object fields =>
        rw [reference_object name fields holds]
        split
        case isTrue complete =>
          rw [Bool.and_eq_true] at complete
          cases reference with
          | none => simp [DescribesReference, holds]
          | some read =>
              obtain ⟨table, column⟩ := read
              constructor
              · rintro ⟨⟩
                exact ⟨rfl, complete.1, rfl, complete.2⟩
              · rintro ⟨rfl, _, rfl, _⟩
                rfl
        case isFalse incomplete =>
          cases reference with
          | none => simp [DescribesReference, holds]
          | some read =>
              constructor
              · rintro ⟨⟩
              · rintro ⟨table, named, column, pointed⟩
                rw [table, column, named, pointed] at incomplete
                exact absurd rfl incomplete
    | _ =>
        cases reference with
        | none => simp [Load.reference, Value.fields?, DescribesReference, holds]
        | some read =>
            constructor
            · intro loaded
              simp [Load.reference, holds, Value.fields?] at loaded
            · rintro ⟨table, named, _⟩
              rw [← table] at named
              cases named
  · cases reference with
    | none => simp [Load.reference, holds, DescribesReference]
    | some read =>
        constructor
        · intro loaded
          simp [Load.reference, holds] at loaded
        · rintro ⟨table, named, _⟩
          rw [← table] at named
          exact absurd (part_holds named) holds

theorem dataType_ok (found : Value) (dataType : String) :
    Load.dataType found = .ok dataType ↔ DescribesType found dataType := by
  rw [Load.dataType]
  by_cases holds : found.holds = true
  · cases found with
    | text written =>
        simp [DescribesType, holds, Value.textFor, Value.text?, orMisuse, Except.map, eq_comm]
    | _ => simp [DescribesType, holds, Value.textFor, Value.text?, orMisuse, Except.map]
  · rw [if_neg holds]
    constructor
    · intro loaded
      have same := (Except.ok.inj loaded).symm
      exact ⟨"", Or.inr ⟨Bool.not_eq_true _ |>.mp holds, rfl⟩, same⟩
    · rintro ⟨written, found, spelled⟩
      have empty : written = "" := by
        rcases found with text | nothing
        · simpa [text, Value.holds] using holds
        · exact nothing.2
      rw [spelled, empty]

/-- A column is loaded of an entry just where the entry describes it. -/
theorem column_ok (value : Value) (column : Column Value Bool) :
    Load.column value = .ok column ↔ DescribesColumn value column := by
  rw [Load.column]
  cases given : named? value with
  | none =>
      have nameless := (named_none value).mp given
      constructor
      · rintro ⟨⟩
      · intro described
        rw [described.name, described.named] at nameless
        cases nameless
  | some found =>
      obtain ⟨fields, name⟩ := found
      obtain ⟨rfl, rfl, named⟩ := (named_some value name fields).mp given
      simp only [loaded_bind, loaded_check, fieldOr_part, fieldOr_holds, fieldOr_holds_else,
        reference_ok, dataType_ok, Bool.and_eq_true, not_and, Option.isNone_iff_eq_none, ← Option.isSome_iff_ne_none]
      constructor
      · rintro ⟨reference, points, pointed, dataType, spelled, same⟩
        cases same
        exact ⟨rfl, named, ⟨dataType, spelled, rfl⟩, rfl, rfl, rfl, points, pointed⟩
      · intro described
        obtain ⟨dataType, spelled, typed⟩ := described.dataType
        refine ⟨column.reference, described.reference, described.pointed, dataType, spelled, ?_⟩
        rw [← described.primaryKey, ← described.nullable, ← described.unique, ← typed, described.name]
        rfl

section Gather

variable {α : Type} (load : Value → Loaded α) (same : α → α → Bool) (clash : α → LoadFault)

/-- Loads entries one after the other, each of which has to differ from those before it. -/
def gather (done : List α) : List Value → Loaded (List α)
  | [] => .ok done
  | entry :: rest =>
      match load entry with
      | .error fault => .error fault
      | .ok new => if done.any (same · new) then .error (clash new) else gather (done ++ [new]) rest

variable {load same clash}

theorem gather_ok (entries : List Value) (done all : List α)
    (apart : done.Pairwise fun one other => same one other = false) :
    gather load same clash done entries = .ok all ↔
      ∃ added, all = done ++ added ∧
        List.Forall₂ (fun entry new => load entry = .ok new) entries added ∧
        all.Pairwise fun one other => same one other = false := by
  induction entries generalizing done with
  | nil =>
      rw [gather]
      constructor
      · intro loaded
        cases loaded
        exact ⟨[], (List.append_nil _).symm, .nil, apart⟩
      · rintro ⟨added, rfl, each, _⟩
        cases each
        rw [List.append_nil]
  | cons entry rest ih =>
      rw [gather]
      cases loaded : load entry with
      | error fault =>
          constructor
          · rintro ⟨⟩
          · rintro ⟨added, _, each, _⟩
            cases each with
            | cons first _ =>
                rw [loaded] at first
                cases first
      | ok new =>
          by_cases clashes : done.any (same · new) = true
          · simp only [clashes, if_true]
            constructor
            · rintro ⟨⟩
            · rintro ⟨added, rfl, each, distinct⟩
              cases each with
              | cons first _ =>
                  cases loaded.symm.trans first
                  obtain ⟨old, member, equal⟩ := List.any_eq_true.mp clashes
                  have other := (List.pairwise_append.mp distinct).2.2 old member new (by simp)
                  rw [equal] at other
                  cases other
          · have extended : (done ++ [new]).Pairwise fun one other => same one other = false := by
              rw [List.pairwise_append]
              simpa using ⟨apart, by simpa using clashes⟩
            simp only [clashes, Bool.false_eq_true, if_false]
            rw [ih (done ++ [new]) extended]
            constructor
            · rintro ⟨added, rfl, each, distinct⟩
              exact ⟨new :: added, by simp, .cons loaded each, distinct⟩
            · rintro ⟨added, rfl, each, distinct⟩
              cases each with
              | cons first others =>
                  cases loaded.symm.trans first
                  exact ⟨_, by simp, others, distinct⟩

end Gather

theorem columnsInto_gather (table : Table Value Bool) (entries : List Value) :
    columnsInto table entries =
      (gather Load.column (fun one other => sameStored one.name other.name)
        (fun column => .duplicateColumn column.name table.name) table.columns entries).map
        fun columns => { table with columns := columns } := by
  induction entries generalizing table with
  | nil => rfl
  | cons entry rest ih =>
      rw [columnsInto, gather]
      cases Load.column entry with
      | error fault => rfl
      | ok column =>
          simp only [bind, Except.bind, Table.column?, List.isSome_find?]
          split
          · rfl
          · exact ih _

theorem tablesInto_gather (schema : Schema Value Bool) (entries : List Value) :
    tablesInto schema entries =
      (gather Load.table (fun one other => sameStored one.name other.name)
        (fun table => .duplicateTable table.name) schema.tables entries).map Schema.mk := by
  induction entries generalizing schema with
  | nil => rfl
  | cons entry rest ih =>
      rw [tablesInto, gather]
      cases Load.table entry with
      | error fault => rfl
      | ok table =>
          simp only [bind, Except.bind, Schema.table?, List.isSome_find?]
          split
          · rfl
          · exact ih _

theorem columns_ok (name : Value) (entries : List Value) (loaded : Table Value Bool) :
    columnsInto (.empty name) entries = .ok loaded ↔
      List.Forall₂ DescribesColumn entries loaded.columns ∧
        (loaded.columns.Pairwise fun one other => sameStored one.name other.name = false) ∧
        loaded = ⟨name, loaded.columns, none⟩ := by
  have each : ∀ columns, List.Forall₂ (fun entry column => Load.column entry = .ok column) entries columns ↔
      List.Forall₂ DescribesColumn entries columns := fun columns => by
    simp only [column_ok]
  rw [columnsInto_gather]
  constructor
  · intro read
    obtain ⟨columns, gathered, rfl⟩ := (loaded_map _ _ _).mp read
    obtain ⟨added, rfl, described, distinct⟩ := (gather_ok _ _ _ .nil).mp gathered
    exact ⟨(each _).mp described, distinct, rfl⟩
  · rintro ⟨described, distinct, whole⟩
    rw [whole]
    apply (loaded_map _ _ _).mpr
    exact ⟨loaded.columns, (gather_ok _ _ _ .nil).mpr ⟨_, rfl, (each _).mpr described, distinct⟩, rfl⟩

theorem position_object (fields : List (String × Value)) :
    Load.position (.object fields) =
      .ok (some ⟨((Value.object fields).field? "x").getD (.int 0),
        ((Value.object fields).field? "y").getD (.int 0)⟩) := rfl

theorem position_ok (found : Value) (position : Option Position) :
    Load.position found = .ok position ↔ DescribesPosition found position := by
  cases found with
  | null => cases position <;> simp [Load.position, DescribesPosition, Value.kind]
  | object fields =>
      rw [position_object]
      cases position with
      | none => simp [DescribesPosition]
      | some position =>
          obtain ⟨x, y⟩ := position
          simp [DescribesPosition, Value.kind, eq_comm]
  | _ =>
      cases position <;>
        simp [Load.position, DescribesPosition, Value.kind, Value.fields?, orMisuse, bind, Except.bind]

theorem table_ok (value : Value) (table : Table Value Bool) :
    Load.table value = .ok table ↔ DescribesTable value table := by
  rw [Load.table]
  cases given : named? value with
  | none =>
      have nameless := (named_none value).mp given
      constructor
      · rintro ⟨⟩
      · intro described
        rw [described.name, described.named] at nameless
        cases nameless
  | some found =>
      obtain ⟨fields, name⟩ := found
      obtain ⟨rfl, rfl, named⟩ := (named_some value name fields).mp given
      simp only [loaded_bind, fieldOr_part, misuse_ok, columns_ok, position_ok]
      constructor
      · rintro ⟨entries, listed, filled, ⟨described, distinct, whole⟩, position, placed, same⟩
        cases same
        rw [whole]
        exact ⟨rfl, named, ⟨entries, listed, described⟩, distinct, placed⟩
      · intro described
        obtain ⟨entries, listed, columns⟩ := described.columns
        refine ⟨entries, listed, ⟨_, table.columns, none⟩, ⟨columns, described.distinct, rfl⟩,
          table.position, described.position, ?_⟩
        rw [described.name]
        rfl

theorem tables_ok (entries : List Value) (schema : Schema Value Bool) :
    tablesInto .empty entries = .ok schema ↔
      List.Forall₂ DescribesTable entries schema.tables ∧
        schema.tables.Pairwise fun one other => sameStored one.name other.name = false := by
  have each : ∀ tables, List.Forall₂ (fun entry table => Load.table entry = .ok table) entries tables ↔
      List.Forall₂ DescribesTable entries tables := fun tables => by
    simp only [table_ok]
  rw [tablesInto_gather]
  constructor
  · intro read
    obtain ⟨tables, gathered, rfl⟩ := (loaded_map _ _ _).mp read
    obtain ⟨added, rfl, described, distinct⟩ := (gather_ok _ _ _ .nil).mp gathered
    exact ⟨(each _).mp described, distinct⟩
  · rintro ⟨described, distinct⟩
    apply (loaded_map _ _ _).mpr
    exact ⟨schema.tables, (gather_ok _ _ _ .nil).mpr ⟨_, rfl, (each _).mpr described, distinct⟩, rfl⟩

end Load

/-- A schema is loaded of a document just where the document describes it. -/
theorem Schema.ofDocument_ok (value : Value) (schema : Schema Value Bool) :
    Schema.ofDocument value = .ok schema ↔ Load.Describes value schema := by
  cases value with
  | object fields =>
      have found : Load.fieldOr (.list []) "tables" fields =
          ((Value.object fields).field? "tables").getD (.list []) := rfl
      rw [Schema.ofDocument, found]
      split
      case h_1 entries listed =>
        rw [Load.tables_ok]
        constructor
        · rintro ⟨described, distinct⟩
          exact ⟨rfl, ⟨entries, listed, described⟩, distinct⟩
        · rintro ⟨_, ⟨others, same, described⟩, distinct⟩
          cases listed.symm.trans same
          exact ⟨described, distinct⟩
      case h_2 unlisted =>
        constructor
        · rintro ⟨⟩
        · rintro ⟨_, ⟨entries, listed, _⟩, _⟩
          exact absurd listed (unlisted entries)
  | _ =>
      constructor
      · rintro ⟨⟩
      · rintro ⟨⟨⟩, _, _⟩

end TableScript
