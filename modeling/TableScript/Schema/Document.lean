import TableScript.Schema.Basic

/-!
Schemas as documents. Whether a column is a foreign key, and the list of relationships, follow
from the references and are written beside them.
-/

namespace TableScript

variable {ν φ : Type} [OfText ν] [OfFlag φ]

def Reference.toDocument (reference : Reference ν) : Value :=
  .object [("table", toValue reference.table), ("column", toValue reference.column)]

def Column.toDocument (column : Column ν φ) : Value :=
  .object
    [("name", toValue column.name),
     ("data_type", toValue column.dataType),
     ("is_primary_key", toValue column.primaryKey),
     ("is_foreign_key", .bool column.reference.isSome),
     ("is_nullable", toValue column.nullable),
     ("is_unique", toValue column.unique),
     ("foreign_key_reference", (column.reference.map Reference.toDocument).getD .null)]

def Position.toDocument (position : Position) : Value :=
  .object [("x", position.x), ("y", position.y)]

def Table.toDocument (table : Table ν φ) : Value :=
  .object
    [("name", toValue table.name),
     ("columns", .list (table.columns.map Column.toDocument)),
     ("position", (table.position.map Position.toDocument).getD .null)]

def Relationship.toDocument (edge : Relationship ν) : Value :=
  .object
    [("id", .text edge.id),
     ("source", toValue edge.source),
     ("target", toValue edge.target),
     ("source_column", toValue edge.sourceColumn),
     ("target_column", toValue edge.targetColumn)]

def Schema.toDocument (schema : Schema ν φ) : Value :=
  .object
    [("tables", .list (schema.tables.map Table.toDocument)),
     ("relationships", .list (schema.relationships.map Relationship.toDocument))]

end TableScript
