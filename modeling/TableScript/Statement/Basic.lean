/-!
Statements about tables, as they were written: nothing in them is resolved yet. A table is made
by a list of clauses, and a list of actions changes it. What is not understood is kept as text,
with the reason why it is left out.
-/

namespace TableScript

/-- The table that a foreign key points at, and the columns there if they are named. -/
structure Target where
  table : String
  columns : List String
  deriving DecidableEq

structure ColumnDefinition where
  name : String
  dataType : String
  primaryKey : Bool
  notNull : Bool
  unique : Bool
  reference : Option Target
  deriving DecidableEq

inductive Constraint where
  | primaryKey (columns : List String) (name : Option String)
  | foreignKey (columns : List String) (target : Target) (name : Option String)
  | unique (columns : List String) (name : Option String)
  deriving DecidableEq

structure Ignored where
  text : String
  reason : String
  deriving DecidableEq

inductive Clause where
  | column (definition : ColumnDefinition)
  | constraint (constraint : Constraint)
  | ignored (clause : Ignored)
  deriving DecidableEq

inductive Action where
  | add (constraint : Constraint)
  | ignored (action : Ignored)
  deriving DecidableEq

inductive Statement where
  -- A table without a body has no clauses, but a table with one may have none either.
  | createTable (name : String) (clauses : List Clause) (hasBody : Bool)
  | alterTable (table : String) (actions : List Action)
  | ignored (statement : Ignored)
  deriving DecidableEq

namespace Constraint

def columns : Constraint → List String
  | .primaryKey columns _ => columns
  | .foreignKey columns _ _ => columns
  | .unique columns _ => columns

end Constraint

def Action.toClause : Action → Clause
  | .add constraint => .constraint constraint
  | .ignored action => .ignored action

end TableScript
