/-!
The words with a meaning, in upper case, by the places where they have it.
-/

namespace TableScript.Keyword

-- Between CREATE and TABLE.
def tablePrefixes : List String :=
  ["TEMPORARY", "TEMP", "UNLOGGED", "GLOBAL", "LOCAL"]

-- At the start of an index clause.
def indexClause : List String :=
  ["KEY", "INDEX", "FULLTEXT", "SPATIAL"]

-- At the end of the data type of a column.
def columnConstraint : List String :=
  ["NOT", "NULL", "PRIMARY", "UNIQUE", "REFERENCES", "DEFAULT", "CONSTRAINT",
   "CHECK", "COLLATE", "COMMENT", "AUTO_INCREMENT", "AUTOINCREMENT",
   "GENERATED", "IDENTITY", "ON", "KEY", "AS"]

-- Inside a data type, after its first word.
def typeModifiers : List String :=
  ["UNSIGNED", "SIGNED", "ZEROFILL", "VARYING", "PRECISION"]

def reserved : List String :=
  ["SELECT", "FROM", "WHERE", "AND", "OR", "NOT", "NULL", "TRUE", "FALSE",
   "INSERT", "UPDATE", "DELETE", "CREATE", "DROP", "ALTER", "TABLE", "INDEX",
   "VIEW", "DATABASE", "SCHEMA", "PRIMARY", "FOREIGN", "KEY", "UNIQUE",
   "CHECK", "CONSTRAINT", "REFERENCES", "DEFAULT", "ON", "CASCADE", "SET",
   "JOIN", "LEFT", "RIGHT", "INNER", "OUTER", "FULL", "CROSS", "NATURAL",
   "GROUP", "BY", "ORDER", "HAVING", "LIMIT", "OFFSET", "UNION", "INTERSECT",
   "EXCEPT", "ALL", "DISTINCT", "AS", "IN", "EXISTS", "BETWEEN", "LIKE",
   "IS", "CASE", "WHEN", "THEN", "ELSE", "END", "IF", "BEGIN", "COMMIT",
   "ROLLBACK", "TRANSACTION", "USER", "ROLE", "GRANT", "REVOKE"]

-- Names that are written in quotes, so that they read back as names.
def quotedNames : List String :=
  reserved ++ indexClause ++ ["ONLY"]

end TableScript.Keyword
