import TableScript.Proofs.Linking.WellFormed
import TableScript.Proofs.Reading.TypeParts

/-!
The two places of a constraint. Written as the last clause of a table or added to the table right
behind it, a constraint reads the same, and in either mode it makes the same schema, as long as the
table is made only once.
-/

namespace TableScript

open Token

/-- A clause and an action that are one constraint, or that are both left out. -/
def Action.SameAs : Action → Clause → Prop
  | .add added, .constraint stated => added = stated
  | .ignored _, .ignored _ => True
  | _, _ => False

/-- The text that stands for a constraint matters only where the constraint is left out. -/
theorem constraintAction_same (name : Option String) (text other : String) (tokens : List Token) :
    (constraintAction name text tokens).SameAs (constraintAction name other tokens).toClause := by
  rw [constraintAction, constraintAction]
  split
  · split
    · rfl
    · trivial
  · split
    · split
      · rfl
      · trivial
    · split
      · split
        · trivial
        · split
          · rfl
          · trivial
      · trivial

theorem takeWord_other (word : String) (words : List String) (member : word ∈ words)
    (tokens : List Token) (other : startsWith (·.isOneOf words) tokens = false) :
    takeWord? word tokens = none := by
  cases tokens with
  | nil => rfl
  | cons token rest =>
      have apart : token.isWord word = false :=
        isOneOf_fewer token words [word] other (by simpa using member)
      simp [takeWord?, apart]

/-- What begins with none of the three words is no constraint. -/
theorem constraintAction_other (name : Option String) (text : String) (tokens : List Token)
    (other : startsWith isConstraintStart tokens = false) :
    constraintAction name text tokens = .ignored ⟨text, "unsupported constraint"⟩ := by
  have primary := takeWord_other "PRIMARY" _ (by simp) tokens other
  have foreign := takeWord_other "FOREIGN" _ (by simp) tokens other
  have unique := takeWord_other "UNIQUE" _ (by simp) tokens other
  simp [constraintAction, takeWords?, primary, foreign, unique]

theorem action_added (add : Token) (tokens : List Token) (added : add.isWord "ADD" = true) :
    Action.ofTokens (add :: tokens) =
      if startsWith isConstraintStart (constraintName tokens).2 = true then
        constraintAction (constraintName tokens).1 (render (add :: tokens)) (constraintName tokens).2
      else .ignored ⟨render (add :: tokens), "unsupported ALTER TABLE ADD action"⟩ := by
  simp [Action.ofTokens, takeWord?, added]

/-- Behind the word ADD stands what could stand as a clause. -/
theorem action_sameAs (add first : Token) (rest : List Token) (added : add.isWord "ADD" = true)
    (starts : first.isOneOf ["CONSTRAINT", "PRIMARY", "FOREIGN", "UNIQUE"] = true) :
    ∃ clause, Clause.ofTokens? (first :: rest) = some clause ∧
      (Action.ofTokens (add :: first :: rest)).SameAs clause := by
  rw [action_added add _ added]
  cases named : first.isWord "CONSTRAINT" with
  | true =>
      have read : Clause.ofTokens? (first :: rest) = some (constraintAction
          (constraintName (first :: rest)).1 (render (first :: rest))
          (constraintName (first :: rest)).2).toClause := by
        simp [Clause.ofTokens?, named]
      refine ⟨_, read, ?_⟩
      split
      · exact constraintAction_same _ _ _ _
      case isFalse other =>
        rw [constraintAction_other _ _ _ (Bool.not_eq_true _ |>.mp other)]
        trivial
  | false =>
      have kind : isConstraintStart first = true := by
        simp only [isOneOf, isWord, isConstraintStart, List.contains_cons, List.contains_nil,
          Bool.or_false, Bool.and_eq_true, Bool.or_eq_true, Bool.and_eq_false_iff] at starts named ⊢
        refine ⟨starts.1, starts.2.resolve_left fun same => ?_⟩
        rcases named with other | other
        · exact absurd (other.symm.trans starts.1) Bool.false_ne_true
        · exact absurd (other.symm.trans same) Bool.false_ne_true
      have unnamed : constraintName (first :: rest) = (none, first :: rest) := by
        simp [constraintName, takeWord?, named]
      have read : Clause.ofTokens? (first :: rest) =
          some (constraintAction none (render (first :: rest)) (first :: rest)).toClause := by
        simp [Clause.ofTokens?, named, kind]
      refine ⟨_, read, ?_⟩
      rw [unnamed, if_pos (show startsWith isConstraintStart (first :: rest) = true from kind)]
      exact constraintAction_same _ _ _ _

namespace Link

/-- The table that is made last counts as known, under its name, before it is known. -/
theorem key_last (known : List PlainTable) (table : PlainTable) (fresh : table.name ∉ tableNames known)
    (name : String) : keyOf (known ++ [table]) name table = keyOf known name table := by
  by_cases same : name = table.name
  · have absent : (Schema.mk known).table? name = none := by
      simp only [Schema.table?, List.find?_eq_none, same_stored_text, beq_iff_eq]
      intro other member equal
      exact fresh (same ▸ equal ▸ List.mem_map_of_mem member)
    have there : (Schema.mk (known ++ [table])).table? name = some table := by
      simp only [Schema.table?] at absent ⊢
      rw [List.find?_append, absent]
      simp [same]
    simp [keyOf, absent, there, ← same]
  · exact key_unaware known table table name same

theorem sequential_added (tables : List PlainTable) (name : String) (clauses : List Clause)
    (hasBody : Bool) (constraint : Constraint) (fresh : name ∉ tableNames tables) :
    sequentialStep tables (.createTable name (clauses ++ [.constraint constraint]) hasBody) =
      sequentialStep (sequentialStep tables (.createTable name clauses hasBody))
        (.alterTable name [.add constraint]) := by
  have named := grown_name tables name clauses
  have last : grownTable tables name (clauses ++ [.constraint constraint]) =
      bindOwn tables (grownTable tables name clauses) constraint :=
    List.foldl_concat ..
  have own : boundColumn (tables ++ [grownTable tables name clauses]) (grownTable tables name clauses)
      constraint = boundColumn tables (grownTable tables name clauses) constraint :=
    bound_agree _ _ _ _ constraint fun target _ _ => key_last tables _ (by rwa [named]) target.table
  have others : ∀ table ∈ tables, (if table.name = name then table.mapColumns (boundColumn
      (tables ++ [grownTable tables name clauses]) table constraint) else table) = table := by
    intro table member
    refine if_neg fun same => fresh ?_
    rw [← same]
    exact List.mem_map_of_mem member
  have made : sequentialStep tables (.createTable name clauses hasBody) =
      tables ++ [grownTable tables name clauses] := by
    rw [sequentialStep, putTable, named, if_neg fresh]
  have added : addedTo name [.add constraint] = [(name, constraint)] := rfl
  rw [made, sequentialStep, sequentialStep, putTable, last, bindOwn_name, named, if_neg fresh, added,
    List.foldl_cons, List.foldl_nil, bindTo, List.map_append, List.map_congr_left others, List.map_id']
  simp [named, own, bindOwn]

theorem definitions_unbound (taken : List String) (clauses : List Clause) (constraint : Constraint) :
    firstDefinitions taken (clauses ++ [.constraint constraint]) = firstDefinitions taken clauses := by
  induction clauses generalizing taken with
  | nil => rfl
  | cons clause rest ih =>
      cases clause with
      | column definition => simp only [List.cons_append, firstDefinitions, ih]
      | constraint stated => exact ih taken
      | ignored clause => exact ih taken

theorem own_last (taken : List String) (clauses : List Clause) (constraint : Constraint) :
    ownConstraints taken (clauses ++ [.constraint constraint]) =
      ownConstraints taken clauses ++ [constraint] := by
  induction clauses generalizing taken with
  | nil => rfl
  | cons clause rest ih =>
      cases clause with
      | column definition =>
          simp only [List.cons_append, ownConstraints, ih]
          split
          · rfl
          · rw [List.append_assoc]
      | constraint stated => simp only [List.cons_append, ownConstraints, ih]
      | ignored clause => exact ih taken

/-- What is bound before some statements depends only on the names of the tables they make. -/
theorem bindOrder_behind_same (before first second : List Statement)
    (names : createdNames first = createdNames second) (order : bindOrder first = bindOrder second) :
    bindOrder (before ++ first) = bindOrder (before ++ second) := by
  induction before with
  | nil => exact order
  | cons statement rest ih =>
      cases statement with
      | createTable name clauses hasBody =>
          simp only [List.cons_append, bindOrder, created_names_append, names, ih]
      | alterTable table actions => simp only [List.cons_append, bindOrder, ih]
      | ignored statement => exact ih

theorem bindOrder_added (before after : List Statement) (name : String) (clauses : List Clause)
    (hasBody : Bool) (constraint : Constraint) (last : name ∉ createdNames after) :
    bindOrder (before ++ .createTable name (clauses ++ [.constraint constraint]) hasBody :: after) =
      bindOrder (before ++ .createTable name clauses hasBody ::
        .alterTable name [.add constraint] :: after) := by
  refine bindOrder_behind_same before _ _ rfl ?_
  simp [bindOrder, own_last, last, added?]

theorem bareTables_added (before after : List Statement) (name : String) (clauses : List Clause)
    (hasBody : Bool) (constraint : Constraint) :
    bareTables (before ++ .createTable name (clauses ++ [.constraint constraint]) hasBody :: after) =
      bareTables (before ++ .createTable name clauses hasBody ::
        .alterTable name [.add constraint] :: after) := by
  have bare : ∀ other, bareTable other ((lastClauses? other (before ++
        .createTable name (clauses ++ [.constraint constraint]) hasBody :: after)).getD []) =
      bareTable other ((lastClauses? other (before ++ .createTable name clauses hasBody ::
        .alterTable name [.add constraint] :: after)).getD []) := by
    intro other
    simp only [last_clauses_append, lastClauses?, clausesFor?, Option.or_none]
    cases lastClauses? other after with
    | some later => rfl
    | none =>
        by_cases same : name = other
        · simp [same, bareTable, definitions_unbound]
        · simp [same]
  simp only [bareTables, bare, created_names_append, created_names_create, created_names_alter]

/-- A constraint may be the last clause of its table or be added to it at once: it reads the same
there, and makes the same schema. -/
theorem constraint_added_behind :
    (∀ (add first : Token) (rest : List Token), add.isWord "ADD" = true →
      first.isOneOf ["CONSTRAINT", "PRIMARY", "FOREIGN", "UNIQUE"] = true →
      ∃ clause, Clause.ofTokens? (first :: rest) = some clause ∧
        (Action.ofTokens (add :: first :: rest)).SameAs clause) ∧
    ∀ (mode : Resolution) (before after : List Statement) (name : String) (clauses : List Clause)
      (hasBody : Bool) (constraint : Constraint),
      name ∉ createdNames before → name ∉ createdNames after →
      (link mode (before ++
        .createTable name (clauses ++ [.constraint constraint]) hasBody :: after)).1 =
      (link mode (before ++ .createTable name clauses hasBody ::
        .alterTable name [.add constraint] :: after)).1 := by
  refine ⟨action_sameAs, fun mode before after name clauses hasBody constraint first last => ?_⟩
  cases mode with
  | deferred =>
      rw [link_deferred, link_deferred, bindOrder_added before after name clauses hasBody constraint last,
        bareTables_added before after name clauses hasBody constraint]
  | sequential =>
      have fresh : name ∉ tableNames (sequentialTables before) := by
        have names := link_names .sequential before
        rw [link_sequential] at names
        rwa [names, List.mem_eraseDups]
      have step := sequential_added (sequentialTables before) name clauses hasBody constraint fresh
      rw [link_sequential, link_sequential]
      simp only [sequentialTables, List.foldl_append, List.foldl_cons] at step ⊢
      rw [step]

def nodeClauses : List Clause :=
  [.column ⟨"id", "INT", true, false, false, none⟩, .column ⟨"parent", "INT", false, false, false, none⟩]

/-- A foreign key that points at the key of its own table. -/
def parentNode : Constraint := .foreignKey ["parent"] ⟨"node", []⟩ none

def treeAltered : Statement := .alterTable "tree" [.add parentNode]

theorem node_added_behind :
    (Token.isWord ⟨.word, "add"⟩ "ADD" = true ∧
      Token.isOneOf ⟨.word, "unique"⟩ ["CONSTRAINT", "PRIMARY", "FOREIGN", "UNIQUE"] = true ∧
      ∃ clause, Clause.ofTokens? [⟨.word, "unique"⟩, openMark, ⟨.word, "id"⟩, closeMark] = some clause ∧
        (Action.ofTokens [⟨.word, "add"⟩, ⟨.word, "unique"⟩, openMark, ⟨.word, "id"⟩, closeMark]).SameAs
          clause) ∧
    "node" ∉ createdNames [treeAltered] ∧
    (link .sequential ([treeAltered] ++
      .createTable "node" (nodeClauses ++ [.constraint parentNode]) true :: [treeAltered])).1 =
    (link .sequential ([treeAltered] ++ .createTable "node" nodeClauses true ::
      .alterTable "node" [.add parentNode] :: [treeAltered])).1 := by
  have added : Token.isWord ⟨.word, "add"⟩ "ADD" = true := by decide +kernel
  have starts : Token.isOneOf ⟨.word, "unique"⟩ ["CONSTRAINT", "PRIMARY", "FOREIGN", "UNIQUE"] = true := by
    decide +kernel
  have apart : "node" ∉ createdNames [treeAltered] := by decide
  exact ⟨⟨added, starts, constraint_added_behind.1 _ _ _ added starts⟩, apart,
    constraint_added_behind.2 .sequential [treeAltered] [treeAltered] "node" nodeClauses true parentNode
      apart apart⟩

end Link

end TableScript
