import TableScript.Proofs.Linking.WellFormed
import TableScript.Proofs.Reading.Grammar
import TableScript.Parse

/-!
Every script is read, and it makes a well-formed schema. Wherever the grammar takes a name for a
table or a column it has cleaned it and seen that it is not empty, so whatever is read, and however
it is linked, nothing of the schema is without a name.
-/

namespace TableScript

open Token

theorem readName_read (tokens : List Token) :
    ∀ name ∈ (readName tokens).1, Identifier.IsRead name := by
  cases tokens with
  | nil => simp [readName]
  | cons token rest =>
      rw [readName]
      split
      · rintro name ⟨rfl⟩
        exact ⟨_, rfl⟩
      · simp

theorem readFullName_full (tokens : List Token) :
    ∀ name ∈ (readFullName tokens).1, Identifier.IsFull name := by
  have read := readName_read tokens
  rw [readFullName]
  split
  case h_1 name after found =>
    rw [found] at read
    split
    · simp
    case isFalse occupied =>
      rintro found ⟨rfl⟩
      exact ⟨by simpa using occupied, read name rfl⟩
  case h_2 => simp

theorem readNames_read (tokens : List Token) :
    ∀ names ∈ (readNames tokens).1, ∀ name ∈ names, Identifier.IsRead name := by
  have head : ∀ part name, headName? part = some name → Identifier.IsRead name := by
    intro part name found
    cases part with
    | nil => cases found
    | cons token rest =>
        rw [headName?] at found
        split at found
        · exact ⟨_, (Option.some.inj found).symm⟩
        · cases found
  rw [readNames]
  split
  · split
    · rintro names ⟨rfl⟩ name member
      obtain ⟨part, _, found⟩ := List.mem_filterMap.mp member
      exact head part name found
    · simp
  · simp

theorem readTarget_named (tokens : List Token) :
    ∀ target ∈ (readTarget tokens).1, target.Named := by
  have full := readFullName_full tokens
  rw [readTarget]
  split
  case h_1 => simp
  case h_2 table after found =>
    rw [found] at full
    rintro target ⟨rfl⟩
    refine ⟨full table rfl, fun column member => ?_⟩
    have read := readNames_read after
    replace member : column ∈ (readNames after).1.getD [] := member
    cases names : (readNames after).1 with
    | none =>
        rw [names] at member
        cases member
    | some columns =>
        rw [names] at member read
        exact read columns rfl column member

theorem foreignKey_named (name : Option String) (tokens : List Token) (constraint : Constraint)
    (found : foreignKey? name tokens = some constraint) :
    ∀ target ∈ Link.constraintTargets constraint, target.Named := by
  simp only [foreignKey?, Option.bind_eq_bind, Option.bind_eq_some_iff] at found
  obtain ⟨⟨columns, after⟩, _, rest, _, target, read, ⟨⟩⟩ := found
  simpa [Link.constraintTargets] using readTarget_named rest target read

theorem constraintAction_named (name : Option String) (text : String) (tokens : List Token) :
    (constraintAction name text tokens).toClause.Named := by
  rw [constraintAction]
  split
  · split
    · simp [Action.toClause, Clause.Named, Link.constraintTargets]
    · trivial
  · split
    · split
      case h_1 constraint found => exact foreignKey_named name _ constraint found
      case h_2 => trivial
    · split
      · split
        · trivial
        · split
          · simp [Action.toClause, Clause.Named, Link.constraintTargets]
          · trivial
      · trivial

theorem action_named (tokens : List Token) : (Action.ofTokens tokens).toClause.Named := by
  rw [Action.ofTokens]
  split
  · trivial
  · dsimp only
    split
    · exact constraintAction_named _ _ _
    · trivial

/-- Whatever is read behind the data type of a column, its name stays and what it points at has
a name. -/
theorem columnOptions_named (taken depth : Nat) (column : ColumnDefinition) (tokens : List Token)
    (named : (Clause.column column).Named) :
    (Clause.column (columnOptions taken depth column tokens)).Named := by
  fun_induction columnOptions taken depth column tokens with
  | case1 => exact named
  | case9 depth column token rest _ _ _ _ _ _ _ target after read pointed ih =>
      refine ih ?_
      cases target with
      | none => exact named
      | some target =>
          refine ⟨named.1, ?_⟩
          rintro found ⟨rfl⟩
          exact readTarget_named rest target (by rw [read]; rfl)
  | _ => exact ‹_ → _› named

theorem columnClause_named (text : String) (first : Token) (rest : List Token) :
    (columnClause text first rest).Named := by
  rw [columnClause]
  split
  · trivial
  · dsimp only
    split
    · trivial
    case isFalse occupied =>
      exact columnOptions_named _ _ _ _ ⟨⟨by simpa using occupied, _, rfl⟩, by simp⟩

theorem clause_named (tokens : List Token) : ∀ clause ∈ Clause.ofTokens? tokens, clause.Named := by
  cases tokens with
  | nil => simp [Clause.ofTokens?]
  | cons first rest =>
      rw [Clause.ofTokens?]
      dsimp only
      split
      · rintro clause ⟨rfl⟩
        exact constraintAction_named _ _ _
      · split
        · rintro clause ⟨rfl⟩
          exact constraintAction_named _ _ _
        · split
          · rintro clause ⟨rfl⟩
            trivial
          · rintro clause ⟨rfl⟩
            exact columnClause_named _ _ _

theorem ignored_named (ignored : Ignored) : (Statement.ignored ignored).Named :=
  ⟨by simp [Link.createdName?], by simp [Link.clausesOf]⟩

theorem createFrom_named (text : String) (tokens : List Token) :
    (Statement.createFrom text tokens).Named := by
  have full := readFullName_full (skipWords ["IF", "NOT", "EXISTS"] tokens)
  rw [Statement.createFrom]
  split
  case h_1 => exact ignored_named _
  case h_2 name after found =>
    rw [found] at full
    have created : ∀ clauses hasBody, ∀ made ∈ Link.createdName? (.createTable name clauses hasBody),
        Identifier.IsFull made := fun _ _ => full
    split
    · exact ⟨created _ _, by simp [Link.clausesOf]⟩
    · refine ⟨created _ _, fun clause member => ?_⟩
      obtain ⟨part, _, read⟩ := List.mem_filterMap.mp member
      exact clause_named part clause read

theorem alterFrom_named (text : String) (tokens : List Token) :
    (Statement.alterFrom text tokens).Named := by
  rw [Statement.alterFrom]
  split
  · exact ignored_named _
  · refine ⟨by simp [Link.createdName?], fun clause member => ?_⟩
    simp only [Link.clausesOf, List.map_map] at member
    obtain ⟨part, _, rfl⟩ := List.mem_map.mp member
    exact action_named part

/-- A statement never makes or points at anything without a name. -/
theorem statement_named (raw : RawStatement) : (Statement.ofRaw raw).Named := by
  rw [Statement.ofRaw]
  split
  · split
    · exact createFrom_named _ _
    · exact ignored_named _
  · split
    · exact alterFrom_named _ _
    · exact ignored_named _

theorem read_statements_map (script : String) :
    (readStatements script).1 = (Script.split (Comment.strip script)).1.map Statement.ofRaw := by
  unfold readStatements
  cases Script.split (Comment.strip script)
  rfl

theorem parse_schema (mode : Resolution) (script : String) :
    (parse mode script).1 = (link mode (readStatements script).1).1 := by
  unfold parse
  rfl

theorem statements_named (script : String) :
    ∀ statement ∈ (readStatements script).1, statement.Named := by
  intro statement member
  rw [read_statements_map] at member
  obtain ⟨raw, _, rfl⟩ := List.mem_map.mp member
  exact statement_named raw

namespace CursorReader

/-- The statements of a script, each read with a cursor. There are none if one of the readers came
to rely on a token that is not there. -/
def readScript? (script : String) : Option (List Statement) :=
  (Script.split (Comment.strip script)).1.mapM fun raw => (readStatement raw.text).run raw.tokens

theorem raws_read (raws : List RawStatement) :
    (raws.mapM fun raw => (readStatement raw.text).run raw.tokens) = some (raws.map Statement.ofRaw) := by
  induction raws with
  | nil => rfl
  | cons raw raws ih =>
      rw [List.mapM_cons, (yields_readStatement raw).run, ih]
      rfl

theorem readScript_eq (script : String) : readScript? script = some (readStatements script).1 := by
  rw [read_statements_map]
  exact raws_read _

end CursorReader

/-- Every script is read to its end, whatever stands in it, and makes a well-formed schema. -/
theorem parse_wellFormed (mode : Resolution) (script : String) :
    (CursorReader.readScript? script).map (fun statements => (link mode statements).1) =
        some (parse mode script).1 ∧
      (parse mode script).1.WellFormed := by
  constructor
  · rw [CursorReader.readScript_eq, Option.map_some, parse_schema]
  · rw [parse_schema]
    exact Link.link_wellFormed mode _ (statements_named script)

end TableScript
