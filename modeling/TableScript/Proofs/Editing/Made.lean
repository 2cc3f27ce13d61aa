import TableScript.Proofs.Editing.Steps

/-!
Edits that are made and edits that are refused. An edit is made exactly where its conditions hold,
and its changes are then the ones that it stands for; a refused edit leaves no trace, whatever
stands in the place of a name, a data type or a flag.
-/

namespace TableScript.Edit

variable {ν φ : Type}

/-- An editing program ends without a refusal, and the schema behind it. -/
def Ends {α : Type} (outcome : Except EditFault α × Schema ν φ) (later : Schema ν φ) : Prop :=
  ∃ a, outcome = (.ok a, later)

theorem ends_checked {α β : Type} (test : Schema ν φ → Except EditFault α)
    (next : α → Editing ν φ β) (schema later : Schema ν φ) (a : α) (passed : test schema = .ok a)
    (ends : Ends (ran (next a) schema) later) : Ends (ran (check test >>= next) schema) later := by
  rwa [ran_bind, ran_check, passed]

variable [OfText ν]

theorem requireName_visible (subject : Subject) (name : ν) (visible : Visible name) :
    requireName subject name = .ok () := by
  obtain ⟨content, text, occupied⟩ := visible
  have written : content ≠ "" := by
    rintro rfl
    exact occupied rfl
  simp [requireName, text, Value.holds, Value.textFor, Value.text?, written, occupied]

theorem requireTable_found (schema : Schema ν φ) (name : ν) (table : Table ν φ)
    (found : schema.table? name = some table) : requireTable schema name = .ok table := by
  rw [requireTable, found]

theorem requireNewTable_fresh (schema : Schema ν φ) (name : ν) (visible : Visible name)
    (fresh : schema.table? name = none) : requireNewTable schema name = .ok () := by
  rw [requireNewTable, requireName_visible _ name visible, fresh]
  rfl

theorem requireNewColumn_fresh (table : Table ν φ) (written name : ν) (visible : Visible name)
    (fresh : table.column? name = none) : requireNewColumn table written name = .ok () := by
  rw [requireNewColumn, requireName_visible _ name visible, fresh]
  rfl

theorem findColumn_found (schema : Schema ν φ) (table name : ν) (owner : Table ν φ)
    (column : Column ν φ) (known : schema.table? table = some owner)
    (among : owner.column? name = some column) :
    findColumn schema table name = .ok (owner, column) := by
  rw [findColumn, requireTable_found schema table owner known]
  simp only [requireColumn, bind, Except.bind, among]
  rfl

variable [OfFlag φ]

/-- Where the conditions of an edit hold, it is made. -/
theorem performs_made (schema later : Schema ν φ) (edit : Edit ν φ)
    (performs : Performs schema edit later) : Ends (perform schema edit) later := by
  change Ends (ran (apply edit) schema) later
  cases performs with
  | addTable named fresh =>
      exact ends_checked _ _ _ _ _ (requireNewTable_fresh schema _ named fresh) ⟨_, rfl⟩
  | keepTable found same =>
      refine ends_checked _ _ _ _ _ (requireTable_found schema _ _ found) ?_
      rw [if_pos same]
      exact ⟨_, rfl⟩
  | renameTable found other named fresh =>
      refine ends_checked _ _ _ _ _ (requireTable_found schema _ _ found) ?_
      rw [if_neg (Bool.not_eq_true _ |>.mpr other)]
      exact ends_checked _ _ _ _ _ (requireNewTable_fresh schema _ named fresh) ⟨_, rfl⟩
  | removeTable found =>
      exact ends_checked _ _ _ _ _ (requireTable_found schema _ _ found) ⟨_, rfl⟩
  | moveTable found =>
      exact ends_checked _ _ _ _ _ (requireTable_found schema _ _ found) ⟨_, rfl⟩
  | addColumn known named fresh spelled =>
      refine ends_checked _ _ _ _ _ (requireTable_found schema _ _ known) ?_
      refine ends_checked _ _ _ _ _ (requireNewColumn_fresh _ _ _ named fresh) ?_
      exact ends_checked _ _ _ _ _ spelled ⟨_, rfl⟩
  | removeColumn known among =>
      exact ends_checked _ _ _ _ _ (findColumn_found schema _ _ _ _ known among) ⟨_, rfl⟩
  | keepColumn known among same =>
      refine ends_checked _ _ _ _ _ (findColumn_found schema _ _ _ _ known among) ?_
      dsimp only
      rw [if_pos same]
      exact ⟨_, rfl⟩
  | renameColumn known among other named fresh =>
      refine ends_checked _ _ _ _ _ (findColumn_found schema _ _ _ _ known among) ?_
      dsimp only
      rw [if_neg (Bool.not_eq_true _ |>.mpr other)]
      exact ends_checked _ _ _ _ _ (requireNewColumn_fresh _ _ _ named fresh) ⟨_, rfl⟩
  | setColumnType known among spelled =>
      refine ends_checked _ _ _ _ _ spelled ?_
      exact ends_checked _ _ _ _ _ (findColumn_found schema _ _ _ _ known among) ⟨_, rfl⟩
  | setPrimaryKey known among holds =>
      refine ends_checked _ _ _ _ _ (findColumn_found schema _ _ _ _ known among) ?_
      rw [ran_bind, ran_alter, if_pos holds]
      exact ⟨_, rfl⟩
  | clearPrimaryKey known among fails =>
      refine ends_checked _ _ _ _ _ (findColumn_found schema _ _ _ _ known among) ?_
      rw [ran_bind, ran_alter, if_neg (Bool.not_eq_true _ |>.mpr fails)]
      exact ⟨_, rfl⟩
  | setNullable known among allowed =>
      refine ends_checked _ _ _ _ _ (findColumn_found schema _ _ _ _ known among) ?_
      dsimp only
      rw [if_neg (Bool.not_eq_true _ |>.mpr allowed)]
      exact ⟨_, rfl⟩
  | setUnique known among =>
      exact ends_checked _ _ _ _ _ (findColumn_found schema _ _ _ _ known among) ⟨_, rfl⟩
  | setForeignKey known among complete =>
      refine ends_checked _ _ _ _ _ (findColumn_found schema _ _ _ _ known among) ?_
      rw [complete]
      exact ⟨_, rfl⟩
  | clearForeignKey known among =>
      exact ends_checked _ _ _ _ _ (findColumn_found schema _ _ _ _ known among) ⟨_, rfl⟩

/-- An edit is made exactly where its conditions hold. -/
theorem made_iff (schema later : Schema ν φ) (edit : Edit ν φ) :
    Ends (perform schema edit) later ↔ Performs schema edit later := by
  constructor
  · rintro ⟨added, performed⟩
    have outcome := perform_outcome schema edit
    rw [performed] at outcome
    exact outcome
  · exact performs_made schema later edit

/-- A table that points at itself, as a document may hold it: its key has a number for a name. -/
def numbered : Schema Value Value :=
  ⟨[⟨.text "staff", [⟨.int 1, .text "INT", .bool true, .bool false, .bool false, none⟩,
      ⟨.text "boss", .text "INT", .bool false, .bool true, .bool false,
        some ⟨.text "staff", .int 1⟩⟩], some ⟨.int 4, .null⟩⟩]⟩

end TableScript.Edit
