import TableScript.Proofs.Linking.Deferred

/-!
Where the two modes agree. Statements that first make tables, from columns that leave nothing to
be bound, and that add constraints only after all of them, describe the same schema whether each
constraint is bound as soon as it is read or after the last statement.
-/

namespace TableScript.Link

/-- A clause that leaves nothing to be bound. -/
def Settled : Clause → Prop
  | .column definition => Building.openReference? definition = none
  | .constraint _ => False
  | .ignored _ => True

/-- A statement that adds no constraint to a table. -/
def Makes : Statement → Prop
  | .createTable _ clauses _ => ∀ clause ∈ clauses, Settled clause
  | .alterTable _ _ => False
  | .ignored _ => True

theorem clause_modes (mode : Resolution) (known other : List PlainTable) (number : Nat)
    (building : Building) (clause : Clause) (settled : Settled clause) :
    building.addClause mode known number clause =
      building.addClause .deferred other number clause := by
  cases clause with
  | column definition =>
      have closed : Building.openReference? definition = none := settled
      simp only [Building.addClause, Building.addColumn, closed]
  | constraint constraint => cases settled
  | ignored clause => rfl

theorem clauses_modes (mode : Resolution) (known other : List PlainTable) (number : Nat)
    (clauses : List Clause) (settled : ∀ clause ∈ clauses, Settled clause) (building : Building) :
    clauses.foldl (Building.addClause mode known number) building =
      clauses.foldl (Building.addClause .deferred other number) building := by
  induction clauses generalizing building with
  | nil => rfl
  | cons clause rest ih =>
      obtain ⟨first, others⟩ := List.forall_mem_cons.mp settled
      rw [List.foldl_cons, List.foldl_cons, clause_modes mode known other number building clause first,
        ih others]

theorem makes_modes (mode : Resolution) (number : Nat) (linking : Linking)
    (statements : List Statement) (makes : ∀ statement ∈ statements, Makes statement) :
    addStatements mode number linking statements =
      addStatements .deferred number linking statements := by
  induction statements generalizing number linking with
  | nil => rfl
  | cons statement rest ih =>
      obtain ⟨first, others⟩ := List.forall_mem_cons.mp makes
      have step : addStatement mode number linking statement =
          addStatement .deferred number linking statement := by
        cases statement with
        | createTable name clauses hasBody =>
            have built : build mode linking.tables number name clauses hasBody =
                build .deferred linking.tables number name clauses hasBody :=
              clauses_modes mode _ _ number clauses first _
            simp only [addStatement, built]
        | alterTable table actions => cases first
        | ignored statement => rfl
      rw [addStatements, addStatements, step, ih _ _ others]

theorem own_settled (taken : List String) (clauses : List Clause)
    (settled : ∀ clause ∈ clauses, Settled clause) : ownConstraints taken clauses = [] := by
  induction clauses generalizing taken with
  | nil => rfl
  | cons clause rest ih =>
      obtain ⟨first, others⟩ := List.forall_mem_cons.mp settled
      cases clause with
      | column definition =>
          have closed : Building.openReference? definition = none := first
          simp [ownConstraints, closed, ih _ others]
      | constraint constraint => cases first
      | ignored clause => exact ih taken others

theorem makes_wait (number : Nat) (statements : List Statement)
    (makes : ∀ statement ∈ statements, Makes statement) : waitingFrom number statements = [] := by
  induction statements generalizing number with
  | nil => rfl
  | cons statement rest ih =>
      obtain ⟨first, others⟩ := List.forall_mem_cons.mp makes
      have nothing : waiting number statement = [] := by
        cases statement with
        | createTable name clauses hasBody => simp [waiting, own_settled [] clauses first]
        | alterTable table actions => cases first
        | ignored statement => rfl
      rw [waitingFrom, nothing, ih _ others, List.append_nil]

theorem bindOrder_makes (made added : List Statement) (makes : ∀ statement ∈ made, Makes statement) :
    bindOrder (made ++ added) = bindOrder added := by
  induction made with
  | nil => rfl
  | cons statement rest ih =>
      obtain ⟨first, others⟩ := List.forall_mem_cons.mp makes
      cases statement with
      | createTable name clauses hasBody =>
          simp [bindOrder, own_settled [] clauses first, ih others]
      | alterTable table actions => cases first
      | ignored statement => exact ih others

theorem bareTables_adds (made added : List Statement)
    (adds : ∀ statement ∈ added, createdName? statement = none) :
    bareTables (made ++ added) = bareTables made := by
  induction added using List.reverseRecOn with
  | nil => rw [List.append_nil]
  | append_singleton before statement ih =>
      have last := adds statement (by simp)
      have earlier : ∀ other ∈ before, createdName? other = none := fun other member =>
        adds other (List.mem_append_left _ member)
      rw [← List.append_assoc, bare_tables_other (made ++ before) statement last, ih earlier]

/-- Sequential linking binds constraints that stand outside of tables one after the other. -/
theorem sequential_actions (next : Nat) (table : String) (actions : List Action)
    (linking : Linking) (orderly : Orderly next linking.drafts) :
    let bound := actions.foldl (addAction .sequential table) linking
    bound.tables = ((actions.filterMap added?).map (table, ·)).foldl bindTo linking.tables ∧
      bound.pending = linking.pending ∧ Orderly next bound.drafts := by
  induction actions generalizing linking with
  | nil => exact ⟨rfl, rfl, orderly⟩
  | cons action rest ih =>
      cases action with
      | add constraint =>
          obtain ⟨tables, _, orderly'⟩ := bind_pending next linking orderly ⟨none, table, constraint⟩
          have pending : (bindNamed table constraint linking).pending = linking.pending := by
            unfold bindNamed bindDraft
            split <;> rfl
          obtain ⟨tables', pending', orderly''⟩ := ih (bindNamed table constraint linking) orderly'
          have bound : (bindNamed table constraint linking).tables =
              bindTo linking.tables (table, constraint) := tables
          refine ⟨tables'.trans ?_, pending'.trans pending, orderly''⟩
          rw [bound]
          rfl
      | ignored action => exact ih (linking.note [ignoredAction table action]) orderly

theorem sequential_adds (next number : Nat) (statements : List Statement)
    (adds : ∀ statement ∈ statements, createdName? statement = none) (linking : Linking)
    (orderly : Orderly next linking.drafts) :
    (addStatements .sequential number linking statements).tables =
      (bindOrder statements).foldl bindTo linking.tables ∧
    (addStatements .sequential number linking statements).pending = linking.pending := by
  induction statements generalizing number linking with
  | nil => exact ⟨rfl, rfl⟩
  | cons statement rest ih =>
      obtain ⟨first, others⟩ := List.forall_mem_cons.mp adds
      cases statement with
      | createTable name clauses hasBody => cases first
      | alterTable table actions =>
          obtain ⟨tables, pending, orderly'⟩ := sequential_actions next table actions linking orderly
          obtain ⟨tables', pending'⟩ := ih (number + 1) others _ orderly'
          rw [bindOrder, List.foldl_append, ← tables]
          exact ⟨tables', pending'.trans pending⟩
      | ignored statement => exact ih (number + 1) others (linking.note _) orderly

theorem addStatements_append (mode : Resolution) (number : Nat) (linking : Linking)
    (before after : List Statement) :
    addStatements mode number linking (before ++ after) =
      addStatements mode (number + before.length) (addStatements mode number linking before) after := by
  induction before generalizing number linking with
  | nil => rfl
  | cons statement rest ih =>
      rw [List.cons_append, addStatements, ih, addStatements, List.length_cons, Nat.add_right_comm]
      rfl

/-- Where no constraint is added before all tables are made, both modes give the same schema. -/
theorem modes_agree (mode : Resolution) (made added : List Statement)
    (makes : ∀ statement ∈ made, Makes statement)
    (adds : ∀ statement ∈ added, createdName? statement = none) :
    (link mode (made ++ added)).1 = (link .deferred (made ++ added)).1 := by
  cases mode with
  | deferred => rfl
  | sequential =>
      obtain ⟨drafts, pending⟩ := first_pass 0 .start made
      rw [← makes_modes .sequential 0 .start made makes] at drafts pending
      have orderly := orderly_drafts 0 [] orderly_start made
      obtain ⟨tables, waiting⟩ := sequential_adds _ (0 + made.length) added adds
        (addStatements .sequential 0 .start made) (by rw [drafts]; exact orderly)
      have settled : (addStatements .sequential 0 .start (made ++ added)).pending = [] := by
        rw [addStatements_append, waiting, pending, makes_wait 0 made makes]
        rfl
      have bare : (addStatements .sequential 0 .start made).tables = bareTables made := by
        rw [Linking.tables, drafts, ← first_pass_tables made]
        rfl
      rw [link_deferred, bindOrder_makes made added makes, bareTables_adds made added adds, ← bare,
        ← tables, ← addStatements_append]
      simp only [link, finish, settled, List.foldl_nil, Linking.schema]

end TableScript.Link
