import TableScript.Proofs.Linking.Lasting

/-!
Linking that leaves no record. What linking does not carry out it puts on record, so where the
journal stays empty every statement is carried out in full: its columns are there, and its
constraints hold of the columns they name. A constraint that waits is accounted for up to the end
of the run, since only a definition that goes away, with a record, could take it along.
-/

namespace TableScript.Link

namespace Linking

/-- The tables of a run last as long as there is no record, and so does what waits. -/
structure Lasts (before after : Linking) : Prop where
  drafts : after.journal = [] → ∀ draft ∈ before.drafts, ∃ later ∈ after.drafts,
    later.number = draft.number ∧ draft.table.Lasts later.table
  pending : ∀ waiting ∈ before.pending, waiting ∈ after.pending
  quiet : after.journal = [] → before.journal = []

theorem Lasts.refl (linking : Linking) : linking.Lasts linking :=
  ⟨fun _ draft member => ⟨draft, member, rfl, Table.Lasts.refl _⟩, fun _ => id, id⟩

theorem Lasts.trans {first second third : Linking} (one : first.Lasts second)
    (two : second.Lasts third) : first.Lasts third := by
  refine ⟨fun quiet draft member => ?_, fun waiting member => two.pending _ (one.pending _ member),
    one.quiet ∘ two.quiet⟩
  obtain ⟨later, among, number, lasts⟩ := one.drafts (two.quiet quiet) draft member
  obtain ⟨last, still, number', lasts'⟩ := two.drafts quiet later among
  exact ⟨last, still, number'.trans number, lasts.trans lasts'⟩

theorem note_lasts (linking : Linking) (records : List Journal.Record) :
    linking.Lasts (linking.note records) :=
  ⟨fun _ draft member => ⟨draft, member, rfl, Table.Lasts.refl _⟩, fun _ => id,
    fun quiet => (List.append_eq_nil_iff.mp quiet).1⟩

/-- What waits is for the table with a name. -/
def Awaits (linking : Linking) (name : String) (waiting : Pending) : Prop :=
  match waiting.owner with
  | some number => ∃ draft ∈ linking.drafts, draft.number = number ∧ draft.table.name = name
  | none => waiting.table = name

def Bound (linking : Linking) (name : String) (constraint : Constraint) : Prop :=
  ∃ draft ∈ linking.drafts, draft.table.name = name ∧ Holds draft.table constraint

/-- A constraint on the table with a name holds, or it waits. -/
def Accounted (linking : Linking) (name : String) (constraint : Constraint) : Prop :=
  linking.Bound name constraint ∨
    ∃ waiting ∈ linking.pending, waiting.constraint = constraint ∧ linking.Awaits name waiting

section

variable {before after : Linking} (lasts : before.Lasts after) (quiet : after.journal = [])

include lasts quiet

theorem awaits_lasts (name : String) (waiting : Pending) (awaits : before.Awaits name waiting) :
    after.Awaits name waiting := by
  unfold Awaits at awaits ⊢
  cases owner : waiting.owner with
  | none => simpa only [owner] using awaits
  | some number =>
      simp only [owner] at awaits
      obtain ⟨draft, member, same, named⟩ := awaits
      obtain ⟨later, among, number', lasts'⟩ := lasts.drafts quiet draft member
      exact ⟨later, among, number'.trans same, lasts'.name.trans named⟩

theorem bound_lasts (name : String) (constraint : Constraint) (bound : before.Bound name constraint) :
    after.Bound name constraint := by
  obtain ⟨draft, member, named, holds⟩ := bound
  obtain ⟨later, among, _, lasts'⟩ := lasts.drafts quiet draft member
  exact ⟨later, among, lasts'.name.trans named, holds_lasts lasts' constraint holds⟩

theorem accounted_lasts (name : String) (constraint : Constraint)
    (accounted : before.Accounted name constraint) : after.Accounted name constraint := by
  rcases accounted with bound | ⟨waiting, member, same, awaits⟩
  · exact Or.inl (bound_lasts lasts quiet name constraint bound)
  · exact Or.inr ⟨waiting, lasts.pending waiting member, same, awaits_lasts lasts quiet name waiting awaits⟩

end

end Linking

/-- Binding to a draft that is looked for: without a record there is such a draft, and the
constraint holds of it. -/
theorem quiet_bindDraft (isIt : Draft → Bool) (written : String) (constraint : Constraint)
    (linking : Linking) (distinct : ∀ draft ∈ linking.drafts, draft.table.Distinct)
    (quiet : (bindDraft isIt written constraint linking).journal = []) :
    ∃ draft ∈ linking.drafts, isIt draft = true ∧
      (bindDraft isIt written constraint linking).Bound draft.table.name constraint := by
  unfold bindDraft at quiet ⊢
  cases found : linking.drafts.find? isIt with
  | none =>
      rw [found] at quiet
      cases (List.append_eq_nil_iff.mp quiet).2
  | some draft =>
      simp only [found] at quiet ⊢
      have member := List.mem_of_find?_eq_some found
      have holds := quiet_bind linking.tables draft.table written constraint (distinct draft member)
        (List.append_eq_nil_iff.mp quiet).2
      have lasts := bind_lasts linking.tables draft.table written constraint (distinct draft member)
      obtain ⟨before, after, _, changed⟩ := change_first_found isIt (fun draft' =>
        { draft' with table := (bind linking.tables draft.table written constraint).1 }) _ draft found
      refine ⟨draft, member, List.find?_some found,
        { draft with table := (bind linking.tables draft.table written constraint).1 }, ?_,
        lasts.name, holds⟩
      rw [Linking.note, changed]
      exact List.mem_append_right _ List.mem_cons_self

theorem bindDraft_lasts (isIt : Draft → Bool) (written : String) (constraint : Constraint)
    (linking : Linking) (distinct : ∀ draft ∈ linking.drafts, draft.table.Distinct) :
    linking.Lasts (bindDraft isIt written constraint linking) := by
  unfold bindDraft
  split
  case h_1 => exact linking.note_lasts _
  case h_2 draft found =>
    have lasts := bind_lasts linking.tables draft.table written constraint
      (distinct draft (List.mem_of_find?_eq_some found))
    obtain ⟨before, after, split, changed⟩ := change_first_found isIt (fun draft' =>
      { draft' with table := (bind linking.tables draft.table written constraint).1 }) _ draft found
    refine ⟨fun _ other member => ?_, fun _ => id, fun quiet => (List.append_eq_nil_iff.mp quiet).1⟩
    simp only [Linking.note, changed]
    rw [split] at member
    rcases List.mem_append.mp member with earlier | here
    · exact ⟨other, List.mem_append_left _ earlier, rfl, Table.Lasts.refl _⟩
    rcases List.mem_cons.mp here with rfl | later
    · exact ⟨_, List.mem_append_right _ List.mem_cons_self, rfl, lasts⟩
    · exact ⟨other, List.mem_append_right _ (List.mem_cons_of_mem _ later), rfl, Table.Lasts.refl _⟩

theorem quiet_register (draft : Draft) (drafts : List Draft) (quiet : (register draft drafts).2 = []) :
    draft.table.name ∉ drafts.map (·.table.name) ∧ (register draft drafts).1 = drafts ++ [draft] := by
  unfold register at quiet ⊢
  cases found : drafts.find? (hasName draft.table.name) with
  | some old =>
      rw [found] at quiet
      cases quiet
  | none =>
      refine ⟨fun member => ?_, rfl⟩
      obtain ⟨old, among, same⟩ := List.mem_map.mp member
      exact List.find?_eq_none.mp found old among ((hasName_iff _ old).mpr same)

/-- A statement is carried out as far as the run has come. -/
def Underway (linking : Linking) : Statement → Prop
  | .createTable name clauses _ => ((clauses.filterMap definition?).map (·.name)).Nodup ∧
      ∃ draft ∈ linking.drafts, draft.table.name = name ∧
        ∀ clause ∈ clauses, Carried draft.table (linking.Accounted name) clause
  | .alterTable name actions => ∀ action ∈ actions, ∃ constraint, action = .add constraint ∧
      linking.Accounted name constraint
  | .ignored _ => False

theorem underway_lasts {before after : Linking} (lasts : before.Lasts after)
    (quiet : after.journal = []) (statement : Statement) (underway : Underway before statement) :
    Underway after statement := by
  cases statement with
  | createTable name clauses hasBody =>
      obtain ⟨distinct, draft, member, named, carried⟩ := underway
      obtain ⟨later, among, _, lasts'⟩ := lasts.drafts quiet draft member
      refine ⟨distinct, later, among, lasts'.name.trans named, fun clause inside => ?_⟩
      exact carried_lasts lasts' (Linking.accounted_lasts lasts quiet name) clause (carried clause inside)
  | alterTable name actions =>
      intro action inside
      obtain ⟨constraint, added, accounted⟩ := underway action inside
      exact ⟨constraint, added, Linking.accounted_lasts lasts quiet name constraint accounted⟩
  | ignored statement => exact underway

variable (mode : Resolution)

theorem action_lasts (table : String) (linking : Linking) (action : Action)
    (distinct : ∀ draft ∈ linking.drafts, draft.table.Distinct) :
    linking.Lasts (addAction mode table linking action) := by
  cases action with
  | ignored action => exact linking.note_lasts _
  | add constraint =>
      cases mode with
      | deferred =>
          exact ⟨fun _ draft member => ⟨draft, member, rfl, Table.Lasts.refl _⟩,
            fun _ => List.mem_append_left _, id⟩
      | sequential => exact bindDraft_lasts (hasName table) table constraint linking distinct

theorem action_accounted (table : String) (linking : Linking) (action : Action)
    (distinct : ∀ draft ∈ linking.drafts, draft.table.Distinct)
    (quiet : (addAction mode table linking action).journal = []) :
    ∃ constraint, action = .add constraint ∧
      (addAction mode table linking action).Accounted table constraint := by
  cases action with
  | ignored action => cases (List.append_eq_nil_iff.mp quiet).2
  | add constraint =>
      refine ⟨constraint, rfl, ?_⟩
      cases mode with
      | deferred =>
          exact Or.inr ⟨⟨none, table, constraint⟩,
            List.mem_append_right _ (List.mem_singleton_self _), rfl, rfl⟩
      | sequential =>
          obtain ⟨draft, _, named, bound⟩ :=
            quiet_bindDraft (hasName table) table constraint linking distinct quiet
          exact Or.inl ((hasName_iff table draft).mp named ▸ bound)

theorem action_orderly (next : Nat) (table : String) (linking : Linking) (action : Action)
    (orderly : Orderly next linking.drafts) :
    Orderly next (addAction mode table linking action).drafts := by
  cases mode with
  | deferred => exact (deferred_actions table [action] linking).1 ▸ orderly
  | sequential => exact (sequential_actions next table [action] linking orderly).2.2

theorem actions_accounted (next : Nat) (table : String) (actions : List Action) (linking : Linking)
    (orderly : Orderly next linking.drafts) :
    linking.Lasts (actions.foldl (addAction mode table) linking) ∧
    ((actions.foldl (addAction mode table) linking).journal = [] → ∀ action ∈ actions,
      ∃ constraint, action = .add constraint ∧
        (actions.foldl (addAction mode table) linking).Accounted table constraint) := by
  induction actions generalizing linking with
  | nil => exact ⟨.refl linking, fun _ action member => absurd member List.not_mem_nil⟩
  | cons action rest ih =>
      have first := action_lasts mode table linking action orderly.distinct
      obtain ⟨later, accounted⟩ := ih _ (action_orderly mode next table linking action orderly)
      refine ⟨first.trans later, fun quiet => List.forall_mem_cons.mpr ⟨?_, accounted quiet⟩⟩
      obtain ⟨constraint, added, here⟩ :=
        action_accounted mode table linking action orderly.distinct (later.quiet quiet)
      exact ⟨constraint, added, Linking.accounted_lasts later quiet table constraint here⟩

/-- The building that a statement begins with. -/
def started (name : String) (hasBody : Bool) : Building :=
  ⟨.empty name, [], if hasBody then [] else [missingBody name]⟩

theorem build_name (known : List PlainTable) (number : Nat) (name : String) (clauses : List Clause)
    (hasBody : Bool) : (build mode known number name clauses hasBody).table.name = name :=
  (Building.clauses_lasts mode known number (started name hasBody) List.nodup_nil clauses).table.name

/-- A table joins the drafts of a run that makes no record of it. -/
theorem quiet_create (number : Nat) (linking : Linking) (name : String) (clauses : List Clause)
    (hasBody : Bool)
    (quiet : (addStatement mode number linking (.createTable name clauses hasBody)).journal = []) :
    let building := build mode linking.tables number name clauses hasBody
    building.journal = [] ∧ name ∉ linking.drafts.map (·.table.name) ∧
      (addStatement mode number linking (.createTable name clauses hasBody)).drafts =
        linking.drafts ++ [⟨number, building.table⟩] := by
  intro building
  obtain ⟨earlier, registered⟩ := List.append_eq_nil_iff.mp quiet
  obtain ⟨absent, joined⟩ := quiet_register ⟨number, building.table⟩ linking.drafts registered
  refine ⟨(List.append_eq_nil_iff.mp earlier).2, ?_, joined⟩
  rwa [← build_name mode linking.tables number name clauses hasBody]

theorem statement_lasts (number : Nat) (linking : Linking) (statement : Statement)
    (orderly : Orderly number linking.drafts) :
    linking.Lasts (addStatement mode number linking statement) := by
  cases statement with
  | createTable name clauses hasBody =>
      refine ⟨fun quiet draft member => ?_, fun waiting => List.mem_append_left _, fun quiet => ?_⟩
      · obtain ⟨_, _, joined⟩ := quiet_create mode number linking name clauses hasBody quiet
        rw [joined]
        exact ⟨draft, List.mem_append_left _ member, rfl, Table.Lasts.refl _⟩
      · exact (List.append_eq_nil_iff.mp (List.append_eq_nil_iff.mp quiet).1).1
  | alterTable table actions => exact (actions_accounted mode number table actions linking orderly).1
  | ignored statement => exact linking.note_lasts _

theorem statement_underway (number : Nat) (linking : Linking) (statement : Statement)
    (orderly : Orderly number linking.drafts)
    (quiet : (addStatement mode number linking statement).journal = []) :
    Underway (addStatement mode number linking statement) statement := by
  cases statement with
  | createTable name clauses hasBody =>
      obtain ⟨silent, _, joined⟩ := quiet_create mode number linking name clauses hasBody quiet
      have named := build_name mode linking.tables number name clauses hasBody
      have carried := Building.clauses_carried mode linking.tables number (started name hasBody)
        List.nodup_nil clauses silent
      have here : ⟨number, (build mode linking.tables number name clauses hasBody).table⟩ ∈
          (addStatement mode number linking (.createTable name clauses hasBody)).drafts := by
        rw [joined]
        exact List.mem_append_right _ (List.mem_singleton_self _)
      refine ⟨(Building.definitions_fresh mode linking.tables number (started name hasBody)
        List.nodup_nil clauses silent).1, _, here, named, fun clause member => ?_⟩
      refine carried_lasts (Table.Lasts.refl _) (fun constraint accounted => ?_) clause
        (carried clause member)
      rcases accounted with holds | waits
      · exact Or.inl ⟨_, here, named, holds⟩
      · exact Or.inr ⟨_, List.mem_append_right _ waits, rfl, _, here, rfl, named⟩
  | alterTable table actions =>
      exact (actions_accounted mode number table actions linking orderly).2 quiet
  | ignored statement => cases (List.append_eq_nil_iff.mp quiet).2

theorem statement_orderly (number : Nat) (linking : Linking) (statement : Statement)
    (orderly : Orderly number linking.drafts) :
    Orderly (number + 1) (addStatement mode number linking statement).drafts := by
  cases mode with
  | deferred =>
      rw [(deferred_statement number linking statement).1]
      exact orderly_draft number linking.drafts orderly statement
  | sequential => exact (sequential_statement number linking statement orderly).2.2

theorem statements_lasts (number : Nat) (linking : Linking) (statements : List Statement)
    (orderly : Orderly number linking.drafts) :
    linking.Lasts (addStatements mode number linking statements) ∧
      Orderly (number + statements.length) (addStatements mode number linking statements).drafts := by
  induction statements generalizing number linking with
  | nil => exact ⟨.refl linking, orderly⟩
  | cons statement rest ih =>
      have next := statement_orderly mode number linking statement orderly
      obtain ⟨lasts, last⟩ := ih (number + 1) _ next
      rw [Nat.add_assoc, Nat.add_comm 1] at last
      exact ⟨(statement_lasts mode number linking statement orderly).trans lasts, last⟩

/-- Without a record every statement stays carried out, and no two make one table. -/
theorem statements_underway (number : Nat) (linking : Linking) (statements : List Statement)
    (orderly : Orderly number linking.drafts)
    (quiet : (addStatements mode number linking statements).journal = []) :
    (∀ statement ∈ statements, Underway (addStatements mode number linking statements) statement) ∧
    (createdNames statements).Nodup ∧
    ∀ name ∈ createdNames statements, name ∉ linking.drafts.map (·.table.name) := by
  induction statements generalizing number linking with
  | nil => exact ⟨fun _ member => absurd member List.not_mem_nil, List.nodup_nil, fun _ member =>
      absurd member List.not_mem_nil⟩
  | cons statement rest ih =>
      have next := statement_orderly mode number linking statement orderly
      have later := (statements_lasts mode (number + 1) _ rest next).1
      have first := statement_underway mode number linking statement orderly (later.quiet quiet)
      obtain ⟨others, distinct, fresh⟩ := ih (number + 1) _ next quiet
      refine ⟨List.forall_mem_cons.mpr ⟨underway_lasts later quiet statement first, others⟩, ?_⟩
      have before : ∀ name ∈ createdNames rest, name ∉ linking.drafts.map (·.table.name) := by
        intro name made member
        obtain ⟨draft, among, rfl⟩ := List.mem_map.mp member
        have lasts := statement_lasts mode number linking statement orderly
        obtain ⟨kept, still, _, same⟩ := lasts.drafts (later.quiet quiet) draft among
        exact fresh _ made (same.name ▸ List.mem_map_of_mem still)
      cases statement with
      | alterTable table actions => exact ⟨distinct, before⟩
      | ignored statement => exact ⟨distinct, before⟩
      | createTable name clauses hasBody =>
          obtain ⟨_, draft, member, named, _⟩ := first
          have free := (quiet_create mode number linking name clauses hasBody (later.quiet quiet)).2.1
          rw [created_names_create]
          refine ⟨List.nodup_cons.mpr ⟨fun again => ?_, distinct⟩, List.forall_mem_cons.mpr ⟨free, before⟩⟩
          exact fresh name again (List.mem_map.mpr ⟨draft, member, named⟩)

theorem pending_lasts (linking : Linking) (waiting : Pending)
    (distinct : ∀ draft ∈ linking.drafts, draft.table.Distinct) :
    linking.Lasts (bindPending linking waiting) := by
  unfold bindPending
  split
  · exact bindDraft_lasts _ waiting.table waiting.constraint linking distinct
  · exact bindDraft_lasts _ waiting.table waiting.constraint linking distinct

theorem pending_bound (next : Nat) (linking : Linking) (waiting : Pending)
    (orderly : Orderly next linking.drafts) (name : String) (awaits : linking.Awaits name waiting)
    (quiet : (bindPending linking waiting).journal = []) :
    (bindPending linking waiting).Bound name waiting.constraint := by
  obtain ⟨owner, written, constraint⟩ := waiting
  cases owner with
  | none =>
      obtain ⟨draft, _, named, bound⟩ :=
        quiet_bindDraft (hasName written) written constraint linking orderly.distinct quiet
      have same : written = name := awaits
      exact same ▸ (hasName_iff written draft).mp named ▸ bound
  | some number =>
      obtain ⟨owner, among, numbered, named⟩ := awaits
      obtain ⟨draft, member, isIt, bound⟩ := quiet_bindDraft (fun draft => draft.number == number)
        written constraint linking orderly.distinct quiet
      have same := orderly.apart draft member owner among ((beq_iff_eq.mp isIt).trans numbered.symm)
      exact same.trans named ▸ bound

theorem all_pending_bound (next : Nat) (pending : List Pending) (linking : Linking)
    (orderly : Orderly next linking.drafts) :
    linking.Lasts (pending.foldl bindPending linking) ∧
    Orderly next (pending.foldl bindPending linking).drafts ∧
    ((pending.foldl bindPending linking).journal = [] → ∀ waiting ∈ pending, ∀ name,
      linking.Awaits name waiting →
        (pending.foldl bindPending linking).Bound name waiting.constraint) := by
  induction pending generalizing linking with
  | nil => exact ⟨.refl linking, orderly, fun _ _ member => absurd member List.not_mem_nil⟩
  | cons waiting rest ih =>
      have first := pending_lasts linking waiting orderly.distinct
      obtain ⟨lasts, last, bound⟩ := ih _ (bind_pending next linking orderly waiting).2.2
      refine ⟨first.trans lasts, last, fun quiet => List.forall_mem_cons.mpr ⟨?_, ?_⟩⟩
      · intro name awaits
        exact Linking.bound_lasts lasts quiet name waiting.constraint
          (pending_bound next linking waiting orderly name awaits (lasts.quiet quiet))
      · intro other member name awaits
        exact bound quiet other member name
          (Linking.awaits_lasts first (lasts.quiet quiet) name other awaits)

/-- Without a record nothing is left to wait for. -/
theorem finish_bound (next : Nat) (linking : Linking) (orderly : Orderly next linking.drafts)
    (quiet : (finish linking).journal = []) (name : String) (constraint : Constraint)
    (accounted : linking.Accounted name constraint) : (finish linking).Bound name constraint := by
  obtain ⟨lasts, _, bound⟩ := all_pending_bound next linking.pending linking orderly
  rcases accounted with already | ⟨waiting, member, rfl, awaits⟩
  · exact Linking.bound_lasts lasts quiet name constraint already
  · exact bound quiet waiting member name awaits

theorem orderly_table (next : Nat) (linking : Linking) (orderly : Orderly next linking.drafts)
    (draft : Draft) (member : draft ∈ linking.drafts) :
    linking.schema.table? draft.table.name = some draft.table := by
  rw [Schema.table?, Linking.schema, Linking.tables, List.find?_map]
  cases found : linking.drafts.find? ((fun table : PlainTable =>
      sameStored table.name draft.table.name) ∘ (·.table)) with
  | none =>
      have other := List.find?_eq_none.mp found draft member
      simp at other
  | some first =>
      have named : first.table.name = draft.table.name := by simpa using List.find?_some found
      rw [List.inj_on_of_nodup_map orderly.names (List.mem_of_find?_eq_some found) member named]
      rfl

/-- A clause is carried out in a table. -/
def CarriedOut (table : PlainTable) : Clause → Prop
  | .column definition => Has table definition.name fun column =>
      column.dataType = definition.dataType ∧
        (definition.reference.isSome = true → column.reference.isSome = true)
  | .constraint constraint => Holds table constraint
  | .ignored _ => False

/-- A statement is carried out in a schema: every clause of it, and every definition by a column of
its own. -/
def Shown (schema : PlainSchema) : Statement → Prop
  | .createTable name clauses _ => ((clauses.filterMap definition?).map (·.name)).Nodup ∧
      ∃ table, schema.table? name = some table ∧ ∀ clause ∈ clauses, CarriedOut table clause
  | .alterTable name actions => ∀ action ∈ actions,
      ∃ table, schema.table? name = some table ∧ CarriedOut table action.toClause
  | .ignored _ => False

theorem carried_out (table : PlainTable) (clause : Clause)
    (carried : Carried table (Holds table) clause) : CarriedOut table clause := by
  cases clause with
  | constraint constraint => exact carried
  | ignored clause => exact carried
  | column definition =>
      obtain ⟨⟨column, found, typed, direct⟩, opened⟩ := carried
      refine ⟨column, found, typed, fun referring => ?_⟩
      obtain ⟨target, reference⟩ := Option.isSome_iff_exists.mp referring
      cases named : target.columns with
      | nil =>
          have key : Building.openReference? definition =
              some (.foreignKey [definition.name] target none) := by
            simp [Building.openReference?, reference, named]
          obtain ⟨other, same, pointing⟩ := opened _ key definition.name (List.mem_singleton_self _)
          obtain rfl := Option.some.inj (found.symm.trans same)
          exact pointing
      | cons first rest =>
          exact direct (by simp [Building.directReference?, reference, named])

/-- Linking that leaves no record has carried out every statement, and no two statements have made
one table. -/
theorem unrecorded_carried_out (statements : List Statement)
    (quiet : (link mode statements).2 = []) :
    (createdNames statements).Nodup ∧
      ∀ statement ∈ statements, Shown (link mode statements).1 statement := by
  obtain ⟨_, orderly⟩ := statements_lasts mode 0 .start statements orderly_start
  obtain ⟨lasts, last, _⟩ := all_pending_bound _ (addStatements mode 0 .start statements).pending _ orderly
  obtain ⟨underway, distinct, _⟩ := statements_underway mode 0 .start statements orderly_start
    (lasts.quiet quiet)
  refine ⟨distinct, fun statement member => ?_⟩
  cases statement with
  | createTable name clauses hasBody =>
      obtain ⟨own, draft, among, named, carried⟩ := underway _ member
      obtain ⟨later, still, _, lasts'⟩ := lasts.drafts quiet draft among
      have found := orderly_table _ _ last later still
      rw [lasts'.name.trans named] at found
      refine ⟨own, later.table, found, fun clause inside => carried_out later.table clause ?_⟩
      refine carried_lasts lasts' (fun constraint accounted => ?_) clause (carried clause inside)
      obtain ⟨other, elsewhere, same, holds⟩ := finish_bound _ _ orderly quiet name constraint accounted
      rw [List.inj_on_of_nodup_map last.names elsewhere still
        (same.trans (lasts'.name.trans named).symm)] at holds
      exact holds
  | alterTable name actions =>
      intro action inside
      obtain ⟨constraint, rfl, accounted⟩ := underway _ member action inside
      obtain ⟨draft, among, named, holds⟩ := finish_bound _ _ orderly quiet name constraint accounted
      exact ⟨draft.table, named ▸ orderly_table _ _ last draft among, holds⟩
  | ignored statement => exact underway _ member

-- Every kind of constraint, inside a table and behind it, and both ways to point at a table.
def hotelScript : List Statement :=
  [.createTable "room" [.column ⟨"floor", "INT", false, false, false, none⟩,
      .column ⟨"door", "INT", false, false, false, none⟩,
      .constraint (.primaryKey ["floor", "door"] none)] true,
    .createTable "guest" [.column ⟨"id", "INT", true, false, false, none⟩,
      .column ⟨"floor", "INT", false, false, false, none⟩,
      .column ⟨"door", "INT", false, true, false, none⟩,
      .column ⟨"host", "INT", false, false, false, some ⟨"guest", ["id"]⟩⟩,
      .column ⟨"partner", "INT", false, false, false, some ⟨"guest", []⟩⟩,
      .constraint (.foreignKey ["floor", "door"] ⟨"room", []⟩ none)] true,
    .alterTable "guest" [.add (.unique ["partner"] none)]]

theorem hotel_script_carried_out :
    (link .deferred hotelScript).2 = [] ∧ (link .sequential hotelScript).2 = [] ∧
    (∀ statement ∈ hotelScript, Shown (link .deferred hotelScript).1 statement) ∧
    ∀ statement ∈ hotelScript, Shown (link .sequential hotelScript).1 statement :=
  ⟨rfl, rfl, (unrecorded_carried_out .deferred hotelScript rfl).2,
    (unrecorded_carried_out .sequential hotelScript rfl).2⟩

end TableScript.Link
