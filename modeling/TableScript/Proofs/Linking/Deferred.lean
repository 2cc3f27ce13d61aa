import TableScript.Proofs.Linking.Declared
import Mathlib.Data.List.Induction

/-!
Deferred linking in one go. The first pass makes the tables as they were declared last and lets
the constraints wait, each with the number of the definition it was written in; the second pass
binds those whose definition is still there. Together they bind `bindOrder` to `bareTables`.
-/

namespace TableScript.Link

/-- The table that is being made with one more column. -/
def Building.withColumn (building : Building) (definition : ColumnDefinition) : Building :=
  { building with table :=
    { building.table with columns := building.table.columns ++ [columnOf definition] } }

theorem deferred_clauses (known : List PlainTable) (number : Nat) (clauses : List Clause)
    (building : Building) (taken : List String)
    (current : building.table.columns.map (·.name) = taken) :
    let made := clauses.foldl (Building.addClause .deferred known number) building
    made.table = { building.table with
      columns := building.table.columns ++
        (firstDefinitions taken clauses).map Building.columnOf } ∧
    made.pending = building.pending ++
      (ownConstraints taken clauses).map fun constraint =>
        ⟨some number, building.table.name, constraint⟩ := by
  induction clauses generalizing building taken with
  | nil => simp [firstDefinitions, ownConstraints]
  | cons clause rest ih =>
      cases clause with
      | column definition =>
          simp only [List.foldl_cons, Building.addClause, Building.addColumn]
          have known' := building.table.column_eq_none definition.name
          rw [current] at known'
          cases found : building.table.column? definition.name with
          | some column =>
              have repeated : definition.name ∈ taken := by
                by_contra absent
                simp [known'.mpr absent] at found
              obtain ⟨table, pending⟩ := ih (building.note
                [repeatedColumn building.table.name definition.name]) taken current
              constructor
              · apply table.trans
                simp [Building.note, firstDefinitions, repeated]
              · apply pending.trans
                simp [Building.note, ownConstraints, repeated]
          | none =>
              have fresh := known'.mp found
              have grown : (building.withColumn definition).table.columns.map (·.name) =
                  taken ++ [definition.name] := by
                simp [Building.withColumn, current, Building.columnOf]
              cases reference : Building.openReference? definition with
              | none =>
                  obtain ⟨table, pending⟩ := ih (building.withColumn definition) _ grown
                  constructor
                  · apply table.trans
                    simp [Building.withColumn, firstDefinitions, fresh]
                  · apply pending.trans
                    simp [Building.withColumn, ownConstraints, fresh, reference]
              | some constraint =>
                  obtain ⟨table, pending⟩ := ih ((building.withColumn definition).place .deferred
                    known number constraint) _ grown
                  constructor
                  · apply table.trans
                    simp [Building.place, Building.withColumn, firstDefinitions, fresh]
                  · apply pending.trans
                    simp [Building.place, Building.withColumn, ownConstraints, fresh, reference]
      | constraint constraint =>
          obtain ⟨table, pending⟩ :=
            ih (building.place .deferred known number constraint) taken current
          constructor
          · apply table.trans
            simp [Building.place, firstDefinitions]
          · apply pending.trans
            simp [Building.place, ownConstraints]
      | ignored clause =>
          obtain ⟨table, pending⟩ :=
            ih (building.note [ignoredClause building.table.name clause]) taken current
          constructor
          · apply table.trans
            simp [Building.note, firstDefinitions]
          · apply pending.trans
            simp [Building.note, ownConstraints]

theorem deferred_build (known : List PlainTable) (number : Nat) (name : String)
    (clauses : List Clause) (hasBody : Bool) :
    (build .deferred known number name clauses hasBody).table = bareTable name clauses ∧
    (build .deferred known number name clauses hasBody).pending =
      (ownConstraints [] clauses).map fun constraint => ⟨some number, name, constraint⟩ := by
  obtain ⟨table, pending⟩ := deferred_clauses known number clauses
    ⟨.empty name, [], if hasBody then [] else [missingBody name]⟩ [] rfl
  exact ⟨table, pending⟩

def addDraft (number : Nat) (drafts : List Draft) : Statement → List Draft
  | .createTable name clauses _ => (register ⟨number, bareTable name clauses⟩ drafts).1
  | _ => drafts

def addDrafts : Nat → List Draft → List Statement → List Draft
  | _, drafts, [] => drafts
  | number, drafts, statement :: rest => addDrafts (number + 1) (addDraft number drafts statement) rest

def waiting (number : Nat) : Statement → List Pending
  | .createTable name clauses _ =>
      (ownConstraints [] clauses).map fun constraint => ⟨some number, name, constraint⟩
  | .alterTable table actions =>
      (actions.filterMap added?).map fun constraint => ⟨none, table, constraint⟩
  | .ignored _ => []

def waitingFrom : Nat → List Statement → List Pending
  | _, [] => []
  | number, statement :: rest => waiting number statement ++ waitingFrom (number + 1) rest

theorem deferred_actions (table : String) (actions : List Action) (linking : Linking) :
    (actions.foldl (addAction .deferred table) linking).drafts = linking.drafts ∧
    (actions.foldl (addAction .deferred table) linking).pending =
      linking.pending ++ (actions.filterMap added?).map fun constraint =>
        ⟨none, table, constraint⟩ := by
  induction actions generalizing linking with
  | nil => simp
  | cons action rest ih =>
      cases action with
      | add constraint =>
          obtain ⟨drafts, pending⟩ := ih (addAction .deferred table linking (.add constraint))
          exact ⟨drafts, pending.trans (by simp [addAction, added?])⟩
      | ignored action =>
          obtain ⟨drafts, pending⟩ := ih (addAction .deferred table linking (.ignored action))
          exact ⟨drafts, pending⟩

theorem deferred_statement (number : Nat) (linking : Linking) (statement : Statement) :
    (addStatement .deferred number linking statement).drafts =
      addDraft number linking.drafts statement ∧
    (addStatement .deferred number linking statement).pending =
      linking.pending ++ waiting number statement := by
  cases statement with
  | createTable name clauses hasBody =>
      obtain ⟨table, pending⟩ := deferred_build linking.tables number name clauses hasBody
      simp only [addStatement, addDraft, waiting, table, pending, and_self]
  | alterTable table actions => exact deferred_actions table actions linking
  | ignored statement => simp [addStatement, addDraft, waiting, Linking.note]

theorem first_pass (number : Nat) (linking : Linking) (statements : List Statement) :
    (addStatements .deferred number linking statements).drafts =
      addDrafts number linking.drafts statements ∧
    (addStatements .deferred number linking statements).pending =
      linking.pending ++ waitingFrom number statements := by
  induction statements generalizing number linking with
  | nil => simp [addStatements, addDrafts, waitingFrom]
  | cons statement rest ih =>
      obtain ⟨drafts, pending⟩ := deferred_statement number linking statement
      obtain ⟨drafts', pending'⟩ := ih (number + 1) (addStatement .deferred number linking statement)
      constructor
      · exact drafts'.trans (by rw [drafts]; rfl)
      · exact pending'.trans (by rw [pending, List.append_assoc]; rfl)

/-- What holds of the drafts before the statement with a number: no two have one name, no two
with different names have one number, and all of them were made earlier. -/
structure Orderly (next : Nat) (drafts : List Draft) : Prop where
  names : (drafts.map (·.table.name)).Nodup
  apart : ∀ a ∈ drafts, ∀ b ∈ drafts, a.number = b.number → a.table.name = b.table.name
  earlier : ∀ draft ∈ drafts, draft.number < next
  distinct : ∀ draft ∈ drafts, draft.table.Distinct

theorem orderly_start : Orderly 0 [] :=
  ⟨List.nodup_nil, by simp, by simp, by simp⟩

theorem hasName_iff (name : String) (draft : Draft) :
    hasName name draft = true ↔ draft.table.name = name := by
  simp [hasName]

theorem register_eq (draft : Draft) (drafts : List Draft)
    (names : (drafts.map (·.table.name)).Nodup) :
    (register draft drafts).1 =
      if draft.table.name ∈ drafts.map (·.table.name) then
        drafts.map fun old => if old.table.name = draft.table.name then draft else old
      else drafts ++ [draft] := by
  unfold register
  split
  case h_1 old found =>
    have member : draft.table.name ∈ drafts.map (·.table.name) := by
      have same := (hasName_iff _ _).mp (List.find?_some found)
      exact same ▸ List.mem_map_of_mem (List.mem_of_find?_eq_some found)
    rw [if_pos member]
    exact change_first_keyed (·.table.name) _ draft.table.name _ drafts
      (fun old _ => hasName_iff _ old) names
  case h_2 absent =>
    rw [if_neg]
    intro member
    obtain ⟨old, oldMember, same⟩ := List.mem_map.mp member
    exact List.find?_eq_none.mp absent old oldMember ((hasName_iff _ _).mpr same)

theorem register_names (draft : Draft) (drafts : List Draft)
    (names : (drafts.map (·.table.name)).Nodup) :
    (register draft drafts).1.map (·.table.name) =
      if draft.table.name ∈ drafts.map (·.table.name) then drafts.map (·.table.name)
      else drafts.map (·.table.name) ++ [draft.table.name] := by
  rw [register_eq draft drafts names]
  split
  · rw [List.map_map]
    apply List.map_congr_left
    intro old _
    simp only [Function.comp_apply]
    split
    case isTrue same => exact same.symm
    case isFalse => rfl
  · simp

theorem mem_register (draft kept : Draft) (drafts : List Draft)
    (names : (drafts.map (·.table.name)).Nodup) :
    kept ∈ (register draft drafts).1 ↔
      kept = draft ∨ kept ∈ drafts ∧ kept.table.name ≠ draft.table.name := by
  rw [register_eq draft drafts names]
  split
  case isTrue present =>
    simp only [List.mem_map]
    constructor
    · rintro ⟨old, member, rfl⟩
      split
      · exact Or.inl rfl
      case isFalse other => exact Or.inr ⟨member, other⟩
    · rintro (rfl | ⟨member, other⟩)
      · obtain ⟨old, member, same⟩ := List.mem_map.mp present
        exact ⟨old, member, if_pos same⟩
      · exact ⟨kept, member, if_neg other⟩
  case isFalse absent =>
    simp only [List.mem_append, List.mem_singleton]
    constructor
    · rintro (member | rfl)
      · exact Or.inr ⟨member, fun same => absent (same ▸ List.mem_map_of_mem member)⟩
      · exact Or.inl rfl
    · rintro (rfl | ⟨member, _⟩)
      · exact Or.inr rfl
      · exact Or.inl member

theorem orderly_register (number : Nat) (drafts : List Draft) (orderly : Orderly number drafts)
    (table : PlainTable) (distinct : table.Distinct) :
    Orderly (number + 1) (register ⟨number, table⟩ drafts).1 := by
  have member := fun kept => mem_register ⟨number, table⟩ kept drafts orderly.names
  refine ⟨?_, ?_, ?_, ?_⟩
  · rw [register_names _ drafts orderly.names]
    split
    · exact orderly.names
    case isFalse absent =>
      exact List.nodup_append.mpr ⟨orderly.names, List.nodup_singleton _, by
        intro a aMember b bMember same
        exact absent (by simpa [List.mem_singleton.mp bMember ▸ same] using aMember)⟩
  · intro a aMember b bMember same
    rcases (member a).mp aMember with rfl | ⟨aOld, _⟩ <;>
      rcases (member b).mp bMember with rfl | ⟨bOld, _⟩
    · rfl
    · exact absurd same (Nat.ne_of_gt (orderly.earlier b bOld))
    · exact absurd same (Nat.ne_of_lt (orderly.earlier a aOld))
    · exact orderly.apart a aOld b bOld same
  · intro draft draftMember
    rcases (member draft).mp draftMember with rfl | ⟨old, _⟩
    · exact Nat.lt_succ_self number
    · exact Nat.lt_succ_of_lt (orderly.earlier draft old)
  · intro draft draftMember
    rcases (member draft).mp draftMember with rfl | ⟨old, _⟩
    · exact distinct
    · exact orderly.distinct draft old

theorem orderly_draft (number : Nat) (drafts : List Draft) (orderly : Orderly number drafts)
    (statement : Statement) : Orderly (number + 1) (addDraft number drafts statement) := by
  have later : Orderly (number + 1) drafts :=
    ⟨orderly.names, orderly.apart, fun draft member => Nat.lt_succ_of_lt (orderly.earlier draft member),
      orderly.distinct⟩
  cases statement with
  | createTable name clauses hasBody =>
      exact orderly_register number drafts orderly _ (bare_table_distinct name clauses)
  | alterTable table actions => exact later
  | ignored statement => exact later

theorem orderly_drafts (number : Nat) (drafts : List Draft) (orderly : Orderly number drafts)
    (statements : List Statement) :
    Orderly (number + statements.length) (addDrafts number drafts statements) := by
  induction statements generalizing number drafts with
  | nil => exact orderly
  | cons statement rest ih =>
      have next := ih (number + 1) _ (orderly_draft number drafts orderly statement)
      simpa [addDrafts, Nat.add_assoc, Nat.add_comm 1] using next

theorem add_drafts_append (number : Nat) (drafts : List Draft) (before after : List Statement) :
    addDrafts number drafts (before ++ after) =
      addDrafts (number + before.length) (addDrafts number drafts before) after := by
  induction before generalizing number drafts with
  | nil => rfl
  | cons statement rest ih => simp [addDrafts, ih, Nat.add_assoc, Nat.add_comm 1]

/-- The first pass makes the bare tables, each in the place where its name first came up. -/
theorem first_pass_tables (statements : List Statement) :
    (addDrafts 0 [] statements).map (·.table) = bareTables statements := by
  induction statements using List.reverseRecOn with
  | nil => rfl
  | append_singleton before statement ih =>
      have orderly := orderly_drafts 0 [] orderly_start before
      rw [add_drafts_append]
      have names : (addDrafts 0 [] before).map (·.table.name) =
          (createdNames before).eraseDups := by
        rw [← bare_table_names, ← ih, tableNames, List.map_map]
        rfl
      cases statement with
      | createTable name clauses hasBody =>
          simp only [addDrafts, addDraft]
          rw [register_eq _ _ orderly.names, bare_tables_create, names]
          simp only [bareTable, List.mem_eraseDups]
          split
          · rw [← ih, List.map_map, List.map_map]
            exact List.map_congr_left fun old _ => apply_ite Draft.table _ _ _
          · rw [List.map_append, ih]
            rfl
      | alterTable table actions => rw [bare_tables_other before _ rfl, ← ih]; rfl
      | ignored statement => rw [bare_tables_other before _ rfl, ← ih]; rfl

/-- The numbers and names of drafts, which binding does not change. -/
def keysOf (drafts : List Draft) : List (Nat × String) :=
  drafts.map fun draft => (draft.number, draft.table.name)

theorem mem_keysOf (drafts : List Draft) (number : Nat) (name : String) :
    (number, name) ∈ keysOf drafts ↔
      ∃ draft ∈ drafts, draft.number = number ∧ draft.table.name = name := by
  simp [keysOf]

theorem gone_stays_gone (number next : Nat) (older : number < next) (drafts : List Draft)
    (orderly : Orderly next drafts) (gone : ∀ draft ∈ drafts, draft.number ≠ number)
    (statements : List Statement) :
    ∀ draft ∈ addDrafts next drafts statements, draft.number ≠ number := by
  induction statements generalizing next drafts with
  | nil => exact gone
  | cons statement rest ih =>
      apply ih (next + 1) (Nat.lt_succ_of_lt older) _ (orderly_draft next drafts orderly statement)
      cases statement with
      | createTable name clauses hasBody =>
          intro draft member
          rcases (mem_register _ draft drafts orderly.names).mp member with rfl | ⟨old, _⟩
          · exact Nat.ne_of_gt older
          · exact gone draft old
      | alterTable table actions => exact gone
      | ignored statement => exact gone

/-- A definition stays until a table of its name is made again. -/
theorem still_there (number next : Nat) (older : number < next) (name : String)
    (drafts : List Draft) (orderly : Orderly next drafts) (there : (number, name) ∈ keysOf drafts)
    (statements : List Statement) (other : String) :
    (number, other) ∈ keysOf (addDrafts next drafts statements) ↔
      other = name ∧ name ∉ createdNames statements := by
  induction statements generalizing next drafts with
  | nil =>
      simp only [addDrafts, created_names_nil, List.not_mem_nil, not_false_eq_true, and_true]
      constructor
      · intro member
        obtain ⟨a, aMember, aNumber, rfl⟩ := (mem_keysOf _ _ _).mp member
        obtain ⟨b, bMember, bNumber, rfl⟩ := (mem_keysOf _ _ _).mp there
        exact orderly.apart a aMember b bMember (aNumber.trans bNumber.symm)
      · rintro rfl
        exact there
  | cons statement rest ih =>
      have next' := orderly_draft next drafts orderly statement
      have older' := Nat.lt_succ_of_lt older
      obtain ⟨draft, member, rfl, rfl⟩ := (mem_keysOf _ _ _).mp there
      cases statement with
      | createTable created clauses hasBody =>
          by_cases same : draft.table.name = created
          · have gone : ∀ kept ∈ addDraft next drafts (.createTable created clauses hasBody),
                kept.number ≠ draft.number := by
              intro kept keptMember equal
              rcases (mem_register _ kept drafts orderly.names).mp keptMember with rfl | ⟨old, apart⟩
              · exact absurd equal (Nat.ne_of_gt older)
              · exact apart ((orderly.apart kept old draft member equal).trans same)
            have absent := gone_stays_gone draft.number (next + 1) older' _ next' gone rest
            simp only [addDrafts, created_names_create, same, List.mem_cons, true_or, not_true_eq_false,
              and_false, iff_false]
            intro present
            obtain ⟨kept, keptMember, equal, _⟩ := (mem_keysOf _ _ _).mp present
            exact absent kept keptMember equal
          · have kept : (draft.number, draft.table.name) ∈
                keysOf (addDraft next drafts (.createTable created clauses hasBody)) :=
              (mem_keysOf _ _ _).mpr ⟨draft, (mem_register _ draft drafts orderly.names).mpr
                (Or.inr ⟨member, same⟩), rfl, rfl⟩
            simpa [addDrafts, same] using ih (next + 1) older' _ next' kept
      | alterTable table actions => exact ih (next + 1) older' _ next' there
      | ignored statement => exact ih (next + 1) older' _ next' there

/-- The table that a waiting constraint is bound to, if there is one. -/
def heir? (keys : List (Nat × String)) (pending : Pending) : Option (String × Constraint) :=
  match pending.owner with
  | some number => (keys.find? (·.1 == number)).map fun key => (key.2, pending.constraint)
  | none => some (pending.table, pending.constraint)

theorem heir_of_owner (keys : List (Nat × String)) (number : Nat) (name : String) (stays : Prop)
    [Decidable stays] (there : ∀ other, (number, other) ∈ keys ↔ other = name ∧ stays)
    (written : String) (constraint : Constraint) :
    heir? keys ⟨some number, written, constraint⟩ =
      if stays then some (name, constraint) else none := by
  simp only [heir?]
  cases found : keys.find? (·.1 == number) with
  | some key =>
      obtain ⟨owner, other⟩ := key
      have same : owner = number := by simpa using List.find?_some found
      obtain ⟨rfl, holds⟩ := (there other).mp (same ▸ List.mem_of_find?_eq_some found)
      simp [holds]
  | none =>
      have absent : ¬ stays := fun holds =>
        List.find?_eq_none.mp found (number, name) ((there name).mpr ⟨rfl, holds⟩) (by simp)
      simp [absent]

theorem heirs_eq_bindOrder (number : Nat) (drafts : List Draft) (orderly : Orderly number drafts)
    (statements : List Statement) :
    (waitingFrom number statements).filterMap (heir? (keysOf (addDrafts number drafts statements))) =
      bindOrder statements := by
  induction statements generalizing number drafts with
  | nil => rfl
  | cons statement rest ih =>
      have next := orderly_draft number drafts orderly statement
      simp only [waitingFrom, addDrafts, List.filterMap_append, ih (number + 1) _ next]
      cases statement with
      | createTable name clauses hasBody =>
          have made : (number, name) ∈ keysOf (addDraft number drafts (.createTable name clauses hasBody)) :=
            (mem_keysOf _ _ _).mpr ⟨⟨number, bareTable name clauses⟩,
              (mem_register _ _ drafts orderly.names).mpr (Or.inl rfl), rfl, rfl⟩
          have there := still_there number (number + 1) (Nat.lt_succ_self number) name _ next made rest
          simp only [waiting, bindOrder, List.filterMap_map, Function.comp_def,
            heir_of_owner _ number name _ there]
          split
          case isTrue again => simp
          case isFalse last => simp [last]
      | alterTable table actions => simp [waiting, bindOrder, heir?, Function.comp_def]
      | ignored statement => rfl

/-- Binding to the draft with a key, where the key tells the drafts apart as their names do. -/
theorem bind_draft_eq (isIt : Draft → Bool) (name written : String) (constraint : Constraint)
    (linking : Linking) (names : (linking.drafts.map (·.table.name)).Nodup)
    (distinct : ∀ draft ∈ linking.drafts, draft.table.Distinct)
    (keyed : ∀ draft ∈ linking.drafts, isIt draft = true ↔ draft.table.name = name) :
    (bindDraft isIt written constraint linking).drafts = linking.drafts.map fun draft =>
      if draft.table.name = name then
        { draft with table := draft.table.mapColumns (boundColumn linking.tables draft.table constraint) }
      else draft := by
  unfold bindDraft
  split
  case h_1 absent =>
    have others : ∀ draft ∈ linking.drafts, draft.table.name ≠ name := fun draft member same =>
      List.find?_eq_none.mp absent draft member ((keyed draft member).mpr same)
    refine (List.map_id _).symm.trans (List.map_congr_left fun draft member => ?_)
    simp [others draft member]
  case h_2 found present =>
    have member := List.mem_of_find?_eq_some present
    have same := (keyed found member).mp (List.find?_some present)
    simp only [Linking.note]
    rw [change_first_keyed (fun draft : Draft => draft.table.name) isIt name _ linking.drafts keyed names]
    apply List.map_congr_left
    intro draft draftMember
    split
    case isTrue equal =>
      have : draft = found := List.inj_on_of_nodup_map names draftMember member (equal.trans same.symm)
      rw [bind_eq_map _ _ _ _ (distinct found member), this]
    case isFalse => rfl

theorem bind_draft_tables (isIt : Draft → Bool) (name written : String) (constraint : Constraint)
    (linking : Linking) (names : (linking.drafts.map (·.table.name)).Nodup)
    (distinct : ∀ draft ∈ linking.drafts, draft.table.Distinct)
    (keyed : ∀ draft ∈ linking.drafts, isIt draft = true ↔ draft.table.name = name) :
    (bindDraft isIt written constraint linking).tables = bindTo linking.tables (name, constraint) ∧
    keysOf (bindDraft isIt written constraint linking).drafts = keysOf linking.drafts := by
  have drafts := bind_draft_eq isIt name written constraint linking names distinct keyed
  constructor
  · rw [Linking.tables, drafts, bindTo, List.map_map]
    simp only [Linking.tables, List.map_map]
    apply List.map_congr_left
    intro draft _
    simp only [Function.comp_apply]
    split <;> rfl
  · rw [drafts, keysOf, keysOf, List.map_map]
    apply List.map_congr_left
    intro draft _
    simp only [Function.comp_apply]
    split <;> rfl

theorem orderly_bound (next : Nat) (linking : Linking) (orderly : Orderly next linking.drafts)
    (bound : Linking) (item : String × Constraint)
    (tables : bound.tables = bindTo linking.tables item)
    (keys : keysOf bound.drafts = keysOf linking.drafts) : Orderly next bound.drafts := by
  have same : ∀ draft ∈ bound.drafts, ∃ old ∈ linking.drafts,
      old.number = draft.number ∧ old.table.name = draft.table.name := by
    intro draft member
    rw [← mem_keysOf, ← keys]
    exact (mem_keysOf _ _ _).mpr ⟨draft, member, rfl, rfl⟩
  refine ⟨?_, ?_, ?_, ?_⟩
  · have names := congrArg (List.map Prod.snd) keys
    simp only [keysOf, List.map_map, Function.comp_def] at names
    rw [names]
    exact orderly.names
  · intro a aMember b bMember equal
    obtain ⟨oldA, oldMemberA, numberA, nameA⟩ := same a aMember
    obtain ⟨oldB, oldMemberB, numberB, nameB⟩ := same b bMember
    rw [← nameA, ← nameB]
    exact orderly.apart oldA oldMemberA oldB oldMemberB (by rw [numberA, numberB, equal])
  · intro draft member
    obtain ⟨old, oldMember, number, _⟩ := same draft member
    exact number ▸ orderly.earlier old oldMember
  · intro draft member
    refine bind_to_distinct linking.tables item ?_ draft.table ?_
    · intro table tableMember
      obtain ⟨old, oldMember, rfl⟩ := List.mem_map.mp tableMember
      exact orderly.distinct old oldMember
    · rw [← tables]
      exact List.mem_map_of_mem member

theorem bind_pending (next : Nat) (linking : Linking) (orderly : Orderly next linking.drafts)
    (pending : Pending) :
    (bindPending linking pending).tables =
      (heir? (keysOf linking.drafts) pending).elim linking.tables (bindTo linking.tables) ∧
    keysOf (bindPending linking pending).drafts = keysOf linking.drafts ∧
    Orderly next (bindPending linking pending).drafts := by
  obtain ⟨owner, written, constraint⟩ := pending
  cases owner with
  | none =>
      obtain ⟨tables, keys⟩ := bind_draft_tables (hasName written) written written constraint linking
        orderly.names orderly.distinct fun draft _ => hasName_iff written draft
      exact ⟨tables, keys, orderly_bound next linking orderly _ _ tables keys⟩
  | some number =>
      cases found : (keysOf linking.drafts).find? (·.1 == number) with
      | none =>
          have absent : linking.drafts.find? (fun draft => draft.number == number) = none := by
            simpa [keysOf, List.find?_map, Function.comp_def] using found
          have same : bindPending linking ⟨some number, written, constraint⟩ =
              linking.note [unknownTable written] := by
            simp [bindPending, bindDraft, absent]
          rw [same]
          simp only [heir?, found, Option.map_none, Option.elim_none]
          exact ⟨rfl, rfl, orderly⟩
      | some key =>
          obtain ⟨owner, name⟩ := key
          have equal : owner = number := by simpa using List.find?_some found
          obtain ⟨draft, member, numbered, named⟩ :=
            (mem_keysOf _ _ _).mp (List.mem_of_find?_eq_some found)
          have keyed : ∀ other ∈ linking.drafts,
              (other.number == number) = true ↔ other.table.name = name := by
            intro other otherMember
            rw [beq_iff_eq]
            constructor
            · intro same
              rw [← named]
              exact orderly.apart other otherMember draft member (by rw [same, numbered, equal])
            · intro same
              have : other = draft :=
                List.inj_on_of_nodup_map orderly.names otherMember member (same.trans named.symm)
              rw [this, numbered, equal]
          obtain ⟨tables, keys⟩ := bind_draft_tables _ name written constraint linking
            orderly.names orderly.distinct keyed
          simp only [heir?, found, Option.map_some, Option.elim_some]
          exact ⟨tables, keys, orderly_bound next linking orderly _ _ tables keys⟩

theorem second_pass (next : Nat) (linking : Linking) (orderly : Orderly next linking.drafts)
    (pending : List Pending) :
    (pending.foldl bindPending linking).tables =
      (pending.filterMap (heir? (keysOf linking.drafts))).foldl bindTo linking.tables := by
  induction pending generalizing linking with
  | nil => rfl
  | cons first rest ih =>
      obtain ⟨tables, keys, orderly'⟩ := bind_pending next linking orderly first
      rw [List.foldl_cons, ih _ orderly', keys, tables, List.filterMap_cons]
      cases heir? (keysOf linking.drafts) first <;> rfl

/-- Deferred linking binds the constraints that count, in the order in which they are declared, to
the tables as they were made last. -/
theorem link_deferred (statements : List Statement) :
    (link .deferred statements).1 = ⟨(bindOrder statements).foldl bindTo (bareTables statements)⟩ := by
  obtain ⟨drafts, pending⟩ := first_pass 0 .start statements
  have orderly := orderly_drafts 0 [] orderly_start statements
  have bound := second_pass _ (addStatements .deferred 0 .start statements)
    (by rw [drafts]; exact orderly) (addStatements .deferred 0 .start statements).pending
  rw [pending, drafts] at bound
  simp only [Linking.start, List.nil_append] at bound
  rw [heirs_eq_bindOrder 0 [] orderly_start] at bound
  simp only [link, Linking.schema, finish, Schema.mk.injEq]
  rw [pending]
  simp only [Linking.start, List.nil_append]
  rw [bound, Linking.tables]
  simp only [Linking.start] at drafts
  rw [drafts, first_pass_tables]

end TableScript.Link
