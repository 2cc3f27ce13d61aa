import TableScript.Command.FileTree
import TableScript.Command.Run

/-!
Commands that look at files. Searching for scripts and reading them leaves a tree of files as it is;
what is found depends on the tree alone, and nothing is printed.
-/

namespace TableScript.Command

/-- An action that leaves the tree as it is. -/
def Quiet {α : Type} (action : StateM FileTree α) : Prop :=
  ∀ tree, (action.run tree).2 = tree

namespace Quiet

variable {α β : Type}

theorem pure (a : α) : Quiet (Pure.pure a) :=
  fun _ => rfl

theorem bind {action : StateM FileTree α} {next : α → StateM FileTree β} (first : Quiet action)
    (second : ∀ a, Quiet (next a)) : Quiet (action >>= next) := by
  intro tree
  have after := second (action.run tree).1 (action.run tree).2
  exact after.trans (first tree)

theorem mapM (items : List α) {action : α → StateM FileTree β} (each : ∀ item, Quiet (action item)) :
    Quiet (items.mapM action) := by
  induction items with
  | nil =>
      rw [List.mapM_nil]
      exact pure []
  | cons item items ih =>
      rw [List.mapM_cons]
      exact bind (each item) fun _ => bind ih fun _ => pure _

theorem kindOf (path : String) : Quiet (FileTree.storage.kindOf path) :=
  fun _ => rfl

theorem read (path : String) : Quiet (FileTree.storage.read path) :=
  fun _ => rfl

theorem entries (path : String) : Quiet (Search.entries FileTree.storage path) :=
  fun _ => rfl

end Quiet

namespace Search

theorem step_quiet (name path : String) : Quiet (step FileTree.storage name path) := by
  unfold step
  split
  · exact Quiet.bind (Quiet.entries path) fun _ =>
      Quiet.bind (Quiet.kindOf path) fun _ => Quiet.pure _
  · split
    · exact Quiet.bind (Quiet.entries path) fun _ => Quiet.pure _
    · exact Quiet.bind (Quiet.kindOf _) fun _ => Quiet.pure _

theorem walk_quiet (names paths : List String) : Quiet (walk FileTree.storage names paths) := by
  induction names generalizing paths with
  | nil => exact Quiet.pure paths
  | cons name names ih =>
      exact Quiet.bind (Quiet.mapM paths (step_quiet name)) fun next => ih next.flatten

theorem scriptPaths_quiet (path : String) : Quiet (scriptPaths FileTree.storage path) :=
  Quiet.bind (walk_quiet _ _) fun directories =>
    Quiet.bind (Quiet.mapM directories fun path =>
      Quiet.bind (Quiet.entries path) fun _ => Quiet.pure _) fun _ => Quiet.pure _

end Search

def Session.noting (session : Session) (records : List Journal.Record) : Session :=
  { session with records := session.records ++ records }

@[simp] theorem Session.noting_nothing (session : Session) : session.noting [] = session := by
  rw [Session.noting, List.append_nil]

theorem Session.noting_noting (session : Session) (records more : List Journal.Record) :
    (session.noting records).noting more = session.noting (records ++ more) := by
  simp only [Session.noting, List.append_assoc]

/-- Work with a result and records that depend on the tree alone, and with no other effect. -/
def Looks {α : Type} (work : Work (StateM FileTree) α) : Prop :=
  ∀ tree, ∃ result records, ∀ session,
    (work.run.run session).run tree = ((result, session.noting records), tree)

namespace Looks

variable {α β : Type}

theorem pure (a : α) : Looks (Pure.pure a) :=
  fun _ => ⟨.ok a, [], fun session => by rw [Session.noting_nothing]; rfl⟩

theorem throw (fault : Fault) : Looks (throw fault : Work (StateM FileTree) α) :=
  fun _ => ⟨.error fault, [], fun session => by rw [Session.noting_nothing]; rfl⟩

theorem note (records : List Journal.Record) : Looks (Command.note records) :=
  fun _ => ⟨.ok (), records, fun _ => rfl⟩

theorem lift {action : StateM FileTree α} (quiet : Quiet action) :
    Looks (liftM action : Work (StateM FileTree) α) := by
  intro tree
  refine ⟨.ok (action.run tree).1, [], fun session => ?_⟩
  have same : action.run tree = ((action.run tree).1, tree) := Prod.ext rfl (quiet tree)
  calc ((liftM action : Work (StateM FileTree) α).run.run session).run tree
      = ((.ok (action.run tree).1, session), (action.run tree).2) := rfl
    _ = ((.ok (action.run tree).1, session.noting []), tree) := by
      rw [same, Session.noting_nothing]

theorem bind {work : Work (StateM FileTree) α} {next : α → Work (StateM FileTree) β}
    (first : Looks work) (second : ∀ a, Looks (next a)) : Looks (work >>= next) := by
  intro tree
  obtain ⟨result, records, looked⟩ := first tree
  cases result with
  | error fault =>
      refine ⟨.error fault, records, fun session => ?_⟩
      rw [ExceptT.run_bind, StateT.run_bind, StateT.run_bind, looked session]
      rfl
  | ok a =>
      obtain ⟨last, more, after⟩ := second a tree
      refine ⟨last, records ++ more, fun session => ?_⟩
      rw [ExceptT.run_bind, StateT.run_bind, StateT.run_bind, looked session]
      have later := after (session.noting records)
      rw [Session.noting_noting] at later
      exact later

end Looks

theorem stored_looks {α : Type} (path : String) {action : StateM FileTree (Except StorageFault α)}
    (quiet : Quiet action) : Looks (stored path action) := by
  refine Looks.bind (Looks.lift quiet) fun found => ?_
  cases found with
  | ok a => exact Looks.pure a
  | error fault => exact Looks.throw (.storage path fault)

theorem readScript_looks (path : String) : Looks (readScript FileTree.storage path) :=
  Looks.bind (stored_looks path (Quiet.read path)) fun _ => Looks.pure _

theorem readScripts_looks (paths : List String) : Looks (readScripts FileTree.storage paths) := by
  induction paths with
  | nil => exact Looks.pure []
  | cons path paths ih =>
      exact Looks.bind (Looks.note _) fun _ => Looks.bind (readScript_looks path) fun _ =>
        Looks.bind ih fun _ => Looks.pure _

theorem readSource_looks (path : String) : Looks (readSource FileTree.storage path) := by
  refine Looks.bind (Looks.lift (Quiet.kindOf path)) fun kind => ?_
  cases kind with
  | file => exact readScript_looks path
  | device => exact Looks.throw _
  | missing => exact Looks.throw _
  | directory =>
      refine Looks.bind (Looks.lift (Search.scriptPaths_quiet path)) fun paths => ?_
      have rest : Looks (readScripts FileTree.storage paths >>= fun scripts =>
          pure (joinScripts scripts)) := Looks.bind (readScripts_looks paths) fun _ => Looks.pure _
      dsimp only
      split
      · exact Looks.bind (Looks.throw _) fun _ => rest
      · exact rest

/-- The script that a path stands for: that of a file, or those of all files below a directory. -/
def sourceText (tree : FileTree) (path : String) : Except Fault String :=
  (((readSource FileTree.storage path).run.run ⟨"", [], .none⟩).run tree).1.1


theorem readSource_runs (tree : FileTree) (path text : String) (stands : sourceText tree path = .ok text) :
    ∃ records, ∀ session, ((readSource FileTree.storage path).run.run session).run tree =
      ((.ok text, session.noting records), tree) := by
  obtain ⟨result, records, looked⟩ := readSource_looks path tree
  have same : result = .ok text := by
    rw [sourceText, looked] at stands
    exact stands
  exact ⟨records, fun session => same ▸ looked session⟩

end TableScript.Command
