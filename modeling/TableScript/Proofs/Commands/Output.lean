import TableScript.Proofs.Commands.Looking
import TableScript.Proofs.Commands.Tree

/-!
What commands print and write. A command that has its schema prints the script of it, or writes its
document to the path that is asked for; a document that is read back from there is the schema that
the next command has.
-/

namespace TableScript.Command

/-- Work that comes to an end with a result, a session and a tree. -/
def Ends {α : Type} (work : Work (StateM FileTree) α) (session : Session) (tree : FileTree)
    (result : α) (last : Session) (after : FileTree) : Prop :=
  (work.run.run session).run tree = ((.ok result, last), after)

namespace Ends

variable {α β : Type} {session middle last : Session} {tree between after : FileTree}

theorem pure (a : α) : Ends (Pure.pure a) session tree a session tree :=
  rfl

theorem get : Ends MonadState.get session tree session session tree :=
  rfl

theorem say (text : String) :
    Ends (Command.say text) session tree () { session with stdout := session.stdout ++ text } tree :=
  rfl

theorem note (records : List Journal.Record) :
    Ends (Command.note records) session tree () (session.noting records) tree :=
  rfl

theorem bind {work : Work (StateM FileTree) α} {next : α → Work (StateM FileTree) β} {a : α} {b : β}
    (first : Ends work session tree a middle between)
    (second : Ends (next a) middle between b last after) :
    Ends (work >>= next) session tree b last after := by
  rw [Ends, ExceptT.run_bind, StateT.run_bind, StateT.run_bind, first]
  exact second

theorem stored {path : String} {action : StateM FileTree (Except StorageFault α)} {a : α}
    (done : action.run tree = (.ok a, after)) :
    Ends (Command.stored path action) session tree a session after := by
  have lifted : Ends (liftM action) session tree (Except.ok a) session after := by
    calc ((liftM action : Work (StateM FileTree) _).run.run session).run tree
        = ((.ok (action.run tree).1, session), (action.run tree).2) := rfl
      _ = _ := by rw [done]
  exact bind lifted (pure a)

end Ends

variable {tree : FileTree} {session : Session} {path : String}

theorem readParsed_ends {options : Options} {mode : Resolution} {text : String}
    (source : options.source = some path) (resolution : options.resolution = some mode)
    (stands : sourceText tree path = .ok text) :
    ∃ records, ∀ session, Ends (readParsed FileTree.storage options) session tree
      (parse mode text).1 (session.noting records) tree := by
  obtain ⟨records, runs⟩ := readSource_runs tree path text stands
  refine ⟨records ++ (parse mode text).2, fun session => ?_⟩
  have read : Ends (readSource FileTree.storage path) session tree text (session.noting records) tree :=
    runs session
  rw [readParsed, source, resolution, ← Session.noting_noting]
  refine (Ends.pure mode).bind ((Ends.pure path).bind (read.bind ?_))
  -- Left as it is, the schema would be computed to be compared.
  generalize parse mode text = parsed
  exact (Ends.note parsed.2).bind (Ends.pure parsed.1)

theorem readDocument_ends {bytes : List UInt8} {text : String} {document : Document}
    {schema : Schema Value Bool} (holds : FileTree.read tree path = .ok bytes)
    (decoded : Text.decode bytes = .ok text)
    (read : Document.read (Text.withLineFeeds text) = .ok document)
    (loaded : Schema.ofDocument document.value = .ok schema) :
    Ends (readDocument FileTree.storage path) session tree schema
      { session with standIns := document.standIns } tree := by
  have done : (FileTree.storage.read path).run tree = (.ok bytes, tree) := by
    rw [← holds]
    rfl
  refine (Ends.stored done).bind ?_
  simp only [decoded, read, loaded]
  rfl

section Output

variable {ν φ : Type} [OfText ν] [OfFlag φ] {options : Options} {schema : Schema ν φ}

/-- Without a path to write to, the script is printed. -/
theorem output_printed {script : String} (jsonOut : options.jsonOut = none)
    (sqlOut : options.sqlOut = none) (written : schema.script = .ok script) :
    Ends (output FileTree.storage options .script schema) session tree ()
      { session with stdout := session.stdout ++ script } tree := by
  simp only [output, jsonOut, sqlOut, wanted, Option.filter_none, scriptOf, written]
  rfl

theorem write_ends {names : List String} (file : FileTree.FilePath tree path names)
    (bytes : List UInt8) :
    Ends (stored path (FileTree.storage.write path bytes)) session tree () session
      (FileTree.put names bytes tree) := by
  apply Ends.stored
  simp only [FileTree.storage, StateT.run_bind, StateT.run_get, pure_bind, file.write bytes]
  rfl

theorem writeDocument_ends {names : List String} (file : FileTree.FilePath tree path names) :
    Ends (writeDocument FileTree.storage schema path) session tree ()
      { session with stdout := session.stdout ++ ("JSON schema saved to " ++ path ++ "\n") }
      (FileTree.put names (Text.encode (schema.toDocument.indented session.standIns)) tree) := by
  exact Ends.get.bind ((write_ends file _).bind (Ends.say _))

/-- The document is written to the path that is asked for. -/
theorem output_written {usual : Form} {names : List String} (jsonOut : options.jsonOut = some path)
    (sqlOut : options.sqlOut = none) (file : FileTree.FilePath tree path names) :
    Ends (output FileTree.storage options usual schema) session tree ()
      { session with stdout := session.stdout ++ ("JSON schema saved to " ++ path ++ "\n") }
      (FileTree.put names (Text.encode (schema.toDocument.indented session.standIns)) tree) := by
  have asked : wanted (some path) = some path := by simp [wanted, file.occupied]
  simp only [output, jsonOut, sqlOut, asked]
  exact (writeDocument_ends file).bind (Ends.pure ())

end Output

end TableScript.Command
