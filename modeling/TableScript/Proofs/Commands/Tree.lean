import TableScript.Command.FileTree

/-!
Files that are written into a tree and read from it. A file is read as what was written to it, and
nothing that was a directory stops being one, so every other path leads where it led before.
-/

namespace TableScript.Command.FileTree

variable {tree : FileTree} {names : List String}

theorem find_put (names : List String) (bytes : List UInt8) (tree : FileTree) :
    (put names bytes tree).find? (fun entry => entry.1 == names) = some (names, .file bytes) := by
  induction tree with
  | nil => simp [put]
  | cons entry tree ih =>
      by_cases same : entry.1 = names
      · simp [put, same]
      · simp [put, same, ih]

theorem find_put_other (names other : List String) (bytes : List UInt8) (tree : FileTree)
    (apart : other ≠ names) :
    (put names bytes tree).find? (fun entry => entry.1 == other) =
      tree.find? fun entry => entry.1 == other := by
  induction tree with
  | nil => simp [put, apart.symm]
  | cons entry tree ih =>
      by_cases same : entry.1 = names
      · simp [put, same, apart.symm]
      · simp [put, same, ih, List.find?_cons]

theorem any_put (names : List String) (bytes : List UInt8) (tree : FileTree)
    (holds : List String → Bool) (some_entry : tree.any (fun entry => holds entry.1) = true) :
    (put names bytes tree).any (fun entry => holds entry.1) = true := by
  induction tree with
  | nil => cases some_entry
  | cons entry tree ih =>
      by_cases same : entry.1 = names
      · simpa [put, same] using some_entry
      · rw [List.any_cons, Bool.or_eq_true] at some_entry
        simpa [put, same] using some_entry.imp_right ih

/-- A file that is written stands at its names. -/
theorem node_put (names : List String) (bytes : List UInt8) (tree : FileTree) (named : names ≠ []) :
    node? (put names bytes tree) names = some (.file bytes) := by
  simp [node?, named, find_put]

/-- What was a directory is one after a file is written elsewhere. -/
theorem directory_put (other : List String) (bytes : List UInt8)
    (free : node? tree names ≠ some .directory) (directory : node? tree other = some .directory) :
    node? (put names bytes tree) other = some .directory := by
  have apart : other ≠ names := fun same => free (same ▸ directory)
  unfold node? at directory ⊢
  split
  · rfl
  next occupied =>
    rw [if_neg occupied] at directory
    rw [find_put_other names other bytes tree apart]
    split at directory
    · exact directory
    · split at directory
      next inner =>
        exact if_pos (any_put names bytes tree (fun listed => other.isPrefixOf listed) inner)
      · cases directory

theorem kind_inside (tree : FileTree) (names : List String) :
    kindAt tree (.inside names) = .directory ↔ node? tree names = some .directory := by
  rw [kindAt]
  split <;> simp_all

theorem kind_put (place : Place) (bytes : List UInt8) (free : node? tree names ≠ some .directory)
    (directory : kindAt tree place = .directory) :
    kindAt (put names bytes tree) place = .directory := by
  cases place with
  | inside other =>
      rw [kind_inside] at directory ⊢
      exact directory_put other bytes free directory
  | outside other => exact directory
  | nullDevice => cases directory

/-- A path leads where it led before a file is written. -/
theorem follow_put (path : List String) (bytes : List UInt8) (place last : Place)
    (free : node? tree names ≠ some .directory) (leads : follow tree place path = .ok last) :
    follow (put names bytes tree) place path = .ok last := by
  induction path generalizing place with
  | nil => exact leads
  | cons name path ih =>
      rw [follow] at leads ⊢
      split at leads
      case h_1 => cases leads
      case h_2 => cases leads
      case h_3 => cases leads
      next directory =>
        simp only [kind_put place bytes free directory]
        cases stepped : step place name with
        | error fault =>
            rw [stepped] at leads
            cases leads
        | ok next =>
            rw [stepped] at leads
            exact ih next leads

theorem follow_slash (path : List String) (place last : Place)
    (leads : follow tree place (path ++ [""]) = .ok last) : kindAt tree last = .directory := by
  induction path generalizing place with
  | nil =>
      simp only [List.nil_append, follow, step, beq_self_eq_true, Bool.true_or, if_true] at leads
      split at leads
      case h_1 => cases leads
      case h_2 => cases leads
      case h_3 => cases leads
      next directory =>
        cases leads
        exact directory
  | cons name path ih =>
      rw [List.cons_append, follow] at leads
      split at leads
      case h_1 => cases leads
      case h_2 => cases leads
      case h_3 => cases leads
      next =>
        split at leads
        · cases leads
        next next _ => exact ih next leads

/-- A path that leads to some names of a tree where no directory stands. -/
structure FilePath (tree : FileTree) (path : String) (names : List String) : Prop where
  leads : place tree path = .ok (.inside names)
  free : node? tree names ≠ some .directory

namespace FilePath

variable {path : String}

theorem named (file : FilePath tree path names) : names ≠ [] := by
  rintro rfl
  exact file.free rfl

theorem fault (file : FilePath tree path names) : pathFault? path = none := by
  have leads := file.leads
  unfold place at leads
  split at leads
  · cases leads
  · assumption

theorem occupied (file : FilePath tree path names) : path ≠ "" := by
  rintro rfl
  have fault := file.fault
  simp [pathFault?] at fault

theorem follows (file : FilePath tree path names) :
    follow tree (start path) (splitPath path) = .ok (.inside names) := by
  have leads := file.leads
  rwa [place, file.fault] at leads

/-- Behind a slash only a directory can stand. -/
theorem ending (file : FilePath tree path names) : endsInSlash path = false := by
  cases slash : endsInSlash path with
  | false => rfl
  | true =>
      rw [endsInSlash, beq_iff_eq] at slash
      obtain ⟨front, chars⟩ := List.getLast?_eq_some_iff.mp slash
      have follows := file.follows
      rw [splitPath, chars, List.splitOn_append_cons_self, List.map_append] at follows
      exact absurd ((kind_inside tree names).mp (follow_slash _ _ _ follows)) file.free

/-- Writing to the path of a file succeeds. -/
theorem write (file : FilePath tree path names) (bytes : List UInt8) :
    FileTree.write tree path bytes = .ok (put names bytes tree) := by
  have kind : kindAt tree (.inside names) ≠ .directory := fun directory =>
    file.free ((kind_inside tree names).mp directory)
  have written : writeAt tree (.inside names) bytes = .ok (put names bytes tree) := by
    unfold writeAt
    split
    case h_1 directory => exact absurd directory kind
    case h_2 inner _ _ same _ =>
      cases same
      rfl
    case h_3 _ _ other _ => exact absurd rfl (other names)
  rw [FileTree.write, file.fault]
  simpa [file.ending, file.follows, Except.bind] using written

/-- A file is read as what was written to it. -/
theorem read (file : FilePath tree path names) (bytes : List UInt8) :
    FileTree.read (put names bytes tree) path = .ok bytes := by
  have again : place (put names bytes tree) path = .ok (.inside names) := by
    rw [place, file.fault]
    exact follow_put _ bytes _ _ file.free file.follows
  simp only [FileTree.read, again, Except.bind, bytesAt, node_put names bytes tree file.named]

end FilePath

end TableScript.Command.FileTree
