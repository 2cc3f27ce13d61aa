import TableScript.Statement.Group

/-!
Groups in parentheses. Where the parentheses of a list of tokens pair up, a group around it ends
where it ends, and its commas outside of inner groups are where it is split.
-/

namespace TableScript.Token

def openMark : Token := ⟨.punct, "("⟩
def closeMark : Token := ⟨.punct, ")"⟩
def comma : Token := ⟨.punct, ","⟩

/-- A token that is no parenthesis. -/
def isFlat (token : Token) : Bool :=
  !token.isOpen && !token.isClose

/-- The parentheses of some tokens pair up. -/
inductive Balanced : List Token → Prop where
  | nil : Balanced []
  | flat {token : Token} {rest : List Token} (plain : token.isFlat = true) (tail : Balanced rest) :
      Balanced (token :: rest)
  | group {inside rest : List Token} (inner : Balanced inside) (tail : Balanced rest) :
      Balanced (openMark :: inside ++ closeMark :: rest)

/-- The parentheses of some tokens pair up, and every comma is between two of them. -/
inductive Whole : List Token → Prop where
  | nil : Whole []
  | flat {token : Token} {rest : List Token} (plain : token.isFlat = true)
      (other : token.isPunct "," = false) (tail : Whole rest) : Whole (token :: rest)
  | group {inside rest : List Token} (inner : Balanced inside) (tail : Whole rest) :
      Whole (openMark :: inside ++ closeMark :: rest)

theorem whole_balanced {tokens : List Token} (whole : Whole tokens) : Balanced tokens := by
  induction whole with
  | nil => exact .nil
  | flat plain _ _ ih => exact .flat plain ih
  | group inner _ ih => exact .group inner ih

theorem balanced_append {first second : List Token} (one : Balanced first) (two : Balanced second) :
    Balanced (first ++ second) := by
  induction one with
  | nil => exact two
  | flat plain _ ih => exact .flat plain ih
  | group inner _ _ ih =>
      rw [List.append_assoc, List.cons_append]
      exact .group inner ih

theorem whole_append {first second : List Token} (one : Whole first) (two : Whole second) :
    Whole (first ++ second) := by
  induction one with
  | nil => exact two
  | flat plain other _ ih => exact .flat plain other ih
  | group inner _ ih =>
      rw [List.append_assoc, List.cons_append]
      exact .group inner ih

theorem balanced_flat (tokens : List Token) (plain : ∀ token ∈ tokens, token.isFlat = true) :
    Balanced tokens := by
  induction tokens with
  | nil => exact .nil
  | cons token rest ih =>
      obtain ⟨head, others⟩ := List.forall_mem_cons.mp plain
      exact .flat head (ih others)

theorem flat_parts {token : Token} (plain : token.isFlat = true) :
    token.isOpen = false ∧ token.isClose = false := by
  simpa [isFlat] using plain

theorem groupFrom_balanced {inside : List Token} (balanced : Balanced inside) (depth : Nat)
    (rest : List Token) :
    groupFrom depth (inside ++ rest) =
      (groupFrom depth rest).map fun (found, after) => (inside ++ found, after) := by
  induction balanced generalizing depth rest with
  | nil => simp
  | flat plain _ ih =>
      obtain ⟨opened, closed⟩ := flat_parts plain
      simp [groupFrom, opened, closed, ih, Function.comp_def]
  | @group inside tail _ _ inner_ih tail_ih =>
      have opened : openMark.isOpen = true := rfl
      have unclosed : openMark.isClose = false := rfl
      have closed : closeMark.isClose = true := rfl
      have unopened : closeMark.isOpen = false := rfl
      simp [groupFrom, opened, unclosed, closed, unopened, inner_ih, tail_ih, Function.comp_def]

theorem groupFrom_closed {inside : List Token} (balanced : Balanced inside) (after : List Token) :
    groupFrom 0 (inside ++ closeMark :: after) = some (inside, after) := by
  have closed : closeMark.isClose = true := rfl
  simp [groupFrom_balanced balanced, groupFrom, closed]

theorem group_balanced {inside : List Token} (balanced : Balanced inside) (after : List Token) :
    group? (openMark :: (inside ++ closeMark :: after)) = some (inside, after) :=
  groupFrom_closed balanced after

theorem splitFrom_balanced {inside : List Token} (balanced : Balanced inside) (depth : Nat)
    (rest : List Token) :
    splitFrom "," (depth + 1) (inside ++ rest) =
      (inside ++ (splitFrom "," (depth + 1) rest).1, (splitFrom "," (depth + 1) rest).2) := by
  induction balanced generalizing depth rest with
  | nil => rfl
  | flat plain _ ih =>
      obtain ⟨opened, closed⟩ := flat_parts plain
      simp [splitFrom, opened, closed, ih]
  | @group inside tail _ _ inner_ih tail_ih =>
      have opened : openMark.isOpen = true := rfl
      have closed : closeMark.isClose = true := rfl
      have unopened : closeMark.isOpen = false := rfl
      simp [splitFrom, opened, closed, unopened, inner_ih, tail_ih]

theorem splitFrom_whole {part : List Token} (whole : Whole part) (rest : List Token) :
    splitFrom "," 0 (part ++ rest) =
      (part ++ (splitFrom "," 0 rest).1, (splitFrom "," 0 rest).2) := by
  induction whole generalizing rest with
  | nil => rfl
  | flat plain other _ ih =>
      obtain ⟨opened, closed⟩ := flat_parts plain
      simp [splitFrom, opened, closed, other, ih]
  | @group inside tail inner _ tail_ih =>
      have opened : openMark.isOpen = true := rfl
      have closed : closeMark.isClose = true := rfl
      have unopened : closeMark.isOpen = false := rfl
      simp [splitFrom, opened, closed, unopened, splitFrom_balanced inner, tail_ih]

/-- Parts with a comma before each of them but the first. -/
def listed : List (List Token) → List Token
  | [] => []
  | part :: parts => part ++ parts.flatMap (comma :: ·)

theorem splitFrom_listed (parts : List (List Token)) (whole : ∀ part ∈ parts, Whole part) :
    splitFrom "," 0 (parts.flatMap (comma :: ·)) = ([], parts) := by
  induction parts with
  | nil => rfl
  | cons part parts ih =>
      obtain ⟨head, others⟩ := List.forall_mem_cons.mp whole
      have unopened : comma.isOpen = false := rfl
      have unclosed : comma.isClose = false := rfl
      have separates : comma.isPunct "," = true := rfl
      simp [splitFrom, unopened, unclosed, separates, splitFrom_whole head, ih others]

theorem splitTopLevel_listed (parts : List (List Token)) (whole : ∀ part ∈ parts, Whole part)
    (occupied : ∀ part ∈ parts, part ≠ []) : splitTopLevel "," (listed parts) = parts := by
  cases parts with
  | nil => rfl
  | cons part parts =>
      obtain ⟨head, others⟩ := List.forall_mem_cons.mp whole
      have split : splitFrom "," 0 (listed (part :: parts)) = (part, parts) := by
        rw [listed, splitFrom_whole head, splitFrom_listed parts others, List.append_nil]
      rw [splitTopLevel, split]
      apply List.filter_eq_self.mpr
      intro found member
      simpa using occupied found member

theorem listed_balanced (parts : List (List Token)) (whole : ∀ part ∈ parts, Whole part) :
    Balanced (listed parts) := by
  cases parts with
  | nil => exact .nil
  | cons part parts =>
      obtain ⟨head, others⟩ := List.forall_mem_cons.mp whole
      apply balanced_append (whole_balanced head)
      induction parts with
      | nil => exact .nil
      | cons next parts ih =>
          obtain ⟨nextWhole, more⟩ := List.forall_mem_cons.mp others
          exact .flat rfl (balanced_append (whole_balanced nextWhole) (ih (by simp_all) more))

end TableScript.Token
