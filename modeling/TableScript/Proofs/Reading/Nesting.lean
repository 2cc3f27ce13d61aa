import TableScript.Proofs.Reading.TypeParts

/-!
How deep in parentheses a token stands, and the parts that a list of tokens has between the
separators that stand outside of all parentheses.
-/

namespace TableScript.Token

/-- How many parentheses are open behind a token, of `depth` before it. One that closes nothing
does not count. -/
def deepen (depth : Nat) (token : Token) : Nat :=
  if token.isOpen then depth + 1 else if token.isClose then depth - 1 else depth

def depthBehind (depth : Nat) (tokens : List Token) : Nat :=
  tokens.foldl deepen depth

@[simp] theorem depthBehind_nil (depth : Nat) : depthBehind depth [] = depth := rfl

@[simp] theorem depthBehind_cons (depth : Nat) (token : Token) (rest : List Token) :
    depthBehind depth (token :: rest) = depthBehind (deepen depth token) rest := rfl

theorem depthBehind_append (depth : Nat) (front rest : List Token) :
    depthBehind depth (front ++ rest) = depthBehind (depthBehind depth front) rest :=
  List.foldl_append

theorem deepen_flat {token : Token} (flat : token.isFlat = true) (depth : Nat) :
    deepen depth token = depth := by
  obtain ⟨unopened, unclosed⟩ := flat_parts flat
  simp [deepen, unopened, unclosed]

/-- Behind tokens whose parentheses pair up as many are open as before them. -/
theorem depth_balanced {tokens : List Token} (balanced : Balanced tokens) (depth : Nat) :
    depthBehind depth tokens = depth := by
  induction balanced generalizing depth with
  | nil => rfl
  | flat plain _ ih => rw [depthBehind_cons, deepen_flat plain, ih]
  | @group inside rest _ _ inner_ih rest_ih =>
      have opens : deepen depth openMark = depth + 1 := rfl
      have closes : deepen (depth + 1) closeMark = depth := rfl
      rw [List.cons_append, depthBehind_cons, opens, depthBehind_append, inner_ih, depthBehind_cons,
        closes, rest_ih]

/-- All tokens of a kind stand inside of parentheses, of which `depth` are open before. -/
def Enclosed (accepts : Token → Bool) (depth : Nat) (tokens : List Token) : Prop :=
  ∀ front token after, tokens = front ++ token :: after → accepts token = true →
    depthBehind depth front ≠ 0

theorem enclosed_cons (accepts : Token → Bool) (depth : Nat) (token : Token) (rest : List Token) :
    Enclosed accepts depth (token :: rest) ↔
      (accepts token = true → depth ≠ 0) ∧ Enclosed accepts (deepen depth token) rest := by
  constructor
  · intro enclosed
    constructor
    · exact enclosed [] token rest rfl
    · intro front other after same
      exact enclosed (token :: front) other after (by rw [same]; rfl)
  · rintro ⟨first, later⟩ front other after same
    cases front with
    | nil =>
        cases same
        exact first
    | cons head front =>
        cases same
        exact later front other after rfl

theorem enclosed_behind {accepts : Token → Bool} {depth : Nat} {front rest : List Token}
    (enclosed : Enclosed accepts depth (front ++ rest)) :
    Enclosed accepts (depthBehind depth front) rest := by
  intro inner token after same accepted
  have outside := enclosed (front ++ inner) token after (by rw [same, List.append_assoc]) accepted
  rwa [depthBehind_append] at outside

theorem enclosed_balanced {accepts : Token → Bool} {depth : Nat} {front rest : List Token}
    (balanced : Balanced front) (enclosed : Enclosed accepts depth (front ++ rest)) :
    Enclosed accepts depth rest := by
  have behind := enclosed_behind enclosed
  rwa [depth_balanced balanced] at behind

theorem enclosed_none {accepts : Token → Bool} {tokens : List Token}
    (none : ∀ token ∈ tokens, accepts token = false) (depth : Nat) : Enclosed accepts depth tokens := by
  rintro front token after rfl accepted
  rw [none token (by simp)] at accepted
  cases accepted

theorem group_iff (tokens inside after : List Token) :
    group? tokens = some (inside, after) ↔
      Balanced inside ∧ tokens = openMark :: (inside ++ closeMark :: after) := by
  constructor
  · intro found
    cases tokens with
    | nil => cases found
    | cons token rest =>
        rw [group?] at found
        split at found
        case isTrue opens =>
          obtain ⟨balanced, same⟩ := group_parts rest inside after found
          exact ⟨balanced, by rw [isPunct_eq opens, same]; rfl⟩
        case isFalse => cases found
  · rintro ⟨balanced, rfl⟩
    exact group_balanced balanced after

section Parts

variable (separator : String)

/-- The parts between the separators that stand outside of all parentheses. -/
inductive Divided : Nat → List Token → List (List Token) → Prop where
  | last {depth : Nat} {part : List Token} (enclosed : Enclosed (·.isPunct separator) depth part) :
      Divided depth part [part]
  | more {depth : Nat} {part rest : List Token} {mark : Token} {parts : List (List Token)}
      (enclosed : Enclosed (·.isPunct separator) depth part) (outside : depthBehind depth part = 0)
      (divides : mark.isPunct separator = true) (later : Divided 0 rest parts) :
      Divided depth (part ++ mark :: rest) (part :: parts)

/-- The parts that are not empty. -/
def Pieces (tokens : List Token) (pieces : List (List Token)) : Prop :=
  ∃ parts, Divided separator 0 tokens parts ∧ pieces = parts.filter fun part => !part.isEmpty

variable {separator}

theorem divided_cons {depth : Nat} {token : Token} {rest part : List Token} {parts : List (List Token)}
    (inside : token.isPunct separator = true → depth ≠ 0)
    (divided : Divided separator (deepen depth token) rest (part :: parts)) :
    Divided separator depth (token :: rest) ((token :: part) :: parts) := by
  cases divided with
  | last enclosed => exact .last ((enclosed_cons _ depth token rest).mpr ⟨inside, enclosed⟩)
  | more enclosed outside divides later =>
      exact .more ((enclosed_cons _ depth token part).mpr ⟨inside, enclosed⟩) outside divides later

variable (apart : separator ≠ "(" ∧ separator ≠ ")")

include apart

theorem separator_flat {mark : Token} (divides : mark.isPunct separator = true) : mark.isFlat = true := by
  rw [isPunct_eq divides]
  simp [isFlat, isOpen, isClose, isPunct, apart]

theorem splitFrom_cons (depth : Nat) (token : Token) (rest : List Token) :
    splitFrom separator depth (token :: rest) =
      if token.isPunct separator ∧ depth = 0 then
        ([], (splitFrom separator 0 rest).1 :: (splitFrom separator 0 rest).2)
      else
        (token :: (splitFrom separator (deepen depth token) rest).1,
          (splitFrom separator (deepen depth token) rest).2) := by
  by_cases divides : token.isPunct separator = true
  · obtain ⟨unopened, unclosed⟩ := flat_parts (separator_flat apart divides)
    by_cases outside : depth = 0
    · simp [splitFrom, unopened, unclosed, divides, outside]
    · simp [splitFrom, deepen, unopened, unclosed, divides, outside]
  · by_cases opens : token.isOpen = true
    · simp [splitFrom, deepen, opens, divides]
    · by_cases closes : token.isClose = true
      · simp [splitFrom, deepen, opens, closes, divides]
      · simp [splitFrom, deepen, opens, closes, divides]

theorem split_divided (depth : Nat) (tokens : List Token) :
    Divided separator depth tokens
      ((splitFrom separator depth tokens).1 :: (splitFrom separator depth tokens).2) := by
  induction tokens generalizing depth with
  | nil => exact .last (enclosed_none (by simp) depth)
  | cons token rest ih =>
      rw [splitFrom_cons apart]
      split
      case isTrue divides =>
        have empty : Enclosed (·.isPunct separator) depth [] := enclosed_none (by simp) depth
        exact .more empty divides.2 divides.1 (ih 0)
      case isFalse inside =>
        exact divided_cons (fun divides outside => inside ⟨divides, outside⟩) (ih (deepen depth token))

theorem split_enclosed (depth : Nat) (part rest : List Token)
    (enclosed : Enclosed (·.isPunct separator) depth part) :
    splitFrom separator depth (part ++ rest) =
      (part ++ (splitFrom separator (depthBehind depth part) rest).1,
        (splitFrom separator (depthBehind depth part) rest).2) := by
  induction part generalizing depth with
  | nil => rfl
  | cons token part ih =>
      obtain ⟨first, later⟩ := (enclosed_cons _ depth token part).mp enclosed
      rw [List.cons_append, splitFrom_cons apart, if_neg fun divides => first divides.1 divides.2,
        ih (deepen depth token) later]
      rfl

theorem divided_split {depth : Nat} {tokens : List Token} {parts : List (List Token)}
    (divided : Divided separator depth tokens parts) :
    (splitFrom separator depth tokens).1 :: (splitFrom separator depth tokens).2 = parts := by
  induction divided with
  | @last depth part enclosed =>
      have split := split_enclosed apart depth part [] enclosed
      rw [List.append_nil] at split
      simp [split, splitFrom]
  | @more depth part rest mark parts enclosed outside divides _ ih =>
      rw [split_enclosed apart depth part _ enclosed, outside, splitFrom_cons apart,
        if_pos ⟨divides, rfl⟩, ih]
      simp

/-- Splitting gives the parts that are not empty, and nothing else. -/
theorem pieces_iff (tokens : List Token) (pieces : List (List Token)) :
    splitTopLevel separator tokens = pieces ↔ Pieces separator tokens pieces := by
  constructor
  · rintro rfl
    exact ⟨_, split_divided apart 0 tokens, rfl⟩
  · rintro ⟨parts, divided, rfl⟩
    rw [splitTopLevel, ← divided_split apart divided]

end Parts

end TableScript.Token
