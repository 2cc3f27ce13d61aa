import TableScript.Proofs.Reading.Cursor

/-!
Parts of statements, read with a cursor: words, groups in parentheses, names and lists of names.
-/

namespace TableScript

namespace CursorReader

open Token

def isAhead (offset : Nat) (accepts : Token → Bool) : CursorReader Bool := do
  match ← peek offset with
  | some token => return accepts token
  | none => return false

def acceptWord (words : List String) : CursorReader Bool := do
  match ← peek 0 with
  | some token =>
      if token.isOneOf words then
        let _ ← next
        return true
      else return false
  | none => return false

def standAhead : Nat → List String → CursorReader Bool
  | _, [] => return true
  | offset, word :: words => do
      match ← peek offset with
      | some token => if token.isWord word then standAhead (offset + 1) words else return false
      | none => return false

def advance : Nat → CursorReader Unit
  | 0 => return ()
  | count + 1 => do
      let _ ← next
      advance count

def acceptSequence (words : List String) : CursorReader Bool := do
  if ← standAhead 0 words then
    advance words.length
    return true
  else return false

theorem drop_none (tokens : List Token) (offset : Nat) (absent : tokens[offset]? = none) :
    tokens.drop offset = [] :=
  List.drop_eq_nil_of_le (List.getElem?_eq_none_iff.mp absent)

theorem drop_some (tokens : List Token) (offset : Nat) (token : Token)
    (found : tokens[offset]? = some token) :
    tokens.drop offset = token :: tokens.drop (offset + 1) :=
  List.drop_eq_getElem?_toList_append.trans (by simp [found])

theorem gives_isAhead (offset : Nat) (accepts : Token → Bool) (tokens : List Token) :
    Gives (isAhead offset accepts) tokens (startsWith accepts (tokens.drop offset)) tokens := by
  refine gives_bind (gives_peek offset tokens) ?_
  cases found : tokens[offset]? with
  | none =>
      rw [drop_none tokens offset found]
      exact gives_pure _ _
  | some token =>
      rw [drop_some tokens offset token found]
      exact gives_pure _ _

/-- The token that comes next. -/
theorem gives_isNext (accepts : Token → Bool) (tokens : List Token) :
    Gives (isAhead 0 accepts) tokens (startsWith accepts tokens) tokens :=
  gives_isAhead 0 accepts tokens

theorem gives_acceptWord (words : List String) (tokens : List Token) :
    Gives (acceptWord words) tokens (startsWith (·.isOneOf words) tokens)
      (if startsWith (·.isOneOf words) tokens then tokens.tail else tokens) := by
  refine gives_bind (gives_peek 0 tokens) ?_
  cases tokens with
  | nil => exact gives_pure _ _
  | cons token rest =>
      simp only [List.getElem?_cons_zero, startsWith]
      by_cases accepted : token.isOneOf words = true
      · simp only [accepted, if_true]
        exact gives_bind (gives_next token rest) (gives_pure _ _)
      · simp only [accepted]
        exact gives_pure _ _

theorem gives_acceptOne (word : String) (tokens : List Token) :
    Gives (acceptWord [word]) tokens (takeWord? word tokens).isSome
      ((takeWord? word tokens).getD tokens) := by
  have gives := gives_acceptWord [word] tokens
  cases tokens with
  | nil => exact gives
  | cons token rest =>
      simp only [startsWith, takeWord?, isWord, List.tail_cons] at gives ⊢
      by_cases found : token.isOneOf [word] = true <;> simpa [found] using gives

theorem gives_standAhead (offset : Nat) (words : List String) (tokens : List Token) :
    Gives (standAhead offset words) tokens (takeWords? words (tokens.drop offset)).isSome tokens := by
  induction words generalizing offset with
  | nil => exact gives_pure _ _
  | cons word words ih =>
      refine gives_bind (gives_peek offset tokens) ?_
      cases found : tokens[offset]? with
      | none =>
          rw [drop_none tokens offset found]
          exact gives_pure _ _
      | some token =>
          simp only [drop_some tokens offset token found, takeWords?, takeWord?]
          split
          case isTrue same => simpa using ih (offset + 1)
          case isFalse => exact gives_pure _ _

theorem gives_advance (tokens rest : List Token) : Gives (advance tokens.length) (tokens ++ rest) () rest := by
  induction tokens with
  | nil => exact gives_pure _ _
  | cons token tokens ih => exact gives_bind (gives_next token _) ih

theorem takeWords_append (words : List String) (tokens after : List Token)
    (taken : takeWords? words tokens = some after) :
    ∃ front, front.length = words.length ∧ tokens = front ++ after := by
  induction words generalizing tokens with
  | nil => exact ⟨[], rfl, Option.some.inj taken⟩
  | cons word words ih =>
      simp only [takeWords?, Option.bind_eq_some_iff] at taken
      obtain ⟨rest, first, others⟩ := taken
      cases tokens with
      | nil => cases first
      | cons token tokens =>
          simp only [takeWord?] at first
          split at first
          case isFalse => cases first
          cases first
          obtain ⟨front, count, same⟩ := ih rest others
          exact ⟨token :: front, by simp [count], by simp [same]⟩

theorem gives_acceptSequence (words : List String) (tokens : List Token) :
    Gives (acceptSequence words) tokens (takeWords? words tokens).isSome (skipWords words tokens) := by
  refine gives_bind (gives_standAhead 0 words tokens) ?_
  rw [List.drop_zero, skipWords]
  cases taken : takeWords? words tokens with
  | none => exact gives_pure _ _
  | some after =>
      obtain ⟨front, count, rfl⟩ := takeWords_append words tokens after taken
      rw [← count]
      exact gives_bind (gives_advance front after) (gives_pure _ _)

/-- One token of a group. In `depth` are counted the groups that are open, the outer one included. -/
def groupRound (depth : Nat) (inside : List Token) (token : Token) :
    (Nat × List Token) ⊕ Option (List Token) :=
  if token.isOpen then .inl (depth + 1, inside ++ [token])
  else if token.isClose then
    if depth - 1 = 0 then .inr (some inside) else .inl (depth - 1, inside ++ [token])
  else .inl (depth, inside ++ [token])

def groupStep : Nat × List Token → CursorReader ((Nat × List Token) ⊕ Option (List Token))
  | (depth, inside) => do
      if ← atEnd then return .inr none
      else
        let token ← next >>= need
        return groupRound depth inside token

/-- What is inside of a group, read up to the parenthesis that closes it. -/
def readGroup : CursorReader (Option (List Token)) := do
  let _ ← next
  loop groupStep (1, [])

theorem open_not_close (token : Token) (opens : token.isOpen = true) : token.isClose = false := by
  simp only [isOpen, isClose, isPunct, Bool.and_eq_true, beq_iff_eq] at opens ⊢
  simp [opens.2]

theorem gives_groupStep (depth : Nat) (inside : List Token) (token : Token) (rest : List Token) :
    Gives (groupStep (depth, inside)) (token :: rest) (groupRound depth inside token) rest :=
  gives_bind (gives_atEnd (token :: rest)) (gives_bind (gives_needed token rest) (gives_pure _ _))

theorem gives_groupLoop (tokens : List Token) (depth : Nat) (inside : List Token) :
    Gives (loop groupStep (depth + 1, inside)) tokens
      ((groupFrom depth tokens).map fun (found, _) => inside ++ found)
      ((groupFrom depth tokens).elim [] (·.2)) := by
  induction tokens generalizing depth inside with
  | nil => exact gives_done (gives_bind (gives_atEnd []) (gives_pure _ _))
  | cons token rest ih =>
      have step := gives_groupStep (depth + 1) inside token rest
      -- every round but the last one puts its token behind what is inside
      have again : ∀ inner, groupRound (depth + 1) inside token = .inl (inner + 1, inside ++ [token]) →
          Gives (loop groupStep (depth + 1, inside)) (token :: rest)
            ((groupFrom inner rest).map fun (found, _) => inside ++ token :: found)
            ((groupFrom inner rest).elim [] (·.2)) := by
        intro inner round
        rw [round] at step
        have rounds := gives_again step (Nat.lt_succ_self rest.length) (ih inner (inside ++ [token]))
        simpa using rounds
      by_cases opens : token.isOpen = true
      · have unclosed := open_not_close token opens
        have round : groupRound (depth + 1) inside token = .inl (depth + 2, inside ++ [token]) := by
          simp [groupRound, opens]
        simpa [groupFrom, opens, unclosed, Function.comp_def] using again (depth + 1) round
      · by_cases closes : token.isClose = true
        · cases depth with
          | zero =>
              have round : groupRound 1 inside token = .inr (some inside) := by
                simp [groupRound, opens, closes]
              rw [round] at step
              simpa [groupFrom, closes] using gives_done step
          | succ depth =>
              have round : groupRound (depth + 2) inside token = .inl (depth + 1, inside ++ [token]) := by
                simp [groupRound, opens, closes]
              simpa [groupFrom, opens, closes, Function.comp_def] using again depth round
        · have round : groupRound (depth + 1) inside token = .inl (depth + 1, inside ++ [token]) := by
            simp [groupRound, opens, closes]
          simpa [groupFrom, opens, closes, Function.comp_def] using again depth round

theorem gives_readGroup (tokens : List Token) (opens : startsWith isOpen tokens = true) :
    Gives readGroup tokens ((group? tokens).map (·.1)) ((group? tokens).elim [] (·.2)) := by
  cases tokens with
  | nil => cases opens
  | cons token rest =>
      have begins : token.isOpen = true := opens
      have inner : Gives readGroup (token :: rest) _ _ :=
        gives_bind (gives_next token rest) (gives_groupLoop rest 0 [])
      simpa [group?, begins] using inner

def nameStep (written : String) : CursorReader (String ⊕ String) := do
  if ← isAhead 0 (·.isPunct ".") then
    match ← peek 1 with
    | some token =>
        if token.isIdentifier then
          let _ ← next
          let part ← next >>= need
          return .inl part.value
        else return .inr written
    | none => return .inr written
  else return .inr written

/-- A name with perhaps further ones behind points, of which the last one counts. -/
def readName : CursorReader (Option String) := do
  match ← peek 0 with
  | some token =>
      if token.isIdentifier then
        let first ← next >>= need
        let written ← loop nameStep first.value
        return some (Identifier.clean written)
      else return none
  | none => return none

def readFullName : CursorReader (Option String) := do
  match ← readName with
  | some name => return if name == "" then none else some name
  | none => return none

theorem gives_nameLoop (written : String) (tokens : List Token) :
    Gives (loop nameStep written) tokens (lastPart written tokens).1 (lastPart written tokens).2 := by
  fun_induction lastPart written tokens with
  | case1 written dot token rest goes ih =>
      obtain ⟨point, name⟩ := Bool.and_eq_true_iff.mp goes
      have step : Gives (nameStep written) (dot :: token :: rest) (.inl token.value) rest := by
        refine gives_bind (gives_isNext (·.isPunct ".") _) ?_
        rw [show startsWith (·.isPunct ".") (dot :: token :: rest) = true from point, if_pos rfl]
        refine gives_bind (gives_peek 1 _) ?_
        simp only [List.getElem?_cons_succ, List.getElem?_cons_zero, name, if_true]
        exact gives_bind (gives_next dot _) (gives_bind (gives_needed token rest) (gives_pure _ _))
      exact gives_again step (Nat.lt_succ_of_lt (Nat.lt_succ_self _)) ih
  | case2 written dot token rest stops =>
      refine gives_done (gives_bind (gives_isNext (·.isPunct ".") _) ?_)
      split
      case isTrue point =>
        have other : token.isIdentifier = false := by
          have head : dot.isPunct "." = true := point
          simpa [head] using stops
        refine gives_bind (gives_peek 1 _) ?_
        simp only [List.getElem?_cons_succ, List.getElem?_cons_zero, other]
        exact gives_pure _ _
      case isFalse => exact gives_pure _ _
  | case3 written tokens short =>
      refine gives_done (gives_bind (gives_isNext (·.isPunct ".") _) ?_)
      split
      case isTrue point =>
        have alone : tokens[1]? = none := by
          match tokens, short with
          | [], _ => rfl
          | [_], _ => rfl
          | dot :: token :: rest, short => exact absurd rfl (short dot token rest)
        refine gives_bind (gives_peek 1 _) ?_
        rw [alone]
        exact gives_pure _ _
      case isFalse => exact gives_pure _ _

theorem gives_readName (tokens : List Token) :
    Gives readName tokens (Token.readName tokens).1 (Token.readName tokens).2 := by
  refine gives_bind (gives_peek 0 tokens) ?_
  cases tokens with
  | nil => exact gives_pure _ _
  | cons token rest =>
      simp only [List.getElem?_cons_zero, Token.readName]
      by_cases name : token.isIdentifier = true
      · simp only [name, if_true]
        exact gives_bind (gives_needed token rest)
          (gives_bind (gives_nameLoop token.value rest) (gives_pure _ _))
      · simp only [name]
        exact gives_pure _ _

theorem gives_readFullName (tokens : List Token) :
    Gives readFullName tokens (Token.readFullName tokens).1 (Token.readFullName tokens).2 := by
  refine gives_bind (gives_readName tokens) ?_
  cases found : Token.readName tokens with
  | mk name after =>
      cases name with
      | none =>
          simp only [Token.readFullName, found]
          exact gives_pure _ _
      | some name =>
          simp only [Token.readFullName, found]
          exact gives_pure _ _

/-- The names among the parts of a list, each of which is taken to have a first token. -/
def namesOf : List (List Token) → CursorReader (List String)
  | [] => return []
  | part :: parts => do
      let first ← need part.head?
      let names ← namesOf parts
      return if first.isIdentifier then Identifier.clean first.value :: names else names

def readNames : CursorReader (Option (List String)) := do
  if ← isAhead 0 isOpen then
    match ← readGroup with
    | some inside =>
        let names ← namesOf (splitTopLevel "," inside)
        return some names
    | none => return none
  else return none

def skipStep (accepts : Token → Bool) (_ : Unit) : CursorReader (Unit ⊕ Unit) := do
  if ← isAhead 0 accepts then
    let _ ← next
    return .inl ()
  else return .inr ()

def skipWhile (accepts : Token → Bool) : CursorReader Unit :=
  loop (skipStep accepts) ()

/-- The parts of a list are never empty. -/
theorem split_occupied (separator : String) (tokens : List Token) :
    ∀ part ∈ splitTopLevel separator tokens, part ≠ [] := by
  intro part member
  simpa using (List.mem_filter.mp member).2

theorem gives_namesOf (parts : List (List Token)) (occupied : ∀ part ∈ parts, part ≠ [])
    (tokens : List Token) : Gives (namesOf parts) tokens (parts.filterMap headName?) tokens := by
  induction parts with
  | nil => exact gives_pure _ _
  | cons part parts ih =>
      obtain ⟨head, others⟩ := List.forall_mem_cons.mp occupied
      cases part with
      | nil => exact absurd rfl head
      | cons first rest =>
          have value : ((first :: rest) :: parts).filterMap headName? =
              if first.isIdentifier then Identifier.clean first.value :: parts.filterMap headName?
              else parts.filterMap headName? := by
            cases name : first.isIdentifier <;> simp [headName?, name]
          rw [value]
          exact gives_bind (gives_need first tokens) (gives_bind (ih others) (gives_pure _ _))

theorem gives_readNames (tokens : List Token) :
    Gives readNames tokens (Token.readNames tokens).1 (Token.readNames tokens).2 := by
  refine gives_bind (gives_isNext isOpen tokens) ?_
  by_cases opens : startsWith isOpen tokens = true
  · simp only [Token.readNames, opens, if_true]
    refine gives_bind (gives_readGroup tokens opens) ?_
    cases group? tokens with
    | none => exact gives_pure _ _
    | some found =>
        exact gives_bind (gives_namesOf _ (split_occupied "," found.1) found.2) (gives_pure _ _)
  · simp only [Token.readNames, opens]
    exact gives_pure _ _

theorem gives_skipWhile (accepts : Token → Bool) (tokens : List Token) :
    Gives (skipWhile accepts) tokens () (tokens.dropWhile accepts) := by
  induction tokens with
  | nil => exact gives_done (gives_bind (gives_isNext accepts []) (gives_pure _ _))
  | cons token rest ih =>
      have ahead := gives_isNext accepts (token :: rest)
      by_cases accepted : accepts token = true
      · have goes : startsWith accepts (token :: rest) = true := accepted
        rw [goes] at ahead
        rw [List.dropWhile_cons_of_pos accepted]
        exact gives_again (gives_bind ahead (gives_bind (gives_next token rest) (gives_pure _ _)))
          (Nat.lt_succ_self rest.length) ih
      · have stops : startsWith accepts (token :: rest) = false := Bool.not_eq_true _ |>.mp accepted
        rw [stops] at ahead
        rw [List.dropWhile_cons_of_neg accepted]
        exact gives_done (gives_bind ahead (gives_pure _ _))

def readTarget : CursorReader (Option Target) := do
  match ← readFullName with
  | none => return none
  | some table =>
      if ← isAhead 0 isOpen then
        let columns ← readNames
        return some ⟨table, columns.getD []⟩
      else return some ⟨table, []⟩

theorem gives_readTarget (tokens : List Token) :
    Gives readTarget tokens (TableScript.readTarget tokens).1 (TableScript.readTarget tokens).2 := by
  refine gives_bind (gives_readFullName tokens) ?_
  cases found : Token.readFullName tokens with
  | mk name after =>
      cases name with
      | none =>
          simp only [TableScript.readTarget, found]
          exact gives_pure _ _
      | some table =>
          simp only [TableScript.readTarget, found]
          refine gives_bind (gives_isNext isOpen after) ?_
          by_cases opens : startsWith isOpen after = true
          · simp only [opens, if_true]
            exact gives_bind (gives_readNames after) (gives_pure _ _)
          · simp only [Token.readNames, opens]
            exact gives_pure _ _

end CursorReader
end TableScript
