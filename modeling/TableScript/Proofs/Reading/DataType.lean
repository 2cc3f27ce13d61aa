import TableScript.Proofs.Reading.Parts

/-!
Data types, read with a cursor. Round by round the tokens that go on with a type are taken, which
are those that are counted where the type is read off a list.
-/

namespace TableScript

namespace Token

theorem typeLength_taken (taken : List Token) (rest : List Token) :
    typeLength taken.length (taken ++ rest) = taken.length + typeLength 0 rest := by
  induction taken with
  | nil => simp
  | cons token taken ih =>
      rw [List.length_cons, List.cons_append, typeLength, ih]
      omega

/-- A group ends with the parenthesis that closes it. -/
theorem groupFrom_split (depth : Nat) (tokens inside after : List Token)
    (found : groupFrom depth tokens = some (inside, after)) :
    ∃ closing, closing.isClose = true ∧ tokens = inside ++ closing :: after := by
  induction tokens generalizing depth inside with
  | nil => cases found
  | cons token rest ih =>
      rw [groupFrom] at found
      split at found
      case isTrue ends =>
        cases found
        exact ⟨token, ends.1, rfl⟩
      case isFalse =>
        obtain ⟨⟨more, behind⟩, deeper, same⟩ := Option.map_eq_some_iff.mp found
        cases same
        obtain ⟨closing, closes, split⟩ := ih _ more deeper
        exact ⟨closing, closes, by rw [split, List.cons_append]⟩

end Token

namespace CursorReader

open Token

/-- Takes tokens that are all relied on. -/
def take : Nat → CursorReader (List Token)
  | 0 => return []
  | count + 1 => do
      let token ← next >>= need
      let tokens ← take count
      return token :: tokens

/-- A group with its parentheses. -/
def readMarked : CursorReader (Option (List Token)) := do
  let opening ← peek 0 >>= need
  match ← readGroup with
  | some inside =>
      let closing ← last
      return some (opening :: inside ++ [closing])
  | none => return none

/-- Like `readMarked`, but where a group is never closed nothing is read. -/
def takeGroup : CursorReader (Option (List Token)) :=
  attempt readMarked

theorem gives_take (front rest : List Token) : Gives (take front.length) (front ++ rest) front rest := by
  induction front with
  | nil => exact gives_pure _ _
  | cons token front ih =>
      exact gives_bind (gives_needed token _) (gives_bind ih (gives_pure _ _))

theorem gives_takeGroup (opening : Token) (inside : List Token) (closing : Token)
    (after : List Token) (opens : opening.isOpen = true)
    (closed : groupFrom 0 (inside ++ closing :: after) = some (inside, after)) :
    Gives takeGroup (opening :: inside ++ closing :: after)
      (some (opening :: inside ++ [closing])) after := by
  have group := gives_readGroup (opening :: inside ++ closing :: after) opens
  simp only [List.cons_append, group?, opens, if_true, closed, Option.map_some, Option.elim_some] at group
  refine gives_attempt (gives_bind (gives_bind (gives_peek 0 _) (gives_need opening _)) ?_)
  exact gives_bind_last (opening :: inside) closing
    (fun closing => some (opening :: inside ++ [closing])) group rfl

theorem gives_takeGroup_unclosed (opening : Token) (rest : List Token) (opens : opening.isOpen = true)
    (unclosed : groupFrom 0 rest = none) :
    Gives takeGroup (opening :: rest) none (opening :: rest) := by
  have group := gives_readGroup (opening :: rest) opens
  simp only [group?, opens, if_true, unclosed, Option.map_none] at group
  refine gives_attempt_none (yields_bind (gives_bind (gives_peek 0 _) (gives_need opening _)) ?_)
  exact yields_bind group (gives_pure _ _).yields

-- An array suffix: empty brackets, or brackets with a number.
def bracketStep (taken : List Token) : CursorReader (List Token ⊕ List Token) := do
  if ← isAhead 1 (·.isPunct "]") then return .inl (taken ++ (← take 2))
  else if (← isAhead 1 (·.kind == .number)) && (← isAhead 2 (·.isPunct "]")) then
    return .inl (taken ++ (← take 3))
  else return .inr taken

/-- One round: the tokens so far with those that go on with the type, or else all there are. -/
def typeStep (taken : List Token) : CursorReader (List Token ⊕ List Token) := do
  match ← peek 0 with
  | none => return .inr taken
  | some token =>
      if token.isOpen then
        match ← takeGroup with
        | some group => return .inl (taken ++ group)
        | none => return .inr taken
      else if token.isPunct "." && (← isAhead 1 isIdentifier) then
        return .inl (taken ++ (← take 2))
      else if token.isPunct "[" then bracketStep taken
      else if token.isModifier then return .inl (taken ++ (← take 1))
      else if token.isOneOf ["WITH", "WITHOUT"] && (← isAhead 1 (·.isWord "TIME")) &&
          (← isAhead 2 (·.isWord "ZONE")) then
        return .inl (taken ++ (← take 3))
      else return .inr taken

def readType : CursorReader (List Token) := do
  match ← peek 0 with
  | none => return []
  | some token =>
      if token.beginsType then
        let first ← next >>= need
        loop typeStep [first]
      else return []

/-- A round either takes some more tokens, which are counted in the length of the type, or it ends
where nothing is counted any more. -/
structure GoesOn (taken tokens front rest : List Token) : Prop where
  occupied : front ≠ []
  split : tokens = front ++ rest
  length : typeLength 0 tokens = front.length + typeLength 0 rest
  step : Gives (typeStep taken) tokens (.inl (taken ++ front)) rest

structure Stops (taken tokens : List Token) : Prop where
  length : typeLength 0 tokens = 0
  step : Gives (typeStep taken) tokens (.inr taken) tokens

theorem group_round (taken : List Token) (opening : Token) (rest : List Token)
    (opens : opening.isOpen = true) :
    Stops taken (opening :: rest) ∨ ∃ front after, GoesOn taken (opening :: rest) front after := by
  cases found : groupFrom 0 rest with
  | none =>
      refine Or.inl ⟨by simp [typeLength, opens, found], gives_bind (gives_peek 0 _) ?_⟩
      simp only [List.getElem?_cons_zero, opens, if_true]
      exact gives_bind (gives_takeGroup_unclosed opening rest opens found) (gives_pure _ _)
  | some group =>
      obtain ⟨inside, after⟩ := group
      obtain ⟨closing, _, rfl⟩ := groupFrom_split 0 rest inside after found
      refine Or.inr ⟨opening :: inside ++ [closing], after, by simp, by simp, ?_, ?_⟩
      · have length := typeLength_taken (inside ++ [closing]) after
        rw [List.append_assoc, List.singleton_append, List.length_append, List.length_singleton] at length
        simp only [typeLength, opens, if_true, found, length, List.length_append, List.length_cons,
          List.length_nil]
        omega
      · refine gives_bind (gives_peek 0 _) ?_
        simp only [List.getElem?_cons_zero, opens, if_true]
        exact gives_bind (gives_takeGroup opening inside closing after opens found) (gives_pure _ _)

theorem gives_taken (taken front rest : List Token) :
    Gives (do return .inl (taken ++ (← take front.length)) : CursorReader (List Token ⊕ List Token))
      (front ++ rest) (.inl (taken ++ front)) rest :=
  gives_bind (gives_take front rest) (gives_pure _ _)

theorem time_zone_ahead (tokens : List Token) :
    isTimeZone tokens =
      (startsWith (·.isWord "TIME") tokens && startsWith (·.isWord "ZONE") (tokens.drop 1)) := by
  match tokens with
  | [] => rfl
  | [_] => simp [isTimeZone, startsWith]
  | _ :: _ :: _ => rfl

theorem bracket_ahead (tokens : List Token) :
    bracketLength tokens =
      if startsWith (·.isPunct "]") tokens then some 1
      else if startsWith (·.kind == .number) tokens && startsWith (·.isPunct "]") (tokens.drop 1) then some 2
      else none := by
  cases tokens <;> rfl

theorem bracket_length (token : Token) (rest : List Token) (unopened : ¬ token.isOpen = true)
    (unpointed : ¬ (token.isPunct "." && startsWith isIdentifier rest) = true)
    (bracket : token.isPunct "[" = true) :
    typeLength 0 (token :: rest) =
      (bracketLength rest).elim 0 fun length => typeLength length rest + 1 := by
  simp only [typeLength, unopened, unpointed, bracket, Bool.false_eq_true, if_false, if_true]
  cases bracketLength rest <;> rfl

theorem bracket_round (taken : List Token) (token : Token) (rest : List Token)
    (unopened : ¬ token.isOpen = true)
    (unpointed : ¬ (token.isPunct "." && startsWith isIdentifier rest) = true)
    (bracket : token.isPunct "[" = true) :
    Stops taken (token :: rest) ∨ ∃ front after, GoesOn taken (token :: rest) front after := by
  have length := bracket_length token rest unopened unpointed bracket
  have step : ∀ {value after}, Gives (bracketStep taken) (token :: rest) value after →
      Gives (typeStep taken) (token :: rest) value after := by
    intro value after gives
    refine gives_bind (gives_peek 0 _) ?_
    simp only [List.getElem?_cons_zero, unopened]
    refine gives_bind (gives_isAhead 1 isIdentifier _) ?_
    simpa only [List.drop_succ_cons, List.drop_zero, unpointed, bracket, Bool.false_eq_true, if_false,
      if_true] using gives
  have first := gives_isAhead 1 (·.isPunct "]") (token :: rest)
  have second := gives_isAhead 1 (·.kind == .number) (token :: rest)
  have third := gives_isAhead 2 (·.isPunct "]") (token :: rest)
  simp only [List.drop_succ_cons, List.drop_zero] at first second third
  rw [bracket_ahead] at length
  by_cases empty : startsWith (·.isPunct "]") rest = true
  · rw [empty] at first
    rw [if_pos empty, Option.elim_some] at length
    match rest, empty with
    | closing :: after, _ =>
        refine Or.inr ⟨[token, closing], after, by simp, rfl, ?_, step (gives_bind first ?_)⟩
        · exact length.trans (congrArg (· + 1) (typeLength_taken [closing] after)) |>.trans
            (by simp only [List.length_cons, List.length_nil]; omega)
        · exact gives_taken taken [token, closing] after
  rw [if_neg empty] at length
  rw [Bool.not_eq_true] at empty
  rw [empty] at first
  by_cases sized : (startsWith (·.kind == .number) rest && startsWith (·.isPunct "]") (rest.drop 1)) = true
  · rw [if_pos sized, Option.elim_some] at length
    obtain ⟨counts, closes⟩ := Bool.and_eq_true_iff.mp sized
    rw [counts] at second
    rw [closes] at third
    match rest, closes with
    | number :: closing :: after, _ =>
        refine Or.inr ⟨[token, number, closing], after, by simp, rfl, ?_, step (gives_bind first ?_)⟩
        · exact length.trans (congrArg (· + 1) (typeLength_taken [number, closing] after)) |>.trans
            (by simp only [List.length_cons, List.length_nil]; omega)
        · exact gives_bind second (gives_bind third (gives_taken taken [token, number, closing] after))
  · rw [if_neg sized, Option.elim_none] at length
    refine Or.inl ⟨length, step (gives_bind first (gives_bind second (gives_bind third ?_)))⟩
    simp only [sized]
    exact gives_pure _ _

theorem type_round (taken tokens : List Token) :
    Stops taken tokens ∨ ∃ front rest, GoesOn taken tokens front rest := by
  cases tokens with
  | nil => exact Or.inl ⟨rfl, gives_bind (gives_peek 0 []) (gives_pure _ _)⟩
  | cons token rest =>
      by_cases opens : token.isOpen = true
      · exact group_round taken token rest opens
      by_cases point : (token.isPunct "." && startsWith isIdentifier rest) = true
      · obtain ⟨mark, part⟩ := Bool.and_eq_true_iff.mp point
        cases rest with
        | nil => cases part
        | cons name after =>
            refine Or.inr ⟨[token, name], after, by simp, rfl, ?_, ?_⟩
            · have length := typeLength_taken [name] after
              simp [typeLength, opens, point] at length ⊢
              omega
            · refine gives_bind (gives_peek 0 _) ?_
              simp only [List.getElem?_cons_zero, opens]
              refine gives_bind (gives_isAhead 1 isIdentifier _) ?_
              simp only [List.drop_succ_cons, List.drop_zero, point, if_true]
              exact gives_taken taken [token, name] after
      by_cases bracket : token.isPunct "[" = true
      · exact bracket_round taken token rest opens point bracket
      by_cases modifier : token.isModifier = true
      · refine Or.inr ⟨[token], rest, by simp, rfl, ?_, ?_⟩
        · simp [typeLength, opens, point, bracket, modifier, Nat.add_comm]
        · refine gives_bind (gives_peek 0 _) ?_
          simp only [List.getElem?_cons_zero, opens]
          refine gives_bind (gives_isAhead 1 isIdentifier _) ?_
          simp only [List.drop_succ_cons, List.drop_zero, point, bracket, modifier, if_true]
          exact gives_taken taken [token] rest
      by_cases zone : (token.isOneOf ["WITH", "WITHOUT"] && isTimeZone rest) = true
      · match rest with
        | [] => simp [isTimeZone] at zone
        | [_] => simp [isTimeZone] at zone
        | time :: second :: after =>
            refine Or.inr ⟨[token, time, second], after, by simp, rfl, ?_, ?_⟩
            · have length := typeLength_taken [time, second] after
              simp [typeLength, opens, point, bracket, modifier, zone] at length ⊢
              omega
            · refine gives_bind (gives_peek 0 _) ?_
              simp only [List.getElem?_cons_zero, opens]
              refine gives_bind (gives_isAhead 1 isIdentifier _) ?_
              simp only [List.drop_succ_cons, List.drop_zero, point, bracket, modifier]
              refine gives_bind (gives_isAhead 1 _ _) (gives_bind (gives_isAhead 2 _ _) ?_)
              rw [time_zone_ahead, ← Bool.and_assoc] at zone
              simp only [List.drop_succ_cons, List.drop_zero] at zone ⊢
              simp only [zone, if_true]
              exact gives_taken taken [token, time, second] after
      · refine Or.inl ⟨by simp [typeLength, opens, point, bracket, modifier, zone], ?_⟩
        refine gives_bind (gives_peek 0 _) ?_
        simp only [List.getElem?_cons_zero, opens]
        refine gives_bind (gives_isAhead 1 isIdentifier _) ?_
        simp only [List.drop_succ_cons, List.drop_zero, point, bracket, modifier]
        refine gives_bind (gives_isAhead 1 _ _) (gives_bind (gives_isAhead 2 _ _) ?_)
        rw [time_zone_ahead, ← Bool.and_assoc] at zone
        simp only [List.drop_succ_cons, List.drop_zero] at zone ⊢
        simp only [zone]
        exact gives_pure _ _

theorem gives_typeLoop (tokens taken : List Token) :
    Gives (loop typeStep taken) tokens (taken ++ tokens.take (typeLength 0 tokens))
      (tokens.drop (typeLength 0 tokens)) := by
  induction count : tokens.length using Nat.strongRecOn generalizing tokens taken with
  | ind count ih =>
      rcases type_round taken tokens with stops | ⟨front, rest, goes⟩
      · rw [stops.length, List.take_zero, List.append_nil, List.drop_zero]
        exact gives_done stops.step
      · have shorter : rest.length < tokens.length := by
          have occupied := List.length_pos_iff.mpr goes.occupied
          rw [goes.split, List.length_append]
          omega
        have later := gives_again goes.step shorter
          (ih rest.length (count ▸ shorter) rest (taken ++ front) rfl)
        rw [goes.length, goes.split, List.take_length_add_append, List.drop_length_add_append,
          ← List.append_assoc]
        rwa [goes.split] at later

/-- The data type is the one that is read off a list. -/
theorem gives_readType (tokens : List Token) :
    Gives readType tokens (Token.readType tokens).1 (Token.readType tokens).2 := by
  refine gives_bind (gives_peek 0 tokens) ?_
  cases tokens with
  | nil => exact gives_pure _ _
  | cons token rest =>
      simp only [List.getElem?_cons_zero, Token.readType]
      by_cases begins : token.beginsType = true
      · simp only [begins, if_true]
        exact gives_bind (gives_needed token rest) (gives_typeLoop rest [token])
      · simp only [begins]
        exact gives_pure _ _

end CursorReader

end TableScript
