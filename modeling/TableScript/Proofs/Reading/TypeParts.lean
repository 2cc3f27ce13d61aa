import TableScript.Proofs.Reading.DataType
import TableScript.Proofs.RoundTrip.Groups

/-!
The parts of a data type. Behind its first name a type goes on part by part, and a part is taken
the same whatever stands behind it. So where all of some tokens are one type, they are so too
before any tokens that do not go on with it.
-/

namespace TableScript.Token

theorem isPunct_eq {token : Token} {value : String} (mark : token.isPunct value = true) :
    token = ⟨.punct, value⟩ := by
  obtain ⟨kind, text⟩ := token
  simp only [isPunct, Bool.and_eq_true, beq_iff_eq] at mark
  obtain ⟨rfl, rfl⟩ := mark
  rfl

/-- The parentheses of some tokens pair up, but for a number of them that only close. -/
def Closes : Nat → List Token → Prop
  | 0, tokens => Balanced tokens
  | depth + 1, tokens => ∃ inner outer,
      Balanced inner ∧ Closes depth outer ∧ tokens = inner ++ closeMark :: outer

theorem closes_behind {front : List Token} (balanced : Balanced front) (depth : Nat)
    (tokens : List Token) (closes : Closes depth tokens) : Closes depth (front ++ tokens) := by
  cases depth with
  | zero => exact balanced_append balanced closes
  | succ depth =>
      obtain ⟨inner, outer, paired, later, rfl⟩ := closes
      exact ⟨front ++ inner, outer, balanced_append balanced paired, later, by simp⟩

/-- One more token in front, if it closes nothing that is not open. -/
theorem closes_cons (token : Token) (depth : Nat) (rest : List Token)
    (goes : ¬ (token.isClose = true ∧ depth = 0))
    (closes : Closes (if token.isOpen then depth + 1 else if token.isClose then depth - 1 else depth)
      rest) : Closes depth (token :: rest) := by
  by_cases opens : token.isOpen = true
  · rw [if_pos opens] at closes
    obtain ⟨inner, outer, paired, later, rfl⟩ := closes
    rw [isPunct_eq opens]
    have group := closes_behind (.group paired .nil) depth outer later
    rwa [List.append_assoc, List.singleton_append] at group
  · rw [if_neg opens] at closes
    by_cases shuts : token.isClose = true
    · rw [if_pos shuts] at closes
      obtain ⟨outer, rfl⟩ : ∃ outer, depth = outer + 1 :=
        Nat.exists_eq_succ_of_ne_zero fun zero => goes ⟨shuts, zero⟩
      rw [isPunct_eq shuts]
      exact ⟨[], rest, .nil, closes, rfl⟩
    · rw [if_neg shuts] at closes
      have plain : token.isFlat = true := by simp [isFlat, opens, shuts]
      exact closes_behind (.flat plain .nil) depth rest closes

theorem groupFrom_closes (depth : Nat) (tokens inside after : List Token)
    (found : groupFrom depth tokens = some (inside, after)) : Closes depth inside := by
  induction tokens generalizing depth inside with
  | nil => cases found
  | cons token rest ih =>
      rw [groupFrom] at found
      split at found
      case isTrue ends =>
        cases found
        rw [ends.2]
        exact .nil
      case isFalse goes =>
        obtain ⟨⟨more, behind⟩, deeper, same⟩ := Option.map_eq_some_iff.mp found
        cases same
        exact closes_cons token depth more goes (ih _ more deeper)

/-- A group is balanced inside and closed by one mark. -/
theorem group_parts (tokens inside after : List Token)
    (found : groupFrom 0 tokens = some (inside, after)) :
    Balanced inside ∧ tokens = inside ++ closeMark :: after := by
  obtain ⟨closing, shuts, split⟩ := groupFrom_split 0 tokens inside after found
  rw [isPunct_eq shuts] at split
  exact ⟨groupFrom_closes 0 tokens inside after found, split⟩

def point : Token := ⟨.punct, "."⟩
def openBracket : Token := ⟨.punct, "["⟩
def closeBracket : Token := ⟨.punct, "]"⟩

/-- Tokens that a data type goes on with at once. -/
inductive TypePart : List Token → Prop where
  | group {inside : List Token} (balanced : Balanced inside) :
      TypePart (openMark :: inside ++ [closeMark])
  | dotted {name : Token} (identifier : name.isIdentifier = true) : TypePart [point, name]
  | brackets : TypePart [openBracket, closeBracket]
  | sized {number : Token} (counts : (number.kind == .number) = true) :
      TypePart [openBracket, number, closeBracket]
  | modifier {token : Token} (known : token.isModifier = true) : TypePart [token]
  | timeZone {first time zone : Token} (known : first.isOneOf ["WITH", "WITHOUT"] = true)
      (words : (time.isWord "TIME" && zone.isWord "ZONE") = true) : TypePart [first, time, zone]

theorem word_unmarked {token : Token} {words : List String} (known : token.isOneOf words = true)
    (value : String) : token.isPunct value = false := by
  have word : token.kind = .word := beq_iff_eq.mp (Bool.and_eq_true_iff.mp known).1
  rw [isPunct, word]
  rfl

theorem isOneOf_apart {token : Token} {words others : List String}
    (known : token.isOneOf words = true) (apart : ∀ word ∈ words, word ∉ others) :
    token.isOneOf others = false := by
  obtain ⟨_, member⟩ := Bool.and_eq_true_iff.mp known
  have other := apart token.upper (by simpa using member)
  simp [isOneOf, other]

/-- A token that is none of some words is none of fewer words. -/
theorem isOneOf_fewer (token : Token) (words fewer : List String)
    (free : token.isOneOf words = false) (part : ∀ word ∈ fewer, word ∈ words) :
    token.isOneOf fewer = false := by
  simp only [isOneOf, Bool.and_eq_false_iff, List.contains_eq_mem, decide_eq_false_iff_not] at free ⊢
  exact free.imp_right fun absent member => absent (part _ member)

theorem word_flat {token : Token} {words : List String} (known : token.isOneOf words = true) :
    token.isFlat = true := by
  simp [isFlat, isOpen, isClose, word_unmarked known]

theorem identifier_unmarked {token : Token} (identifier : token.isIdentifier = true) (value : String) :
    token.isPunct value = false := by
  simp only [isIdentifier, Bool.or_eq_true, beq_iff_eq] at identifier
  rcases identifier with word | quoted
  · simp [isPunct, word]
  · simp [isPunct, quoted]

theorem identifier_flat {token : Token} (identifier : token.isIdentifier = true) :
    token.isFlat = true := by
  simp [isFlat, isOpen, isClose, identifier_unmarked identifier]

theorem typeLength_group {inside : List Token} (balanced : Balanced inside) (rest : List Token) :
    typeLength 0 (openMark :: (inside ++ closeMark :: rest)) =
      inside.length + 2 + typeLength 0 rest := by
  have opened : openMark.isOpen = true := rfl
  have taken := typeLength_taken (inside ++ [closeMark]) rest
  rw [List.append_assoc, List.singleton_append, List.length_append, List.length_singleton] at taken
  simp only [typeLength, opened, if_true, groupFrom_closed balanced rest, taken]
  omega

/-- A part is taken as a whole, whatever stands behind it. -/
theorem typeLength_part {part : List Token} (isPart : TypePart part) (rest : List Token) :
    typeLength 0 (part ++ rest) = part.length + typeLength 0 rest := by
  cases isPart with
  | @group inside balanced =>
      have group := typeLength_group balanced rest
      simpa using group
  | @dotted name identifier =>
      have taken := typeLength_taken [name] rest
      simp [typeLength, point, isOpen, isPunct, startsWith, identifier] at taken ⊢
      omega
  | brackets =>
      have taken := typeLength_taken [closeBracket] rest
      simp [typeLength, openBracket, closeBracket, isOpen, isPunct, bracketLength] at taken ⊢
      omega
  | @sized number counts =>
      have taken : typeLength 2 (number :: closeBracket :: rest) = 2 + typeLength 0 rest :=
        typeLength_taken [number, closeBracket] rest
      have other : number.isPunct "]" = false := by simp [isPunct, beq_iff_eq.mp counts]
      have closes : startsWith (·.isPunct "]") (closeBracket :: rest) = true := rfl
      have length : bracketLength (number :: closeBracket :: rest) = some 2 := by
        rw [bracketLength, other, counts, closes]
        rfl
      have bracket : typeLength 0 (openBracket :: number :: closeBracket :: rest) =
          typeLength 2 (number :: closeBracket :: rest) + 1 := by
        simp [typeLength, openBracket, isOpen, isPunct, length]
      rw [List.cons_append, List.cons_append, List.cons_append, List.nil_append, bracket, taken]
      simp only [List.length_cons, List.length_nil]
      omega
  | @modifier token known =>
      have unmarked := word_unmarked known
      simp [typeLength, isOpen, unmarked, known]
      omega
  | @timeZone first time zone known words =>
      have taken : typeLength 2 (time :: zone :: rest) = 2 + typeLength 0 rest :=
        typeLength_taken [time, zone] rest
      have unmarked := word_unmarked known
      have other : first.isModifier = false := isOneOf_apart known (by decide)
      have zoned : isTimeZone (time :: zone :: rest) = true := words
      have later : typeLength 0 (first :: time :: zone :: rest) =
          typeLength 2 (time :: zone :: rest) + 1 := by
        simp [typeLength, isOpen, unmarked, other, known, zoned]
      rw [List.cons_append, List.cons_append, List.cons_append, List.nil_append, later, taken]
      simp only [List.length_cons, List.length_nil]
      omega

/-- A type ends, or goes on with a part. -/
theorem typeLength_cases (tokens : List Token) :
    typeLength 0 tokens = 0 ∨ ∃ part rest, TypePart part ∧ tokens = part ++ rest := by
  cases tokens with
  | nil => exact Or.inl rfl
  | cons token rest =>
      by_cases opens : token.isOpen = true
      · cases found : groupFrom 0 rest with
        | none => exact Or.inl (by simp [typeLength, opens, found])
        | some group =>
            obtain ⟨balanced, split⟩ := group_parts rest group.1 group.2 found
            refine Or.inr ⟨_, group.2, .group balanced, ?_⟩
            rw [split, isPunct_eq opens, List.append_assoc]
            rfl
      by_cases dotted : (token.isPunct "." && startsWith isIdentifier rest) = true
      · obtain ⟨mark, identifier⟩ := Bool.and_eq_true_iff.mp dotted
        cases rest with
        | nil => cases identifier
        | cons name rest => exact Or.inr ⟨_, rest, .dotted identifier, by rw [isPunct_eq mark]; rfl⟩
      by_cases bracket : token.isPunct "[" = true
      · have length := CursorReader.bracket_length token rest opens dotted bracket
        cases rest with
        | nil => exact Or.inl length
        | cons first rest =>
            by_cases shuts : first.isPunct "]" = true
            · refine Or.inr ⟨_, rest, .brackets, ?_⟩
              rw [isPunct_eq bracket, isPunct_eq shuts]
              rfl
            by_cases sized : (first.kind == .number && startsWith (·.isPunct "]") rest) = true
            · obtain ⟨counts, closes⟩ := Bool.and_eq_true_iff.mp sized
              cases rest with
              | nil => cases closes
              | cons closing rest =>
                  refine Or.inr ⟨_, rest, .sized counts, ?_⟩
                  rw [isPunct_eq bracket, isPunct_eq closes]
                  rfl
            · refine Or.inl (length.trans ?_)
              simp [bracketLength, shuts, sized]
      by_cases modifier : token.isModifier = true
      · exact Or.inr ⟨_, rest, .modifier modifier, rfl⟩
      by_cases zone : (token.isOneOf ["WITH", "WITHOUT"] && isTimeZone rest) = true
      · obtain ⟨known, words⟩ := Bool.and_eq_true_iff.mp zone
        cases rest with
        | nil => cases words
        | cons time rest =>
            cases rest with
            | nil => cases words
            | cons second rest => exact Or.inr ⟨_, rest, .timeZone known words, rfl⟩
      · exact Or.inl (by simp [typeLength, opens, dotted, bracket, modifier, zone])

/-- Tokens that go on with a data type up to their end. -/
inductive TypeRest : List Token → Prop where
  | nil : TypeRest []
  | part {part rest : List Token} (first : TypePart part) (later : TypeRest rest) :
      TypeRest (part ++ rest)

theorem typeLength_rest {tokens : List Token} (isRest : TypeRest tokens) (after : List Token) :
    typeLength 0 (tokens ++ after) = tokens.length + typeLength 0 after := by
  induction isRest with
  | nil => simp
  | part first later ih =>
      rw [List.append_assoc, typeLength_part first, ih, List.length_append, Nat.add_assoc]

theorem part_occupied {part : List Token} (isPart : TypePart part) : part ≠ [] := by
  cases isPart <;> simp

/-- The tokens that are counted go on with a type, and the ones behind them do not. -/
theorem type_split (tokens : List Token) :
    TypeRest (tokens.take (typeLength 0 tokens)) ∧ typeLength 0 (tokens.drop (typeLength 0 tokens)) = 0 := by
  induction count : tokens.length using Nat.strongRecOn generalizing tokens with
  | ind count ih =>
      rcases typeLength_cases tokens with ends | ⟨part, rest, isPart, rfl⟩
      · rw [ends]
        exact ⟨.nil, ends⟩
      · have occupied := List.length_pos_iff.mpr (part_occupied isPart)
        rw [List.length_append] at count
        obtain ⟨isRest, stops⟩ := ih rest.length (by omega) rest rfl
        rw [typeLength_part isPart, List.take_length_add_append, List.drop_length_add_append]
        exact ⟨.part isPart isRest, stops⟩

theorem typeLength_full (tokens : List Token) (full : tokens.length ≤ typeLength 0 tokens) :
    TypeRest tokens := by
  have isRest := (type_split tokens).1
  rwa [List.take_of_length_le full] at isRest

theorem part_whole {part : List Token} (isPart : TypePart part) : Whole part := by
  cases isPart with
  | group balanced => exact .group balanced .nil
  | dotted identifier =>
      exact .flat rfl rfl (.flat (identifier_flat identifier) (identifier_unmarked identifier ",") .nil)
  | brackets => exact .flat rfl rfl (.flat rfl rfl .nil)
  | @sized number counts =>
      have kind : number.kind = .number := beq_iff_eq.mp counts
      exact .flat rfl rfl (.flat (by simp [isFlat, isOpen, isClose, isPunct, kind])
        (by simp [isPunct, kind]) (.flat rfl rfl .nil))
  | modifier known => exact .flat (word_flat known) (word_unmarked known ",") .nil
  | timeZone known words =>
      obtain ⟨time, zone⟩ := Bool.and_eq_true_iff.mp words
      exact .flat (word_flat known) (word_unmarked known ",")
        (.flat (word_flat time) (word_unmarked time ",")
          (.flat (word_flat zone) (word_unmarked zone ",") .nil))

theorem rest_whole {tokens : List Token} (isRest : TypeRest tokens) : Whole tokens := by
  induction isRest with
  | nil => exact .nil
  | part first later ih => exact whole_append (part_whole first) ih

/-- Tokens are read as one data type if they are a name and parts of a type. -/
theorem type_parts_iff (first : Token) (rest : List Token) :
    readType (first :: rest) = (first :: rest, []) ↔ first.beginsType = true ∧ TypeRest rest := by
  rw [readType]
  constructor
  · intro read
    split at read
    case isTrue begins =>
      refine ⟨begins, typeLength_full rest ?_⟩
      exact List.drop_eq_nil_iff.mp (congrArg Prod.snd read)
    case isFalse => cases read
  · rintro ⟨begins, isRest⟩
    have length := typeLength_rest isRest []
    rw [List.append_nil, typeLength, Nat.add_zero] at length
    simp only [begins, if_true, length, List.take_length, List.drop_length]

/-- Tokens that are one data type are so before others, unless these go on with it. -/
theorem type_behind (first : Token) (rest after : List Token)
    (read : readType (first :: rest) = (first :: rest, [])) (ended : typeLength 0 after = 0) :
    readType (first :: rest ++ after) = (first :: rest, after) := by
  obtain ⟨begins, isRest⟩ := (type_parts_iff first rest).mp read
  have length : typeLength 0 (rest ++ after) = rest.length := by
    rw [typeLength_rest isRest, ended, Nat.add_zero]
  simp only [List.cons_append, readType, begins, if_true, length, List.take_left, List.drop_left]

theorem type_whole (tokens : List Token) (read : readType tokens = (tokens, [])) : Whole tokens := by
  cases tokens with
  | nil => exact .nil
  | cons first rest =>
      obtain ⟨begins, isRest⟩ := (type_parts_iff first rest).mp read
      have identifier := (Bool.and_eq_true_iff.mp begins).1
      exact .flat (identifier_flat identifier) (identifier_unmarked identifier ",") (rest_whole isRest)

end TableScript.Token
