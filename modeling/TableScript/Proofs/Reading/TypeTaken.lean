import TableScript.Proofs.Reading.Separated
import TableScript.Proofs.Reading.Unseen

/-!
What is taken for a data type. Wherever the cursor stands, reading a type takes the tokens from
there up to some place and leaves the cursor at that place; the parentheses of these tokens pair
up. A word that ends a type is among them only inside of parentheses, or as the name behind a
point.
-/

namespace TableScript

namespace Token

/-- A parenthesis before these tokens is never closed. -/
def Unclosed (tokens : List Token) : Prop :=
  ∀ inside after, Balanced inside → tokens ≠ inside ++ closeMark :: after

theorem unclosed_iff (tokens : List Token) : Unclosed tokens ↔ groupFrom 0 tokens = none := by
  constructor
  · intro unclosed
    cases found : groupFrom 0 tokens with
    | none => rfl
    | some group =>
        obtain ⟨balanced, split⟩ := group_parts tokens group.1 group.2 found
        exact absurd split (unclosed group.1 group.2 balanced)
  · rintro never inside after balanced rfl
    rw [groupFrom_closed balanced after] at never
    cases never

/-- Outside of parentheses, a word that ends a type stands only behind a point. -/
def KeywordsPointed (tokens : List Token) : Prop :=
  ∀ front word after, tokens = front ++ word :: after → depthBehind 0 front = 0 →
    word.isOneOf Keyword.columnConstraint = true → ∃ earlier, front = earlier ++ [point]

theorem pointed_none {tokens : List Token}
    (none : ∀ token ∈ tokens, token.isOneOf Keyword.columnConstraint = false) :
    KeywordsPointed tokens := by
  rintro front word after rfl _ known
  rw [none word (by simp)] at known
  cases known

theorem pointed_append {first second : List Token} (balanced : Balanced first)
    (one : KeywordsPointed first) (two : KeywordsPointed second) : KeywordsPointed (first ++ second) := by
  intro front word after same outside known
  rcases List.append_eq_append_iff.mp same with ⟨more, rfl, behind⟩ | ⟨more, rfl, behind⟩
  · rw [depthBehind_append, depth_balanced balanced] at outside
    obtain ⟨earlier, rfl⟩ := two more word after behind outside known
    exact ⟨first ++ earlier, (List.append_assoc _ _ _).symm⟩
  · cases more with
    | nil =>
        obtain ⟨earlier, empty⟩ := two [] word after (by simpa using behind.symm) rfl known
        exact absurd empty (by simp)
    | cons head more =>
        obtain ⟨rfl, _⟩ := List.cons.inj behind
        exact one front word more rfl outside known

theorem pointed_group {inside : List Token} (balanced : Balanced inside) :
    KeywordsPointed (openMark :: inside ++ [closeMark]) := by
  have marks : ∀ mark ∈ [openMark, closeMark], mark.isOneOf Keyword.columnConstraint = false := by decide
  intro front word after same outside known
  cases front with
  | nil =>
      obtain ⟨rfl, _⟩ := List.cons.inj same
      rw [marks openMark (by simp)] at known
      cases known
  | cons head front =>
      obtain ⟨rfl, within⟩ := List.cons.inj same
      change depthBehind 1 front = 0 at outside
      rcases List.append_eq_append_iff.mp within with ⟨more, rfl, behind⟩ | ⟨more, rfl, _⟩
      · cases more with
        | nil =>
            obtain ⟨rfl, _⟩ := List.cons.inj behind
            rw [marks closeMark (by simp)] at known
            cases known
        | cons _ more => cases more <;> cases behind
      · exact absurd outside (inside_deep balanced 0)

theorem pointed_part {part : List Token} (isPart : TypePart part) : KeywordsPointed part := by
  cases isPart with
  | group balanced => exact pointed_group balanced
  | @dotted name identifier =>
      intro front word after same _ known
      match front with
      | [] =>
          cases same
          cases known
      | [_] =>
          cases same
          exact ⟨[], rfl⟩
      | _ :: _ :: front => cases front <;> cases same
  | brackets => exact pointed_none (by decide)
  | @sized number counts =>
      have unlike : number.isOneOf Keyword.columnConstraint = false := by
        simp [isOneOf, beq_iff_eq.mp counts]
      have marks : ∀ mark ∈ [openBracket, closeBracket],
          mark.isOneOf Keyword.columnConstraint = false := by decide
      exact pointed_none (by simp [unlike, marks])
  | @modifier token known =>
      have unlike : token.isOneOf Keyword.columnConstraint = false := isOneOf_apart known (by decide)
      exact pointed_none (by simp [unlike])
  | @timeZone first time zone known words =>
      obtain ⟨isTime, isZone⟩ := Bool.and_eq_true_iff.mp words
      have one : first.isOneOf Keyword.columnConstraint = false := isOneOf_apart known (by decide)
      have two : time.isOneOf Keyword.columnConstraint = false := isOneOf_apart isTime (by decide)
      have three : zone.isOneOf Keyword.columnConstraint = false := isOneOf_apart isZone (by decide)
      exact pointed_none (by simp [one, two, three])

theorem pointed_rest {tokens : List Token} (isRest : TypeRest tokens) : KeywordsPointed tokens := by
  induction isRest with
  | nil => exact pointed_none (by simp)
  | part first _ ih => exact pointed_append (whole_balanced (part_whole first)) (pointed_part first) ih

/-- Tokens that are taken for the data type before others. -/
structure TypeTaken (tokens taken after : List Token) : Prop where
  contiguous : tokens = taken ++ after
  balanced : Balanced taken
  keywords : KeywordsPointed taken
  /-- There is a type if the first token is a name and no word that ends a type. -/
  begun : taken = [] ↔ startsWith beginsType tokens = false
  parts : ∀ first rest, taken = first :: rest → TypeRest rest
  /-- What a type goes on with is taken. -/
  complete : taken ≠ [] → ∀ part rest, TypePart part → after ≠ part ++ rest

theorem typeBefore_taken {taken after : List Token} (before : TypeBefore taken after) :
    TypeTaken (taken ++ after) taken after := by
  have balanced := type_balanced before
  cases before with
  | none other =>
      constructor
      case contiguous => rfl
      case balanced => exact balanced
      case keywords => exact pointed_none (by simp)
      case begun => simpa using other
      case parts => simp
      case complete => exact fun occupied => absurd rfl occupied
  | @some first rest after begins isRest stops =>
      constructor
      case contiguous => rfl
      case balanced => exact balanced
      case keywords =>
        obtain ⟨identifier, unlike⟩ := Bool.and_eq_true_iff.mp begins
        have head : KeywordsPointed [first] := pointed_none (by simpa using unlike)
        have flat : Balanced [first] := .flat (identifier_flat identifier) .nil
        exact pointed_append flat head (pointed_rest isRest)
      case begun => simp [startsWith, begins]
      case parts =>
        rintro _ _ ⟨⟩
        exact isRest
      case complete =>
        rintro _ part more isPart rfl
        rw [typeLength_part isPart] at stops
        exact part_occupied isPart (List.length_eq_zero_iff.mp (by omega))

end Token

namespace CursorReader

open Token

/-- Reading a data type takes tokens from the cursor on, puts the cursor right behind them, and
gives them as they stand. A parenthesis that is never closed is not taken: the cursor is put back in
front of it. -/
theorem type_taken (behind tokens : List Token) :
    (∃ taken after, TypeTaken tokens taken after ∧ Token.readType tokens = (taken, after) ∧
      CursorReader.readType ⟨behind, tokens⟩ = some (taken, ⟨taken.reverse ++ behind, after⟩)) ∧
    ∀ first front rest, first.beginsType = true → TypeRest front → Unclosed rest →
      tokens = first :: front ++ openMark :: rest →
      CursorReader.readType ⟨behind, tokens⟩ =
        some (first :: front, ⟨(first :: front).reverse ++ behind, openMark :: rest⟩) := by
  have reads : ∀ taken after, tokens = taken ++ after → TypeBefore taken after →
      TypeTaken tokens taken after ∧ Token.readType tokens = (taken, after) ∧
        CursorReader.readType ⟨behind, tokens⟩ = some (taken, ⟨taken.reverse ++ behind, after⟩) := by
    rintro taken after rfl before
    have listed := (readType_iff _ taken after).mpr ⟨rfl, before⟩
    obtain ⟨read, same, result⟩ := gives_readType (taken ++ after) behind
    rw [listed] at same result
    obtain rfl := (List.append_left_inj after).mp same
    exact ⟨typeBefore_taken before, listed, result⟩
  constructor
  · obtain ⟨same, before⟩ := (readType_iff tokens _ _).mp rfl
    exact ⟨_, _, reads _ _ same before⟩
  · intro first front rest begins isRest unclosed same
    have opens : openMark.isOpen = true := rfl
    have stops : typeLength 0 (openMark :: rest) = 0 := by
      simp [typeLength, opens, (unclosed_iff rest).mp unclosed]
    exact (reads _ _ same (.some begins isRest stops)).2.2

end CursorReader

end TableScript
