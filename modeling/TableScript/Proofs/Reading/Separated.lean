import TableScript.Proofs.Reading.Nesting

/-!
What splitting a list of tokens comes to. Nothing is lost but the separators that stand outside of
all parentheses, and none of these is left in a part. Each part begins outside of all parentheses,
so the depth that is counted from there is the depth in the whole list; where the parentheses of
the list pair up, they do so in each part.
-/

namespace TableScript.Token

/-- How many parentheses are open behind a token, unless it closes one that is not open. -/
def pairUp (depth : Nat) (token : Token) : Option Nat :=
  if token.isClose ∧ depth = 0 then none else some (deepen depth token)

theorem pairUp_flat {token : Token} (flat : token.isFlat = true) (depth : Nat) :
    pairUp depth token = some depth := by
  rw [pairUp, if_neg (by simp [flat_parts flat]), deepen_flat flat]

theorem paired_balanced {tokens : List Token} (balanced : Balanced tokens) (depth : Nat) :
    tokens.foldlM pairUp depth = some depth := by
  induction balanced generalizing depth with
  | nil => rfl
  | flat plain _ ih =>
      rw [List.foldlM_cons, pairUp_flat plain]
      exact ih depth
  | @group inside rest _ _ inner_ih rest_ih =>
      have opens : pairUp depth openMark = some (depth + 1) := rfl
      have closes : pairUp (depth + 1) closeMark = some depth := rfl
      rw [List.cons_append, List.foldlM_cons, opens]
      change (inside ++ closeMark :: rest).foldlM pairUp (depth + 1) = some depth
      rw [List.foldlM_append, inner_ih]
      change (closeMark :: rest).foldlM pairUp (depth + 1) = some depth
      rw [List.foldlM_cons, closes]
      exact rest_ih depth

theorem paired_closes (depth : Nat) (tokens : List Token)
    (paired : tokens.foldlM pairUp depth = some 0) : Closes depth tokens := by
  induction tokens generalizing depth with
  | nil =>
      cases paired
      exact .nil
  | cons token rest ih =>
      rw [List.foldlM_cons, pairUp] at paired
      split at paired
      case isTrue => cases paired
      case isFalse goes => exact closes_cons token depth rest goes (ih _ paired)

/-- Parentheses pair up if none closes what is not open, and none is open in the end. -/
theorem balanced_iff (tokens : List Token) :
    Balanced tokens ↔ tokens.foldlM pairUp 0 = some 0 :=
  ⟨fun balanced => paired_balanced balanced 0, paired_closes 0 tokens⟩

/-- Where none closes what is not open, the count goes on in the same way from any depth. -/
theorem paired_depth (start more depth : Nat) (tokens : List Token)
    (paired : tokens.foldlM pairUp start = some depth) :
    depthBehind (start + more) tokens = depth + more := by
  induction tokens generalizing start with
  | nil =>
      cases paired
      rfl
  | cons token rest ih =>
      rw [List.foldlM_cons, pairUp] at paired
      split at paired
      case isTrue => cases paired
      case isFalse goes =>
        have deeper : deepen (start + more) token = deepen start token + more := by
          simp only [deepen]
          by_cases opens : token.isOpen = true
          · simp only [opens, if_true]
            omega
          · by_cases closes : token.isClose = true
            · have inside : start ≠ 0 := fun zero => goes ⟨closes, zero⟩
              simp only [opens, closes, if_true]
              simp only [Bool.false_eq_true, if_false]
              omega
            · simp only [opens, closes, Bool.false_eq_true, if_false]
        rw [depthBehind_cons, deeper]
        exact ih _ paired

/-- The front of tokens whose parentheses pair up. -/
theorem paired_front {front rest : List Token} (balanced : Balanced (front ++ rest)) :
    ∃ depth, front.foldlM pairUp 0 = some depth ∧ rest.foldlM pairUp depth = some 0 := by
  rw [balanced_iff, List.foldlM_append] at balanced
  exact Option.bind_eq_some_iff.mp balanced

/-- Where as many are open behind the front as before it, front and rest pair up on their own. -/
theorem balanced_halves {front rest : List Token} (balanced : Balanced (front ++ rest))
    (outside : depthBehind 0 front = 0) : Balanced front ∧ Balanced rest := by
  obtain ⟨depth, first, second⟩ := paired_front balanced
  have same : depthBehind 0 front = depth := paired_depth 0 0 depth front first
  obtain rfl := same.symm.trans outside
  exact ⟨(balanced_iff front).mpr first, (balanced_iff rest).mpr second⟩

/-- Inside of a group no token comes to stand outside of it. -/
theorem inside_deep {front rest : List Token} (balanced : Balanced (front ++ rest)) (depth : Nat) :
    depthBehind (depth + 1) front ≠ 0 := by
  obtain ⟨reached, first, _⟩ := paired_front balanced
  have deep := paired_depth 0 (depth + 1) reached front first
  rw [Nat.zero_add] at deep
  omega

theorem depthBehind_mono {less more : Nat} (deeper : less ≤ more) (tokens : List Token) :
    depthBehind less tokens ≤ depthBehind more tokens := by
  induction tokens generalizing less more with
  | nil => exact deeper
  | cons token rest ih =>
      refine ih ?_
      simp only [deepen]
      split
      · omega
      · split <;> omega

theorem enclosed_deeper {accepts : Token → Bool} {tokens : List Token}
    (enclosed : Enclosed accepts 0 tokens) (depth : Nat) : Enclosed accepts depth tokens := by
  intro front token after same accepted outside
  have deeper := depthBehind_mono (Nat.zero_le depth) front
  exact enclosed front token after same accepted (by omega)

/-- The tokens without the separators that stand outside of all parentheses, of which `depth` are
open before. -/
def withoutOuter (separator : String) (depth : Nat) (tokens : List Token) : List Token :=
  ((tokens.zip (tokens.scanl deepen depth)).filter fun (token, depth) =>
    !(token.isPunct separator && depth == 0)).map (·.1)

/-- What some tokens are split into. -/
structure Splits (separator : String) (tokens : List Token) (parts : List (List Token)) : Prop where
  occupied : ∀ part ∈ parts, part ≠ []
  kept : parts.flatten = withoutOuter separator 0 tokens
  enclosed : ∀ part ∈ parts, Enclosed (·.isPunct separator) 0 part
  balanced : Balanced tokens → ∀ part ∈ parts, Balanced part
  /-- A block that has no separator outside of its own parentheses is not cut. -/
  uncut : ∀ block, block ≠ [] → Enclosed (·.isPunct separator) 0 block → block <:+: tokens →
    ∃ part ∈ parts, block <:+: part
  /-- There is a separator between any two parts. -/
  between : Pieces separator tokens parts

section Splits

variable {separator : String}

@[simp] theorem withoutOuter_nil (depth : Nat) : withoutOuter separator depth [] = [] := rfl

theorem withoutOuter_cons (depth : Nat) (token : Token) (rest : List Token) :
    withoutOuter separator depth (token :: rest) =
      if token.isPunct separator ∧ depth = 0 then withoutOuter separator (deepen depth token) rest
      else token :: withoutOuter separator (deepen depth token) rest := by
  simp only [withoutOuter, List.scanl_cons, List.zip_cons_cons, List.filter_cons, Bool.not_eq_true',
    Bool.and_eq_false_iff, beq_eq_false_iff_ne]
  by_cases outer : token.isPunct separator = true ∧ depth = 0
  · simp [outer]
  · rw [if_neg outer, if_pos (by simpa [Classical.or_iff_not_imp_left] using outer), List.map_cons]

theorem withoutOuter_enclosed (depth : Nat) (part rest : List Token)
    (enclosed : Enclosed (·.isPunct separator) depth part) :
    withoutOuter separator depth (part ++ rest) =
      part ++ withoutOuter separator (depthBehind depth part) rest := by
  induction part generalizing depth with
  | nil => rfl
  | cons token part ih =>
      obtain ⟨first, later⟩ := (enclosed_cons _ depth token part).mp enclosed
      rw [List.cons_append, withoutOuter_cons, if_neg fun outer => first outer.1 outer.2,
        ih (deepen depth token) later]
      rfl

theorem divided_enclosed {depth : Nat} {tokens : List Token} {parts : List (List Token)}
    (divided : Divided separator depth tokens parts) (start : depth = 0) :
    ∀ part ∈ parts, Enclosed (·.isPunct separator) 0 part := by
  induction divided with
  | last enclosed => simpa [start] using enclosed
  | more enclosed _ _ _ ih => exact List.forall_mem_cons.mpr ⟨start ▸ enclosed, ih rfl⟩

variable (apart : separator ≠ "(" ∧ separator ≠ ")")

include apart

theorem divided_kept {depth : Nat} {tokens : List Token} {parts : List (List Token)}
    (divided : Divided separator depth tokens parts) :
    parts.flatten = withoutOuter separator depth tokens := by
  induction divided with
  | @last depth part enclosed =>
      have kept := withoutOuter_enclosed depth part [] enclosed
      rw [List.append_nil, withoutOuter_nil, List.append_nil] at kept
      rw [kept, List.flatten_singleton]
  | @more depth part rest mark parts enclosed outside divides _ ih =>
      have flat := separator_flat apart divides
      rw [withoutOuter_enclosed depth part _ enclosed, outside, withoutOuter_cons,
        if_pos ⟨divides, rfl⟩, deepen_flat flat, ← ih]
      rfl

theorem divided_balanced {depth : Nat} {tokens : List Token} {parts : List (List Token)}
    (divided : Divided separator depth tokens parts) (start : depth = 0) (balanced : Balanced tokens) :
    ∀ part ∈ parts, Balanced part := by
  induction divided with
  | last => simpa using balanced
  | @more depth part rest mark parts _ outside divides _ ih =>
      subst start
      obtain ⟨first, marked⟩ := balanced_halves balanced outside
      have flat := separator_flat apart divides
      have later : Balanced rest := (@balanced_halves [mark] rest marked (deepen_flat flat 0)).2
      exact List.forall_mem_cons.mpr ⟨first, ih rfl later⟩

theorem split_uncut (depth : Nat) (front block rest : List Token)
    (enclosed : Enclosed (·.isPunct separator) 0 block) :
    let split := splitFrom separator depth (front ++ (block ++ rest))
    ∃ part ∈ split.1 :: split.2, block <:+: part := by
  induction front generalizing depth with
  | nil =>
      refine ⟨_, List.mem_cons_self, ?_⟩
      rw [List.nil_append, split_enclosed apart depth block rest (enclosed_deeper enclosed depth)]
      exact (List.prefix_append _ _).isInfix
  | cons token front ih =>
      rw [List.cons_append, splitFrom_cons apart]
      split
      case isTrue =>
        obtain ⟨part, member, within⟩ := ih 0
        exact ⟨part, List.mem_cons_of_mem _ member, within⟩
      case isFalse =>
        obtain ⟨part, member, within⟩ := ih (deepen depth token)
        rcases List.mem_cons.mp member with rfl | later
        · exact ⟨_, List.mem_cons_self, within.trans (List.suffix_cons _ _).isInfix⟩
        · exact ⟨part, List.mem_cons_of_mem _ later, within⟩

/-- Any tokens are split into the parts between the separators outside of all parentheses: none is
empty, only these separators are lost, and parentheses that pair up in all of the tokens pair up in
each of the parts. -/
theorem split_splits (tokens : List Token) :
    Splits separator tokens (splitTopLevel separator tokens) := by
  have divided := split_divided apart 0 tokens
  have among : ∀ part ∈ splitTopLevel separator tokens,
      part ∈ (splitFrom separator 0 tokens).1 :: (splitFrom separator 0 tokens).2 := fun part member =>
    (List.mem_filter.mp member).1
  constructor
  case occupied =>
    intro part member
    simpa using (List.mem_filter.mp member).2
  case kept =>
    rw [← divided_kept apart divided]
    exact List.flatten_filter_not_isEmpty
  case enclosed => exact fun part member => divided_enclosed divided rfl part (among part member)
  case balanced =>
    exact fun balanced part member => divided_balanced apart divided rfl balanced part (among part member)
  case uncut =>
    rintro block occupied enclosed ⟨front, rest, rfl⟩
    rw [List.append_assoc]
    obtain ⟨part, member, within⟩ := split_uncut apart 0 front block rest enclosed
    have full : part ≠ [] := by
      rintro rfl
      exact occupied (List.infix_nil.mp within)
    exact ⟨part, List.mem_filter.mpr ⟨member, by simpa using full⟩, within⟩
  case between => exact (pieces_iff apart tokens _).mp rfl

end Splits

-- A parenthesis that closes nothing, a type with a comma of its own, and two commas in a row.
def priceTokens : List Token :=
  [⟨.word, "id"⟩, ⟨.word, "INT"⟩, closeMark, comma, ⟨.word, "price"⟩, ⟨.word, "DECIMAL"⟩, openMark,
    ⟨.number, "10"⟩, comma, ⟨.number, "2"⟩, closeMark, comma, comma, ⟨.word, "note"⟩]

theorem price_splits :
    ("," ≠ "(" ∧ "," ≠ ")") ∧
      splitTopLevel "," priceTokens =
        [[⟨.word, "id"⟩, ⟨.word, "INT"⟩, closeMark],
          [⟨.word, "price"⟩, ⟨.word, "DECIMAL"⟩, openMark, ⟨.number, "10"⟩, comma, ⟨.number, "2"⟩,
            closeMark],
          [⟨.word, "note"⟩]] ∧
      Splits "," priceTokens (splitTopLevel "," priceTokens) := by
  have apart : "," ≠ "(" ∧ "," ≠ ")" := by decide
  exact ⟨apart, by decide, split_splits apart priceTokens⟩

end TableScript.Token
