import TableScript.Proofs.Lexing.Ending

/-!
Text that is stripped already. What is left of a text between quotes or tags is the text as it
stands, and where a comment was there is a blank or the end, so nothing that is left begins a
comment, opens a text or goes on with one where nothing did before. Removing the comments once
more changes nothing.
-/

namespace TableScript.Comment

/-- The mode in which the kept text goes on, behind a comment if need be. -/
def Mode.resumed : Mode → Mode
  | .plain | .line | .block _ => .plain
  | .quoted quote => .quoted quote
  | .opening left tag => .opening left tag
  | .tagged tag => .tagged tag
  | .closing left => .closing left

theorem resumed_opening (left : Nat) (tag : List Char) :
    (afterOpening left tag).resumed = afterOpening left tag := by
  unfold afterOpening
  split <;> rfl

theorem resumed_closing (left : Nat) : (afterClosing left).resumed = afterClosing left := by
  unfold afterClosing
  split <;> rfl

theorem closing_kept (left : Nat) (chars : List Char) :
    (stripChars (afterClosing left) chars).take left = chars.take left := by
  induction left generalizing chars with
  | zero => rfl
  | succ left ih =>
      cases chars with
      | nil => rw [strip_nothing]
      | cons c rest => simpa [afterClosing, stripChars] using ih rest

theorem opening_kept (left : Nat) (tag chars : List Char) :
    (stripChars (afterOpening left tag) chars).take left = chars.take left := by
  induction left generalizing chars with
  | zero => rfl
  | succ left ih =>
      cases chars with
      | nil => rw [strip_nothing]
      | cons c rest => simpa [afterOpening, stripChars] using ih rest

/-- A tagged text is kept up to the end of its closing tag, wherever that begins. -/
theorem tagged_kept (tag chars : List Char) :
    (stripChars (.tagged tag) chars).take tag.length = chars.take tag.length := by
  induction chars with
  | nil => rfl
  | cons c rest ih =>
      cases length : tag.length with
      | zero => rfl
      | succ left =>
          rw [length] at ih
          rw [stripChars]
          split
          · rw [length, Nat.add_sub_cancel, List.take_succ_cons, List.take_succ_cons, closing_kept]
          · have shorter := congrArg (List.take left) ih
            simp only [List.take_take, Nat.min_eq_left (Nat.le_succ left)] at shorter
            rw [List.take_succ_cons, List.take_succ_cons, shorter]

theorem prefix_same (mark first second : List Char)
    (same : first.take mark.length = second.take mark.length) :
    mark.isPrefixOf first = mark.isPrefixOf second := by
  rw [Bool.eq_iff_iff, List.isPrefixOf_iff_prefix, List.isPrefixOf_iff_prefix,
    List.prefix_iff_eq_take, List.prefix_iff_eq_take, same]

theorem taken_behind (c : Char) (length : Nat) (first second : List Char)
    (same : first.take (length - 1) = second.take (length - 1)) :
    (c :: first).take length = (c :: second).take length := by
  cases length with
  | zero => rfl
  | succ left => rw [List.take_succ_cons, List.take_succ_cons, ← Nat.add_sub_cancel left 1, same]

/-- Behind a comment stands the blank that is left of it, or nothing. -/
theorem comment_head (mode : Mode) (chars : List Char) (comment : mode.resumed ≠ mode) :
    ∀ c ∈ (stripChars mode chars).head?, c = ' ' ∨ c = '\n' := by
  -- A comment goes on, or it ends here, or the mode is that of no comment.
  fun_induction stripChars mode chars <;> simp_all [Mode.resumed]

/-- What is left of a text begins as the text does, or with a blank. -/
theorem plain_head (chars : List Char) :
    ∀ c ∈ (stripChars .plain chars).head?, c ∈ chars.head? ∨ c = ' ' ∨ c = '\n' := by
  cases chars with
  | nil => simp [strip_nothing]
  | cons c rest =>
      by_cases quote : isQuote c = true
      · simp [strip_quote c rest quote]
      cases found : Text.dollarTag? isTagLead isTagInner (c :: rest) with
      | some tag => simp [strip_tag c rest tag quote found]
      | none =>
          cases rest with
          | nil => simp [stripChars, quote, found]
          | cons d rest =>
              rw [strip_pair c d rest quote found]
              split
              · exact fun e head => Or.inr (comment_head .line rest (by simp [Mode.resumed]) e head)
              · split
                · exact fun e head => Or.inr (comment_head (.block 0) rest (by simp [Mode.resumed]) e head)
                · simp

/-- A tag stands at the front of a text: two signs with a name between them. -/
theorem tag_iff (chars tag : List Char) :
    Text.dollarTag? isTagLead isTagInner chars = some tag ↔
      ∃ name, tag = '$' :: (name ++ ['$']) ∧ (∀ c ∈ name, isTagInner c = true) ∧
        name.head?.all isTagLead = true ∧ tag <+: chars := by
  constructor
  · intro found
    obtain ⟨rest, same⟩ := Lexeme.dollarTag_prefix _ _ _ _ found
    unfold Text.dollarTag? at found
    split at found
    case h_1 behind =>
      dsimp only at found
      split at found
      case isTrue closed =>
        cases found
        exact ⟨behind.takeWhile isTagInner, rfl, fun c member => List.mem_takeWhile_imp member,
          (Bool.and_eq_true_iff.mp closed).1, rest, same.symm⟩
      case isFalse => cases found
    case h_2 => cases found
  · rintro ⟨name, rfl, inner, lead, rest, rfl⟩
    have sign : isTagInner '$' = false := by decide
    simp [Text.dollarTag?, List.takeWhile_append_of_pos inner, List.dropWhile_append_of_pos inner, lead,
      sign]

theorem inner_mute (c : Char) (inner : isTagInner c = true) : isMute c = true := by
  have marks : ∀ c ∈ ['\'', '"', '\x60', '$', '-', '/'], isTagInner c = false :=
    Text.each_char _ _ (by decide)
  simp only [isMute, decide_eq_true_eq]
  intro member
  exact absurd ((marks c member).symm.trans inner) Bool.false_ne_true

/-- A name with a sign behind it is left only where it stood before. -/
theorem name_kept (name rest : List Char) (inner : ∀ c ∈ name, isTagInner c = true)
    (left : name ++ ['$'] <+: stripChars .plain rest) : name ++ ['$'] <+: rest := by
  induction name generalizing rest with
  | nil =>
      obtain ⟨more, same⟩ := left
      have head := plain_head rest '$' (by rw [← same]; rfl)
      have first : '$' ∈ rest.head? := by simpa using head
      obtain ⟨others, rfl⟩ := List.head?_eq_some_iff.mp first
      exact ⟨others, rfl⟩
  | cons c name ih =>
      obtain ⟨here, others⟩ := List.forall_mem_cons.mp inner
      obtain ⟨more, same⟩ := left
      have blanks : c ≠ ' ' ∧ c ≠ '\n' := by
        constructor <;> rintro rfl <;> exact absurd here (by decide)
      have head := plain_head rest c (by rw [← same]; rfl)
      have first : c ∈ rest.head? := by simpa [blanks] using head
      obtain ⟨later, rfl⟩ := List.head?_eq_some_iff.mp first
      rw [strip_mute c later (inner_mute c here)] at same
      exact (List.prefix_cons_inj c).mpr (ih later others ⟨more, (List.cons.inj same).2⟩)

theorem tag_unmade (c : Char) (rest : List Char)
    (untagged : Text.dollarTag? isTagLead isTagInner (c :: rest) = none) :
    Text.dollarTag? isTagLead isTagInner (c :: stripChars .plain rest) = none := by
  rw [Option.eq_none_iff_forall_ne_some] at untagged ⊢
  intro tag made
  obtain ⟨name, rfl, inner, lead, left⟩ := (tag_iff _ tag).mp made
  obtain ⟨rfl, behind⟩ := List.cons_prefix_cons.mp left
  exact untagged _ ((tag_iff _ _).mpr ⟨name, rfl, inner, lead,
    List.cons_prefix_cons.mpr ⟨rfl, name_kept name rest inner behind⟩⟩)

theorem tag_opened (c : Char) (rest tag : List Char)
    (found : Text.dollarTag? isTagLead isTagInner (c :: rest) = some tag) :
    Text.dollarTag? isTagLead isTagInner
      (c :: stripChars (afterOpening (tag.length - 1) tag) rest) = some tag := by
  obtain ⟨name, shape, inner, lead, there⟩ := (tag_iff _ tag).mp found
  refine (tag_iff _ tag).mpr ⟨name, shape, inner, lead, ?_⟩
  have same := taken_behind c tag.length _ _ (opening_kept (tag.length - 1) tag rest)
  rw [List.prefix_iff_eq_take] at there ⊢
  rw [same]
  exact there

/-- A character that begins neither a quoted text, a tag nor a comment is kept. -/
theorem strip_single (c : Char) (rest : List Char) (unquoted : ¬ isQuote c = true)
    (untagged : Text.dollarTag? isTagLead isTagInner (c :: rest) = none)
    (hyphens : ¬ (c = '-' ∧ rest.head? = some '-')) (comment : ¬ (c = '/' ∧ rest.head? = some '*')) :
    stripChars .plain (c :: rest) = c :: stripChars .plain rest := by
  cases rest with
  | nil => simp [stripChars, unquoted, untagged]
  | cons d rest =>
      simp only [List.head?_cons, Option.some.injEq] at hyphens comment
      rw [strip_pair c d rest unquoted untagged, if_neg hyphens, if_neg comment]

/-- What is left of a text is left of it again, scanned in the mode in which the kept text goes on. -/
def StripsAgain (mode : Mode) (chars : List Char) : Prop :=
  mode.Opened → stripChars mode.resumed (stripChars mode chars) = stripChars mode chars

section

variable (c : Char) (rest : List Char)
  (later : ∀ mode text, text.length ≤ rest.length → StripsAgain mode text)

include later

theorem line_again : StripsAgain .line (c :: rest) := by
  intro _
  by_cases feed : c = '\n'
  · simp only [stripChars, if_pos feed]
    rw [Mode.resumed, feed, strip_mute '\n' _ rfl]
    exact congrArg _ (later .plain rest le_rfl trivial)
  · simp only [stripChars, if_neg feed]
    exact later .line rest le_rfl trivial

theorem block_again (depth : Nat) : StripsAgain (.block depth) (c :: rest) := by
  intro _
  cases rest with
  | nil => simp only [stripChars, strip_nothing]
  | cons d more =>
      have shorter : more.length ≤ (d :: more).length := Nat.le_succ _
      by_cases opens : c = '/' ∧ d = '*'
      · simp only [stripChars, if_pos opens]
        exact later (.block (depth + 1)) more shorter trivial
      by_cases closes : c = '*' ∧ d = '/'
      · by_cases outer : depth = 0
        · simp only [stripChars, if_neg opens, if_pos closes, if_pos outer]
          exact (strip_mute ' ' _ rfl).trans (congrArg _ (later .plain more shorter trivial))
        · simp only [stripChars, if_neg opens, if_pos closes, if_neg outer]
          exact later (.block (depth - 1)) more shorter trivial
      · simp only [stripChars, if_neg opens, if_neg closes]
        exact later (.block depth) (d :: more) le_rfl trivial

theorem quoted_again (quote : Char) : StripsAgain (.quoted quote) (c :: rest) := by
  intro opened
  cases rest with
  | nil => simp only [stripChars, Mode.resumed]
  | cons d more =>
      by_cases kept : (c = '\\' ∧ quote = '\'') ∨ (c = quote ∧ d = quote)
      · have again := later (.quoted quote) more (Nat.le_succ _) opened
        simp only [Mode.resumed, stripChars, if_pos kept] at again ⊢
        rw [again]
      obtain ⟨unguarded, undoubled⟩ := not_or.mp kept
      by_cases closes : c = quote
      · subst closes
        have guardless : c ≠ '\\' := by
          rintro rfl
          cases opened
        have single : d ≠ c := fun same => undoubled ⟨rfl, same⟩
        -- No second quote comes to stand behind this one where a comment is left out.
        have alone : (stripChars .plain (d :: more)).head? ≠ some c := by
          intro head
          have blanks : c ≠ ' ' ∧ c ≠ '\n' := by
            constructor <;> rintro rfl <;> cases opened
          have first := plain_head (d :: more) c head
          simp [blanks, single] at first
        rw [strip_closing c (d :: more) guardless (by simp [single]), Mode.resumed,
          strip_closing c _ guardless alone]
        exact congrArg _ (later .plain (d :: more) le_rfl trivial)
      · rw [strip_inside quote c _ unguarded closes, Mode.resumed,
          strip_inside quote c _ unguarded closes]
        exact congrArg _ (later (.quoted quote) (d :: more) le_rfl opened)

theorem opening_again (left : Nat) (tag : List Char) : StripsAgain (.opening left tag) (c :: rest) := by
  intro opened
  have again := later _ rest le_rfl (opened_opening (left - 1) tag opened)
  rw [resumed_opening] at again
  rw [stripChars, Mode.resumed, stripChars, again]

theorem closing_again (left : Nat) : StripsAgain (.closing left) (c :: rest) := by
  intro _
  have again := later _ rest le_rfl (opened_closing (left - 1))
  rw [resumed_closing] at again
  rw [stripChars, Mode.resumed, stripChars, again]

theorem tagged_again (tag : List Char) : StripsAgain (.tagged tag) (c :: rest) := by
  intro opened
  by_cases here : tag.isPrefixOf (c :: rest) = true
  · have again := later _ rest le_rfl (opened_closing (tag.length - 1))
    rw [resumed_closing] at again
    have there := prefix_same tag _ _ (taken_behind c tag.length _ _ (closing_kept (tag.length - 1) rest))
    simp only [stripChars, if_pos here]
    rw [Mode.resumed, stripChars, if_pos (there.trans here), again]
  · have kept : (stripChars (.tagged tag) rest).take (tag.length - 1) = rest.take (tag.length - 1) := by
      have shorter := congrArg (List.take (tag.length - 1)) (tagged_kept tag rest)
      simpa only [List.take_take, Nat.min_eq_left (Nat.sub_le tag.length 1)] using shorter
    have there := prefix_same tag _ _ (taken_behind c tag.length _ _ kept)
    simp only [stripChars, if_neg here]
    rw [Mode.resumed, stripChars, if_neg (there ▸ here)]
    exact congrArg _ (later (.tagged tag) rest le_rfl opened)

theorem plain_again : StripsAgain .plain (c :: rest) := by
  intro _
  by_cases quote : isQuote c = true
  · rw [strip_quote c rest quote, Mode.resumed, strip_quote c _ quote]
    exact congrArg _ (later (.quoted c) rest le_rfl quote)
  cases found : Text.dollarTag? isTagLead isTagInner (c :: rest) with
  | some tag =>
      have again := later _ rest le_rfl (opened_opening (tag.length - 1) tag (tag_chars _ tag found))
      rw [resumed_opening] at again
      rw [strip_tag c rest tag quote found, Mode.resumed,
        strip_tag c _ tag quote (tag_opened c rest tag found), again]
  | none =>
      cases rest with
      | nil =>
          have alone := strip_single c [] quote found (by simp) (by simp)
          rw [strip_nothing] at alone
          rw [alone]
          exact alone
      | cons d more =>
          rw [strip_pair c d more quote found]
          by_cases hyphens : c = '-' ∧ d = '-'
          · rw [if_pos hyphens]
            exact later .line more (Nat.le_succ _) trivial
          by_cases comment : c = '/' ∧ d = '*'
          · rw [if_neg hyphens, if_pos comment]
            exact later (.block 0) more (Nat.le_succ _) trivial
          have head : ∀ e, e ≠ ' ' → e ≠ '\n' →
              (stripChars .plain (d :: more)).head? = some e → d = e := by
            intro e space feed first
            simpa [space, feed] using plain_head (d :: more) e first
          rw [if_neg hyphens, if_neg comment, Mode.resumed,
            strip_single c _ quote (tag_unmade c _ found)
              (fun both => hyphens ⟨both.1, head '-' (by decide) (by decide) both.2⟩)
              (fun both => comment ⟨both.1, head '*' (by decide) (by decide) both.2⟩)]
          exact congrArg _ (later .plain (d :: more) le_rfl trivial)

end

/-- What is left of a text is left of it again. The scan of what is left stays in the mode in which
the scan of the text is, but goes on as if nothing were there where that one is in a comment. -/
theorem strip_resumed (mode : Mode) (chars : List Char) (opened : mode.Opened) :
    stripChars mode.resumed (stripChars mode chars) = stripChars mode chars := by
  refine each_mode (motive := StripsAgain) ?_ ?_ mode chars opened
  · intro mode _
    rw [strip_nothing, strip_nothing]
  · intro c rest later mode
    cases mode with
    | plain => exact plain_again c rest later
    | quoted quote => exact quoted_again c rest later quote
    | opening left tag => exact opening_again c rest later left tag
    | tagged tag => exact tagged_again c rest later tag
    | closing left => exact closing_again c rest later left
    | line => exact line_again c rest later
    | block depth => exact block_again c rest later depth

/-- Removing the comments of a script a second time changes nothing. -/
theorem strip_strip (script : String) : strip (strip script) = strip script := by
  rw [strip, strip, String.toList_ofList]
  exact congrArg String.ofList (strip_resumed .plain script.toList trivial)

-- The hyphens and the sign that a comment held apart do not come together.
example : strip (strip "a-/**/-b $/**/$ 'c'--\n'd'") = "a- -b $ $ 'c'\n'd'" := by
  decide +kernel

end TableScript.Comment
