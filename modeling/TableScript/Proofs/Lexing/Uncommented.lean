import TableScript.Comment
import TableScript.Proofs.Lexing.Ink

/-!
Text without comments. Removing the comments of a text that is put together from pieces leaves it
as it is: a quoted text hides whatever it holds, and no other piece begins a comment.
-/

namespace TableScript.Comment

open Lexeme

/-- Characters that neither open a quoted text nor begin a comment or a dollar tag. -/
def isMute (c : Char) : Bool :=
  c ∉ ['\'', '"', '\x60', '$', '-', '/']

theorem strip_mute (c : Char) (rest : List Char) (mute : isMute c = true) :
    stripChars .plain (c :: rest) = c :: stripChars .plain rest := by
  simp only [isMute, decide_eq_true_eq, List.mem_cons, List.not_mem_nil, or_false, not_or] at mute
  obtain ⟨single, double, back, dollar, hyphen, slash⟩ := mute
  have tag : Text.dollarTag? Comment.isTagLead isTagInner (c :: rest) = none := by
    unfold Text.dollarTag?
    split
    · simp_all
    · rfl
  cases rest with
  | nil => simp [stripChars, isQuote, single, double, back, tag]
  | cons d rest => simp [stripChars, isQuote, single, double, back, tag, hyphen, slash]

theorem strip_mutes (chars rest : List Char) (mute : ∀ c ∈ chars, isMute c = true) :
    stripChars .plain (chars ++ rest) = chars ++ stripChars .plain rest := by
  induction chars with
  | nil => rfl
  | cons c chars ih =>
      obtain ⟨head, others⟩ := List.forall_mem_cons.mp mute
      rw [List.cons_append, strip_mute c _ head, ih others, List.cons_append]

theorem strip_content (quote : Char) (content following : List Char)
    (calm : isCalm quote content = true) (closed : following.head? ≠ some quote)
    (guardless : quote ≠ '\\') :
    stripChars (.quoted quote) (Identifier.double quote content ++ quote :: following) =
      Identifier.double quote content ++ quote :: stripChars .plain following := by
  -- A guarded character is skipped together with the backslash before it.
  induction count : content.length using Nat.strongRecOn generalizing content with
  | ind count ih =>
      cases content with
      | nil =>
          cases following with
          | nil => simp [Identifier.double, stripChars]
          | cons d following =>
              have other : d ≠ quote := fun same => closed (same ▸ rfl)
              simp [Identifier.double, stripChars, other, guardless]
      | cons c content =>
          have calmRest := calm_rest quote c content calm
          have later := ih content.length (count ▸ Nat.lt_succ_self _) content calmRest rfl
          by_cases same : c = quote
          · simp only [Identifier.double, List.flatMap_cons, List.cons_append, List.nil_append,
              stripChars, same, and_self, or_true, if_true] at later ⊢
            rw [later]
          rw [double_other quote c content same, List.cons_append, List.cons_append]
          by_cases guard : c = '\\' ∧ quote = '\''
          · obtain ⟨rfl, rfl⟩ := guard
            obtain ⟨d, rest, rfl, other⟩ := calm_guard '\'' content calm
            have behind := ih rest.length (count ▸ Nat.lt_succ_of_lt (Nat.lt_succ_self _)) rest
              (calm_rest '\'' d rest calmRest) rfl
            rw [double_other '\'' d rest other, List.cons_append, List.cons_append, ← behind]
            simp [stripChars]
          · obtain ⟨d, rest, split⟩ : ∃ d rest,
                Identifier.double quote content ++ quote :: following = d :: rest :=
              List.exists_cons_of_ne_nil (by simp)
            rw [← later, split]
            simp [stripChars, same, guard]

theorem strip_quoted (quote : Char) (content following : List Char)
    (known : quote = '\'' ∨ quote = '"') (calm : isCalm quote content = true)
    (closed : following.head? ≠ some quote) :
    stripChars .plain (quoted quote content ++ following) =
      quoted quote content ++ stripChars .plain following := by
  have guardless : quote ≠ '\\' := by
    rcases known with rfl | rfl <;> decide
  have opens : isQuote quote = true := by
    rcases known with rfl | rfl <;> rfl
  have inner := strip_content quote content following calm closed guardless
  obtain ⟨d, rest, split⟩ : ∃ d rest,
      Identifier.double quote content ++ quote :: following = d :: rest :=
    List.exists_cons_of_ne_nil (by simp)
  simp only [quoted, List.cons_append, List.append_assoc, List.nil_append]
  rw [← inner, split]
  simp [stripChars, opens]

theorem strip_ink (ink : Ink) (following : List Char) (stands : ink.Stands following) :
    stripChars .plain (ink.chars ++ following) = ink.chars ++ stripChars .plain following := by
  cases ink with
  | gap c =>
      apply strip_mutes [c] following
      intro d member
      rw [List.mem_singleton.mp member]
      have gap := stands.1
      simp only [isGap, Bool.or_eq_true, beq_iff_eq] at gap
      rcases gap with rfl | rfl <;> rfl
  | word chars =>
      apply strip_mutes chars following
      intro c member
      have unmarked := (plain_inner c (stands.2.1 c member)).unmarked
      simp only [List.mem_cons, List.not_mem_nil, or_false, not_or] at unmarked
      simp [isMute, unmarked]
  | symbol content => exact strip_quoted '"' content following (Or.inr rfl) stands.1 stands.2
  | literal content => exact strip_quoted '\'' content following (Or.inl rfl) stands.1 stands.2
  | number digits =>
      apply strip_mutes digits following
      intro c member
      have inner : Identifier.isInner c = true := by
        simp [Identifier.isInner, Char.isAlphanum, stands.2.1 c member]
      have unmarked := (plain_inner c inner).unmarked
      simp only [List.mem_cons, List.not_mem_nil, or_false, not_or] at unmarked
      simp [isMute, unmarked]
  | mark c =>
      apply strip_mutes [c] following
      intro d member
      rw [List.mem_singleton.mp member]
      have each : ∀ c ∈ ['(', ')', ',', ']', '[', '.'], isMute c = true :=
        Text.each_char _ _ (by decide)
      exact each c (mark_known c following stands)

/-- Nothing is removed from a text that is put together from pieces. -/
theorem strip_inks (inks : List Ink) (tail : List Char) (written : Written inks tail) :
    stripChars .plain (inkText inks ++ tail) = inkText inks ++ stripChars .plain tail := by
  induction inks with
  | nil => rfl
  | cons ink inks ih =>
      obtain ⟨stands, written⟩ := written
      rw [inkText_cons, List.append_assoc, strip_ink ink _ stands, ih written, List.append_assoc]

end TableScript.Comment
