import TableScript.Parse
import TableScript.Proofs.Lexing.Ending
import Mathlib.Data.List.Infix

/-!
Comments that are put into a script. Where nothing of the text before it is open, a block comment is
a space and a line comment is the line feed at its end, whatever they say and whatever follows, so
the script describes the same schema with them and without.
-/

namespace TableScript

namespace Comment

/-- Nothing of a text is open at its end: no quoted text, no tag and no comment. -/
def IsClosed (text : String) : Prop :=
  modeAfter .plain text.toList = .plain

instance (text : String) : Decidable (IsClosed text) :=
  inferInstanceAs (Decidable (_ = _))

/-- Behind a closed text the scan starts anew. -/
theorem strip_closed (text : String) (closed : IsClosed text) (b : Char) (barrier : isBarrier b = true)
    (rest : List Char) (apart : HyphensApart text.toList b) :
    stripChars .plain (text.toList ++ b :: rest) =
      stripChars .plain text.toList ++ stripChars .plain (b :: rest) := by
  have behind := strip_behind .plain text.toList rest b (barrier_parts b barrier) apart trivial
    (Or.inl closed)
  rwa [closed] at behind

/-- A remark that neither opens nor closes a block comment, and does not open one together with the
star behind it. -/
structure Flat (remark : List Char) : Prop where
  unopened : ¬ ['/', '*'] <:+: remark
  unclosed : ¬ ['*', '/'] <:+: remark
  last : remark.getLast? ≠ some '/'

instance (remark : List Char) : Decidable (Flat remark) :=
  decidable_of_iff (¬ ['/', '*'] <:+: remark ∧ ¬ ['*', '/'] <:+: remark ∧ remark.getLast? ≠ some '/')
    ⟨fun ⟨unopened, unclosed, last⟩ => ⟨unopened, unclosed, last⟩,
      fun flat => ⟨flat.unopened, flat.unclosed, flat.last⟩⟩

theorem Flat.rest {c : Char} {remark : List Char} (flat : Flat (c :: remark)) : Flat remark where
  unopened := fun inside => flat.unopened (inside.trans (List.suffix_cons c remark).isInfix)
  unclosed := fun inside => flat.unclosed (inside.trans (List.suffix_cons c remark).isInfix)
  last := fun last => flat.last (by simp [List.getLast?_cons, last])

theorem block_remark (depth : Nat) (remark rest : List Char) (flat : Flat remark) :
    stripChars (.block depth) (remark ++ '*' :: '/' :: rest) =
      stripChars (.block depth) ('*' :: '/' :: rest) := by
  induction remark with
  | nil => rfl
  | cons c remark ih =>
      rw [← ih flat.rest]
      cases remark with
      | nil =>
          have slash : c ≠ '/' := fun same => flat.last (same ▸ rfl)
          simp [stripChars, slash]
      | cons d remark =>
          have front : [c, d] <:+: c :: d :: remark := ⟨[], remark, rfl⟩
          have unopened : ¬ (c = '/' ∧ d = '*') := by
            rintro ⟨rfl, rfl⟩
            exact flat.unopened front
          have unclosed : ¬ (c = '*' ∧ d = '/') := by
            rintro ⟨rfl, rfl⟩
            exact flat.unclosed front
          simp only [List.cons_append, stripChars, if_neg unopened, if_neg unclosed]

theorem line_remark (remark rest : List Char) (line : '\n' ∉ remark) :
    stripChars .line (remark ++ '\n' :: rest) = '\n' :: stripChars .plain rest := by
  induction remark with
  | nil => simp [stripChars]
  | cons c remark ih =>
      simp only [List.mem_cons, not_or] at line
      simp only [List.cons_append, stripChars, if_neg (Ne.symm line.1), ih line.2]

theorem strip_block (remark rest : List Char) (flat : Flat remark) :
    stripChars .plain ('/' :: '*' :: (remark ++ '*' :: '/' :: rest)) = ' ' :: stripChars .plain rest := by
  rw [strip_pair '/' '*' _ (by decide) rfl, if_neg (by decide), if_pos ⟨rfl, rfl⟩,
    block_remark 0 remark rest flat]
  simp [stripChars]

theorem strip_line (remark rest : List Char) (line : '\n' ∉ remark) :
    stripChars .plain ('-' :: '-' :: (remark ++ '\n' :: rest)) = '\n' :: stripChars .plain rest := by
  rw [strip_pair '-' '-' _ (by decide) rfl, if_pos ⟨rfl, rfl⟩, line_remark remark rest line]

theorem block_inserted (before remark after : String) (closed : IsClosed before)
    (flat : Flat remark.toList) :
    strip (before ++ "/*" ++ remark ++ "*/" ++ after) = strip (before ++ " " ++ after) := by
  have texts : (before ++ "/*" ++ remark ++ "*/" ++ after).toList =
      before.toList ++ '/' :: '*' :: (remark.toList ++ '*' :: '/' :: after.toList) := by simp
  have space : (before ++ " " ++ after).toList = before.toList ++ ' ' :: after.toList := by simp
  rw [strip, strip, texts, space,
    strip_closed before closed '/' (by decide) _ (fun hyphen => absurd hyphen (by decide)),
    strip_closed before closed ' ' (by decide) _ (fun hyphen => absurd hyphen (by decide)),
    strip_block _ _ flat, strip_mute ' ' _ (by decide)]

theorem line_inserted (before remark after : String) (closed : IsClosed before)
    (apart : before.toList.getLast? ≠ some '-') (line : '\n' ∉ remark.toList) :
    strip (before ++ "--" ++ remark ++ "\n" ++ after) = strip (before ++ "\n" ++ after) := by
  have texts : (before ++ "--" ++ remark ++ "\n" ++ after).toList =
      before.toList ++ '-' :: '-' :: (remark.toList ++ '\n' :: after.toList) := by simp
  have feed : (before ++ "\n" ++ after).toList = before.toList ++ '\n' :: after.toList := by simp
  rw [strip, strip, texts, feed,
    strip_closed before closed '-' (by decide) _ (fun _ => apart),
    strip_closed before closed '\n' (by decide) _ (fun hyphen => absurd hyphen (by decide)),
    strip_line _ _ line, strip_mute '\n' _ (by decide)]

theorem parse_stripped (mode : Resolution) (first second : String) (same : strip first = strip second) :
    parse mode first = parse mode second := by
  simp only [parse, readStatements, same]

/-- A comment in a script is the blank that it leaves. A line comment may not stand behind a hyphen,
which would begin it one character earlier. -/
theorem comment_leaves_blank (before remark after : String) (closed : IsClosed before) :
    (Flat remark.toList →
      strip (before ++ "/*" ++ remark ++ "*/" ++ after) = strip (before ++ " " ++ after) ∧
        ∀ mode, parse mode (before ++ "/*" ++ remark ++ "*/" ++ after) =
          parse mode (before ++ " " ++ after)) ∧
      (before.toList.getLast? ≠ some '-' → '\n' ∉ remark.toList →
        strip (before ++ "--" ++ remark ++ "\n" ++ after) = strip (before ++ "\n" ++ after) ∧
          ∀ mode, parse mode (before ++ "--" ++ remark ++ "\n" ++ after) =
            parse mode (before ++ "\n" ++ after)) := by
  constructor
  · intro flat
    have same := block_inserted before remark after closed flat
    exact ⟨same, fun mode => parse_stripped mode _ _ same⟩
  · intro apart line
    have same := line_inserted before remark after closed apart line
    exact ⟨same, fun mode => parse_stripped mode _ _ same⟩

-- The remark stands behind a slash, and no quote, tag or semicolon in it is seen.
theorem remark_leaves_blank :
    let before := "CREATE TABLE t (\"a--\" INT DEFAULT 6/"
    let remark := "'; $x$ -- ) *"
    let after := "2 NOT NULL)"
    (IsClosed before ∧ Flat remark.toList ∧ before.toList.getLast? ≠ some '-' ∧ '\n' ∉ remark.toList) ∧
      strip (before ++ "/*" ++ remark ++ "*/" ++ after) = strip (before ++ " " ++ after) ∧
      (∀ mode, parse mode (before ++ "--" ++ remark ++ "\n" ++ after) =
        parse mode (before ++ "\n" ++ after)) := by
  intro before remark after
  have closed : IsClosed before := by decide +kernel
  have flat : Flat remark.toList := by decide +kernel
  have apart : before.toList.getLast? ≠ some '-' := by decide +kernel
  have line : '\n' ∉ remark.toList := by decide +kernel
  obtain ⟨block, single⟩ := comment_leaves_blank before remark after closed
  exact ⟨⟨closed, flat, apart, line⟩, (block flat).1, (single apart line).2⟩

-- Behind a hyphen the comment begins with that hyphen.
example : strip ("a -" ++ "--" ++ "b" ++ "\n" ++ "c") = "a \nc" := by
  decide +kernel

end Comment

end TableScript
