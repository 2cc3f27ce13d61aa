import TableScript.Proofs.Lexing.Ink
import TableScript.Statement.Group
import Mathlib.Data.List.TakeWhile

/-!
Names that read back. A name is written as one token, bare or in quotes, and cleaning that token
gives the name again. Written bare, it is none of the words that mean something where a name
stands.
-/

namespace TableScript.Identifier

open Lexeme

theorem undouble_double (quote : Char) (chars : List Char) :
    undouble quote (double quote chars) = chars := by
  induction chars with
  | nil => rfl
  | cons c chars ih =>
      by_cases same : c = quote
      · simp only [double, List.flatMap_cons, if_pos same] at ih ⊢
        simp [undouble, same, ih]
      · rw [double_other quote c chars same]
        cases rest : double quote chars with
        | nil =>
            rw [rest] at ih
            simp [undouble, ← ih]
        | cons d more =>
            rw [rest] at ih
            simp [undouble, same, ih]

theorem double_plain (quote : Char) (chars : List Char) (plain : quote ∉ chars) :
    double quote chars = chars := by
  induction chars with
  | nil => rfl
  | cons c chars ih =>
      simp only [List.mem_cons, not_or] at plain
      rw [double_other quote c chars (Ne.symm plain.1), ih plain.2]

/-- A name that comes back whatever stands around it. -/
structure Safe (name : String) : Prop where
  occupied : name ≠ ""
  guardless : '\\' ∉ name.toList
  visible : '\u200B' ∉ name.toList
  closed : name.toList.getLast? ≠ some '\n'
  free : Text.upper name ∉ ["DIV", "ILIKE", "RLIKE", "REGEXP"]

instance (name : String) : Decidable (Safe name) :=
  decidable_of_iff (name ≠ "" ∧ '\\' ∉ name.toList ∧ '\u200B' ∉ name.toList ∧
      name.toList.getLast? ≠ some '\n' ∧ Text.upper name ∉ ["DIV", "ILIKE", "RLIKE", "REGEXP"])
    ⟨fun ⟨occupied, guardless, visible, closed, free⟩ =>
        ⟨occupied, guardless, visible, closed, free⟩,
      fun safe => ⟨safe.occupied, safe.guardless, safe.visible, safe.closed, safe.free⟩⟩

/-- A name that is written without quotes. -/
def isBare (name : String) : Bool :=
  isPlain name && !Keyword.quotedNames.contains (Text.upper name)

/-- A name that is written as what it is: without quotes it is no operator and ends with itself,
and in quotes it does not hide one of them. -/
structure Clear (name : String) : Prop where
  closed : isBare name = true → name.toList.getLast? ≠ some '\n'
  free : isBare name = true → Text.upper name ∉ ["DIV", "ILIKE", "RLIKE", "REGEXP"]
  calm : isBare name = false → isCalm '"' name.toList = true

instance (name : String) : Decidable (Clear name) :=
  decidable_of_iff ((isBare name = true → name.toList.getLast? ≠ some '\n') ∧
      (isBare name = true → Text.upper name ∉ ["DIV", "ILIKE", "RLIKE", "REGEXP"]) ∧
      (isBare name = false → isCalm '"' name.toList = true))
    ⟨fun ⟨closed, free, calm⟩ => ⟨closed, free, calm⟩,
      fun clear => ⟨clear.closed, clear.free, clear.calm⟩⟩

/-- A name that comes back, though it may be empty. -/
structure Legible (name : String) : Prop extends Clear name where
  visible : '\u200B' ∉ name.toList

/-- A name that comes back where a name has to be. -/
structure Proper (name : String) : Prop extends Legible name where
  occupied : name ≠ ""

theorem Safe.proper {name : String} (safe : Safe name) : Proper name where
  closed := fun _ => safe.closed
  free := fun _ => safe.free
  calm := fun _ => calm_plain '"' name.toList safe.guardless
  visible := safe.visible
  occupied := safe.occupied

theorem write_eq (name : String) : write name = if isBare name = true then name else quote name := rfl

theorem quote_eq (name : String) : quote name = String.ofList (quoted '"' name.toList) := rfl

theorem bare_occupied (name : String) (bare : isBare name = true) : name.toList ≠ [] := by
  intro empty
  have plain : isPlainChars name.toList = true := (Bool.and_eq_true_iff.mp bare).1
  rw [empty] at plain
  cases plain

theorem bare_chars (name : String) (clear : Clear name) (bare : isBare name = true) :
    (∀ c ∈ name.toList.head?, isLead c = true) ∧ ∀ c ∈ name.toList, isInner c = true := by
  have plain : isPlainChars name.toList = true := (Bool.and_eq_true_iff.mp bare).1
  cases chars : name.toList with
  | nil => simp
  | cons c rest =>
      rw [chars] at plain
      simp only [isPlainChars, Bool.and_eq_true, Bool.or_eq_true, beq_iff_eq] at plain
      obtain ⟨lead, ended⟩ := plain
      have inner : ∀ d ∈ rest, isInner d = true := by
        rcases ended with none_left | line_left
        · exact List.dropWhile_eq_nil_iff.mp none_left
        · have last : rest.getLast? = some '\n' := by
            have whole := List.takeWhile_append_dropWhile (p := isInner) (l := rest)
            rw [line_left] at whole
            rw [← whole, List.getLast?_concat]
          refine absurd ?_ (clear.closed bare)
          rw [chars, List.getLast?_cons, last]
          rfl
      constructor
      · simpa using lead
      · exact List.forall_mem_cons.mpr ⟨lead_inner c lead, inner⟩

theorem bare_unreserved (name : String) (bare : isBare name = true) :
    Text.upper name ∉ Keyword.quotedNames := by
  have free := (Bool.and_eq_true_iff.mp bare).2
  simpa using free

theorem bare_tame (name : String) (clear : Clear name) (bare : isBare name = true) :
    Tame name.toList := by
  constructor
  · exact (bare_chars name clear bare).1
  · rw [String.ofList_toList]
    intro operator
    have like : "LIKE" ∈ Keyword.quotedNames := by decide
    have free := clear.free bare
    have unreserved := bare_unreserved name bare
    simp only [operatorWords, List.mem_cons, List.not_mem_nil, or_false, not_or] at operator free
    rcases operator with same | same | same | same | same
    · exact free.1 same
    · exact unreserved (same ▸ like)
    · exact free.2.1 same
    · exact free.2.2.1 same
    · exact free.2.2.2 same

def ink (name : String) : Ink :=
  if isBare name = true then .word name.toList else .symbol name.toList

def token (name : String) : Token :=
  ⟨if isBare name = true then .word else .quoted, write name⟩

@[simp] theorem ink_chars (name : String) : (ink name).chars = (write name).toList := by
  unfold ink
  rw [write_eq]
  split
  · rfl
  · rw [quote_eq, String.toList_ofList]
    rfl

@[simp] theorem ink_tokens (name : String) : (ink name).tokens = [token name] := by
  unfold ink token
  rw [write_eq]
  split
  · simp [Ink.tokens]
  · rfl

/-- A name stands before a gap or one of a few marks. -/
theorem ink_stands (name : String) (clear : Clear name) (following : List Char)
    (next : ∀ c ∈ following.head?, c ∈ [' ', '\n', '(', ')', ',']) :
    (ink name).Stands following := by
  unfold ink
  split
  case isTrue bare =>
    refine ⟨bare_occupied name bare, (bare_chars name clear bare).2, bare_tame name clear bare,
      fun c head => ?_⟩
    have each : ∀ c ∈ [' ', '\n', '(', ')', ','], c ∈ stoppers ∨ isGap c = true :=
      Text.each_char _ _ (by decide)
    exact (each c (next c head)).imp_right Or.inr
  case isFalse marked =>
    constructor
    · exact clear.calm (Bool.not_eq_true _ |>.mp marked)
    · intro head
      exact absurd (next '"' head) (by decide)

/-- Something that stands before a name stands before the start of a word or a quote. -/
theorem ink_head (name : String) (clear : Clear name) :
    ∃ c rest, (ink name).chars = c :: rest ∧ (c = '"' ∨ isLead c = true) := by
  unfold ink
  split
  case isTrue bare =>
    cases chars : name.toList with
    | nil => exact absurd chars (bare_occupied name bare)
    | cons c rest =>
        exact ⟨c, rest, rfl, Or.inr ((bare_chars name clear bare).1 c (by rw [chars]; rfl))⟩
  case isFalse => exact ⟨'"', _, rfl, Or.inl rfl⟩

theorem token_isIdentifier (name : String) : (token name).isIdentifier = true := by
  unfold token
  split <;> rfl

/-- The token of a name is none of the words that names are written in quotes for. -/
theorem token_isOneOf (name : String) (words : List String)
    (reserved : ∀ word ∈ words, word ∈ Keyword.quotedNames) :
    (token name).isOneOf words = false := by
  unfold token Token.isOneOf
  cases bare : isBare name with
  | false => rfl
  | true =>
      have unreserved := bare_unreserved name bare
      have absent : Text.upper name ∉ words := fun member => unreserved (reserved _ member)
      simpa [write_eq, bare, Token.upper] using absent

theorem token_isWord (name word : String) (reserved : word ∈ Keyword.quotedNames) :
    (token name).isWord word = false :=
  token_isOneOf name [word] (by simpa using reserved)

theorem token_isPunct (name value : String) : (token name).isPunct value = false := by
  unfold token
  split <;> rfl

/-- The characters that cleaning keeps wherever they stand, blanks at the ends apart. -/
def isVisible (c : Char) : Bool :=
  c.toNat != 0x200B

/-- A name without its zero-width spaces. -/
def visible (name : String) : String :=
  String.ofList (name.toList.filter isVisible)

theorem visible_all (chars : List Char) (noneHidden : '\u200B' ∉ chars) :
    chars.filter isVisible = chars := by
  refine List.filter_eq_self.mpr fun c member => bne_iff_ne.mpr fun same => ?_
  have zeroWidth : c = '\u200B' := by
    rw [← Char.ofNat_toNat c, same]
  exact noneHidden (zeroWidth ▸ member)

/-- The characters that cleaning cuts off, leaves out or takes for a quote. -/
def isTouched (c : Char) : Bool :=
  Text.isBlank c || ['"', '\x60', '[', '\u200B'].contains c

theorem clean_untouched (chars : List Char) (untouched : ∀ c ∈ chars, isTouched c = false) :
    cleanChars chars = chars := by
  have parts : ∀ c ∈ chars, Text.isBlank c = false ∧ c ∉ ['"', '\x60', '[', '\u200B'] := by
    intro c member
    simpa [isTouched] using untouched c member
  have visible : chars.filter (fun c => c.toNat != 0x200B) = chars :=
    visible_all chars fun hidden => (parts _ hidden).2 (by simp)
  have trimmed : Text.trimChars chars = chars :=
    Text.trimChars_self chars (fun c head => (parts c (List.mem_of_mem_head? head)).1)
      (fun c last => (parts c (List.mem_of_getLast? last)).1)
  rw [cleanChars, visible, trimmed]
  cases chars with
  | nil => rfl
  | cons c rest =>
      have unmarked := (parts c (by simp)).2
      split <;> simp_all

theorem clean_bare (chars : List Char) (inner : ∀ c ∈ chars, isInner c = true) :
    cleanChars chars = chars := by
  have other : ∀ c ∈ ['"', '\x60', '[', '\u200B'], isInner c = false := Text.each_char _ _ (by decide)
  apply clean_untouched
  intro c member
  have solid := (plain_inner c (inner c member)).solid
  cases marked : ['"', '\x60', '[', '\u200B'].contains c with
  | false => rw [isTouched, solid, marked, Bool.false_or]
  | true =>
      have outer := other c (List.contains_iff_mem.mp marked)
      exact absurd (outer.symm.trans (inner c member)) Bool.false_ne_true

theorem visible_quoted (chars : List Char) :
    (quoted '"' chars).filter isVisible = quoted '"' (chars.filter isVisible) := by
  have doubled : (double '"' chars).filter isVisible = double '"' (chars.filter isVisible) := by
    induction chars with
    | nil => rfl
    | cons c chars ih =>
        rw [double, List.flatMap_cons, List.filter_append, ← double, ih, List.filter_cons]
        by_cases same : c = '"'
        · subst same
          rfl
        · cases shown : isVisible c <;> simp [double, same, shown]
  have shown : isVisible '"' = true := rfl
  simp [quoted, List.filter_append, shown, doubled]

theorem clean_quoted (chars : List Char) : cleanChars (quoted '"' chars) = chars.filter isVisible := by
  have kept : (quoted '"' chars).filter (fun c => c.toNat != 0x200B) =
      quoted '"' (chars.filter isVisible) := visible_quoted chars
  have trimmed : Text.trimChars (quoted '"' (chars.filter isVisible)) =
      quoted '"' (chars.filter isVisible) := by
    refine Text.trimChars_self _ (fun c head => ?_) (fun c last => ?_)
    · cases head
      rfl
    · rw [quoted_last] at last
      cases last
      rfl
  rw [cleanChars, kept, trimmed]
  simp [quoted, undouble_double]

theorem clean_write (name : String) (legible : Legible name) : clean (write name) = name := by
  rw [write_eq]
  split
  case isTrue bare =>
    rw [clean, clean_bare name.toList (bare_chars name legible.toClear bare).2, String.ofList_toList]
  case isFalse =>
    rw [clean, quote_eq, String.toList_ofList, clean_quoted name.toList,
      visible_all _ legible.visible, String.ofList_toList]

theorem clean_token (name : String) (legible : Legible name) : clean (token name).value = name :=
  clean_write name legible

end TableScript.Identifier
