import TableScript.Proofs.RoundTrip.Groups
import TableScript.Script

/-!
A script as its pieces. The semicolons among the tokens of a script cut both its tokens and its
text, into as many pieces each, and splitting gives the pieces with tokens in order, but for those
that are left out. Nothing else counts where a script is cut, and parentheses do not.
-/

namespace TableScript

theorem map_modifyHead {α β : Type} (image : α → β) (change : α → α) (changed : β → β)
    (follows : ∀ item, image (change item) = changed (image item)) (items : List α) :
    (items.modifyHead change).map image = (items.map image).modifyHead changed := by
  cases items with
  | nil => rfl
  | cons item rest => simp [follows]

theorem splitOnP_apart {α : Type} (isIt : α → Bool) (items : List α) :
    ∀ piece ∈ items.splitOnP isIt, ∀ item ∈ piece, isIt item = false := by
  induction items with
  | nil => simp
  | cons item rest ih =>
      rw [List.splitOnP_cons_eq_if_modifyHead]
      cases here : isIt item with
      | true => exact List.forall_mem_cons.mpr ⟨by simp, ih⟩
      | false =>
          cases found : rest.splitOnP isIt with
          | nil => simp
          | cons piece pieces =>
              rw [found] at ih
              obtain ⟨head, others⟩ := List.forall_mem_cons.mp ih
              exact List.forall_mem_cons.mpr ⟨List.forall_mem_cons.mpr ⟨here, head⟩, others⟩

theorem splitOnP_behind {α : Type} (isIt : α → Bool) (front rest : List α)
    (plain : ∀ item ∈ front, isIt item = false) :
    (front ++ rest).splitOnP isIt = (rest.splitOnP isIt).modifyHead (front ++ ·) := by
  induction front with
  | nil => exact (List.modifyHead_id).symm ▸ rfl
  | cons item front ih =>
      obtain ⟨head, others⟩ := List.forall_mem_cons.mp plain
      rw [List.cons_append, List.splitOnP_cons_eq_if_modifyHead, head, ih others,
        List.modifyHead_modifyHead]
      rfl

/-- Where each separator becomes one separator and all else becomes none, what a list becomes is
cut like the list. -/
theorem splitOnP_flatMap {α β : Type} (isIt : α → Bool) (isOne : β → Bool) (becomes : α → List β)
    (separates : ∀ item, isIt item = true → ∃ one, becomes item = [one] ∧ isOne one = true)
    (others : ∀ item, isIt item = false → ∀ one ∈ becomes item, isOne one = false)
    (items : List α) :
    (items.flatMap becomes).splitOnP isOne = (items.splitOnP isIt).map (·.flatMap becomes) := by
  induction items with
  | nil => rfl
  | cons item rest ih =>
      rw [List.flatMap_cons, List.splitOnP_cons_eq_if_modifyHead]
      cases here : isIt item with
      | true =>
          obtain ⟨one, same, separator⟩ := separates item here
          rw [same, List.singleton_append, List.splitOnP_cons_eq_if_modifyHead, separator, ih]
          rfl
      | false =>
          rw [splitOnP_behind isOne _ _ (others item here), ih, if_neg Bool.false_ne_true]
          exact (map_modifyHead _ _ _ (fun _ => List.flatMap_cons) _).symm

namespace Script

open Lexeme

/-- The token of a semicolon. -/
def semicolon : Token := ⟨.punct, ";"⟩

theorem pieces_eq (lexemes : List Lexeme) : pieces lexemes = lexemes.splitOnP isSeparator := by
  induction lexemes with
  | nil => rfl
  | cons lexeme rest ih =>
      rw [pieces, List.splitOnP_cons_eq_if_modifyHead, ih]
      cases found : rest.splitOnP isSeparator with
      | nil => exact absurd found (List.splitOnP_ne_nil _ _)
      | cons piece others => rfl

theorem separator_parts (lexeme : Lexeme) (separates : isSeparator lexeme = true) :
    lexeme = ⟨.punctuation, [';']⟩ := by
  obtain ⟨kind, chars⟩ := lexeme
  simp only [isSeparator, Bool.and_eq_true, beq_iff_eq] at separates
  obtain ⟨rfl, rfl⟩ := separates
  rfl

theorem separator_tokens (lexeme : Lexeme) (separates : isSeparator lexeme = true) :
    Token.ofLexeme lexeme = [semicolon] := by
  rw [separator_parts lexeme separates]
  rfl

theorem other_tokens (lexeme : Lexeme) (other : isSeparator lexeme = false) :
    semicolon ∉ Token.ofLexeme lexeme := by
  have words : ∀ text : String, semicolon ∉ Token.wordsOf text := by
    intro text member
    obtain ⟨word, _, same⟩ := List.mem_map.mp member
    cases same
  obtain ⟨kind, chars⟩ := lexeme
  cases kind with
  | punctuation =>
      intro member
      have same : String.ofList chars = ";" := by
        simpa [Token.ofLexeme, semicolon, eq_comm] using member
      have spelled : chars = [';'] := by
        rw [← String.toList_ofList (l := chars), same]
        rfl
      rw [spelled] at other
      cases other
  | keyword => exact words _
  | name =>
      simp only [Token.ofLexeme, Token.ofName]
      split
      · simp [semicolon]
      · simp [semicolon]
      · exact words _
  | word =>
      simp only [Token.ofLexeme, Token.ofWord]
      split
      · simp [semicolon]
      · exact words _
  | _ => simp [Token.ofLexeme, semicolon]

/-- The tokens of a script, cut at its semicolons. -/
def groups (script : String) : List (List Token) :=
  (Token.tokenize script).splitOn semicolon

/-- Only the semicolons say where the tokens are cut. -/
theorem groups_filtered (keep : Token → Bool) (kept : keep semicolon = true) (script : String) :
    ((Token.tokenize script).filter keep).splitOn semicolon =
      (pieces (scan script)).map fun piece => (piece.flatMap Token.ofLexeme).filter keep := by
  rw [Token.tokenize, List.filter_flatMap, List.splitOn, pieces_eq]
  rw [splitOnP_flatMap isSeparator _ fun lexeme => (Token.ofLexeme lexeme).filter keep]
  · simp only [List.filter_flatMap]
  · intro lexeme separates
    refine ⟨semicolon, ?_, beq_self_eq_true semicolon⟩
    rw [separator_tokens lexeme separates, List.filter_cons_of_pos kept, List.filter_nil]
  · intro lexeme other token member
    refine beq_eq_false_iff_ne.mpr fun same => other_tokens lexeme other ?_
    exact same ▸ (List.mem_filter.mp member).1

theorem groups_eq (script : String) :
    groups script = (pieces (scan script)).map (·.flatMap Token.ofLexeme) := by
  have whole : ∀ tokens : List Token, tokens.filter (fun _ => true) = tokens :=
    fun tokens => List.filter_eq_self.mpr fun _ _ => rfl
  have all := groups_filtered (fun _ => true) rfl script
  rw [whole] at all
  exact all.trans (List.map_congr_left fun piece _ => whole _)

theorem scanFrom_chars (steps : Nat) (before : Option Char) (chars : List Char)
    (enough : chars.length ≤ steps) :
    (scanFrom steps before chars).flatMap Lexeme.chars = chars := by
  induction steps generalizing before chars with
  | zero =>
      rw [List.eq_nil_of_length_eq_zero (Nat.le_zero.mp enough)]
      rfl
  | succ steps ih =>
      cases chars with
      | nil => rfl
      | cons c rest =>
          have shorter : (rest.drop ((measure ⟨before, c :: rest⟩).2 - 1)).length ≤ steps := by
            simp only [List.length_cons, List.length_drop] at enough ⊢
            omega
          simp only [scanFrom, List.flatMap_cons, List.cons_append]
          rw [ih _ _ shorter, List.take_append_drop]

/-- The lexemes of a script, put together, are the script. -/
theorem scan_chars (script : String) : (scan script).flatMap Lexeme.chars = script.toList :=
  scanFrom_chars _ none script.toList (Nat.le_refl _)

/-- How many characters stand before each separator, if `before` of them stand before all. -/
def separatorsFrom (before : Nat) : List Lexeme → List Nat
  | [] => []
  | lexeme :: rest =>
      let later := separatorsFrom (before + lexeme.chars.length) rest
      if isSeparator lexeme then before :: later else later

/-- The places of a script at which it is cut. -/
def separators (script : String) : List Nat :=
  separatorsFrom 0 (scan script)

/-- What stands in a text before, between and behind some of its places, from `start` on. -/
def between (chars : List Char) (start : Nat) : List Nat → List (List Char)
  | [] => [chars.drop start]
  | place :: places => (chars.drop start).take (place - start) :: between chars (place + 1) places

/-- The text of a script, cut at its separators. -/
def slices (script : String) : List (List Char) :=
  between script.toList 0 (separators script)

theorem separators_behind (before : Nat) (lexemes : List Lexeme) :
    ∀ place ∈ separatorsFrom before lexemes, before ≤ place := by
  induction lexemes generalizing before with
  | nil => simp [separatorsFrom]
  | cons lexeme rest ih =>
      have later : ∀ place ∈ separatorsFrom (before + lexeme.chars.length) rest, before ≤ place :=
        fun place member => Nat.le_trans (Nat.le_add_right _ _) (ih _ place member)
      rw [separatorsFrom]
      split
      · exact List.forall_mem_cons.mpr ⟨Nat.le_refl _, later⟩
      · exact later

/-- A text that begins earlier has a longer first part. -/
theorem between_earlier (front more rest : List Char) (places : List Nat)
    (behind : ∀ place ∈ places, (front ++ more).length ≤ place) :
    between (front ++ more ++ rest) front.length places =
      (between (front ++ more ++ rest) (front ++ more).length places).modifyHead (more ++ ·) := by
  have early : (front ++ more ++ rest).drop front.length = more ++ rest := by
    rw [List.append_assoc, List.drop_left]
  cases places with
  | nil => rw [between, between, early, List.drop_left, List.modifyHead_cons]
  | cons place places =>
      have far := behind place List.mem_cons_self
      have whole : more.take (place - front.length) = more := by
        refine List.take_of_length_le ?_
        rw [List.length_append] at far
        omega
      have count : place - front.length - more.length = place - (front ++ more).length := by
        rw [List.length_append, Nat.sub_sub]
      rw [between, between, early, List.drop_left, List.modifyHead_cons, List.take_append, whole,
        count]

theorem between_pieces (front : List Char) (lexemes : List Lexeme) :
    between (front ++ lexemes.flatMap Lexeme.chars) front.length
        (separatorsFrom front.length lexemes) =
      (pieces lexemes).map (·.flatMap Lexeme.chars) := by
  induction lexemes generalizing front with
  | nil => simp [separatorsFrom, between, pieces]
  | cons lexeme rest ih =>
      have later := ih (front ++ lexeme.chars)
      rw [List.flatMap_cons, ← List.append_assoc, separatorsFrom, ← List.length_append]
      cases separates : isSeparator lexeme with
      | true =>
          have single : (front ++ lexeme.chars).length = front.length + 1 := by
            rw [separator_parts lexeme separates, List.length_append]
            rfl
          have cut : pieces (lexeme :: rest) = [] :: pieces rest := by
            simp [pieces, separates]
          rw [if_pos rfl, between, Nat.sub_self, List.take_zero, cut, List.map_cons, ← later, single]
          rfl
      | false =>
          rw [if_neg Bool.false_ne_true, between_earlier _ _ _ _ (separators_behind _ rest), later,
            pieces_eq, pieces_eq, List.splitOnP_cons_eq_if_modifyHead, separates,
            if_neg Bool.false_ne_true]
          exact (map_modifyHead _ _ _ (fun _ => List.flatMap_cons) _).symm

theorem slices_eq (script : String) :
    slices script = (pieces (scan script)).map (·.flatMap Lexeme.chars) := by
  have parts := between_pieces [] (scan script)
  rwa [List.nil_append, scan_chars] at parts

theorem separators_marked (front : List Char) (lexemes : List Lexeme) :
    ∀ place ∈ separatorsFrom front.length lexemes,
      (front ++ lexemes.flatMap Lexeme.chars)[place]? = some ';' := by
  induction lexemes generalizing front with
  | nil => simp [separatorsFrom]
  | cons lexeme rest ih =>
      have later := ih (front ++ lexeme.chars)
      rw [List.append_assoc, List.length_append] at later
      rw [List.flatMap_cons, separatorsFrom]
      split
      case isTrue separates =>
        refine List.forall_mem_cons.mpr ⟨?_, later⟩
        rw [separator_parts lexeme separates]
        simp
      case isFalse => exact later

/-- The pieces of a script: the trimmed text of each, and its tokens. -/
def cut (script : String) : List RawStatement :=
  List.zipWith (fun slice tokens => ⟨Text.trim (String.ofList slice), tokens⟩)
    (slices script) (groups script)

theorem cut_eq (script : String) : cut script = (pieces (scan script)).map statementOf := by
  rw [cut, slices_eq, groups_eq, List.zipWith_map, List.zipWith_self]
  rfl

def isOccupied (statement : RawStatement) : Bool :=
  !statement.tokens.isEmpty

def isLeftOut (statement : RawStatement) : Bool :=
  isIgnored statement.text

theorem splitPieces_eq (parts : List (List Lexeme)) :
    let occupied := (parts.map statementOf).filter isOccupied
    splitPieces parts = (occupied.filter (!isLeftOut ·), (occupied.filter isLeftOut).map skipped) := by
  induction parts with
  | nil => rfl
  | cons part parts ih =>
      rw [List.map_cons, splitPieces, ih]
      dsimp only
      split
      case isTrue empty => rw [List.filter_cons_of_neg (by simpa [isOccupied] using empty)]
      case isFalse full =>
        rw [List.filter_cons_of_pos (by simpa [isOccupied] using full)]
        split
        case isTrue ignored =>
          have left : isLeftOut (statementOf part) = true := ignored
          rw [List.filter_cons_of_neg (by simp [left]), List.filter_cons_of_pos left, List.map_cons]
        case isFalse heeded =>
          have kept : ¬ isLeftOut (statementOf part) = true := heeded
          rw [List.filter_cons_of_pos (by simpa using kept), List.filter_cons_of_neg kept]

theorem pieces_apart (lexemes : List Lexeme) :
    ∀ piece ∈ pieces lexemes, semicolon ∉ piece.flatMap Token.ofLexeme := by
  intro piece member there
  rw [pieces_eq] at member
  obtain ⟨lexeme, inside, among⟩ := List.mem_flatMap.mp there
  exact other_tokens lexeme (splitOnP_apart isSeparator lexemes piece member lexeme inside) among

/-- Splitting gives the pieces of a script that have tokens and are not left out, in order, and a
record for each that is left out. -/
theorem split_at_semicolons (script : String) :
    let occupied := (cut script).filter isOccupied
    (slices script).length = (groups script).length ∧
      (∀ place ∈ separators script, script.toList[place]? = some ';') ∧
      split script = (occupied.filter (!isLeftOut ·), (occupied.filter isLeftOut).map skipped) ∧
      (∀ statement ∈ (split script).1, statement.tokens ≠ [] ∧ semicolon ∉ statement.tokens) ∧
      ((Token.tokenize script).filter Token.isFlat).splitOn semicolon =
        (groups script).map (·.filter Token.isFlat) := by
  have splits := splitPieces_eq (pieces (scan script))
  rw [← cut_eq] at splits
  refine ⟨?_, ?_, splits, ?_, ?_⟩
  · rw [slices_eq, groups_eq, List.length_map, List.length_map]
  · have marked := separators_marked [] (scan script)
    rwa [List.nil_append, scan_chars] at marked
  · intro statement member
    rw [split, splits] at member
    obtain ⟨among, occupied⟩ := List.mem_filter.mp (List.mem_filter.mp member).1
    rw [cut_eq] at among
    obtain ⟨piece, inside, rfl⟩ := List.mem_map.mp among
    exact ⟨by simpa [isOccupied] using occupied, pieces_apart _ piece inside⟩
  · rw [groups_filtered Token.isFlat rfl, groups_eq, List.map_map]
    rfl

-- A semicolon in a quoted text is none, and an open parenthesis hides none.
example : (split "a (; ; 'b;' ); SET c").1.map (·.text) = ["a (", "'b;' )"] := by
  decide +kernel

end Script

end TableScript
