import TableScript.Proofs.Documents.Escapes
import TableScript.Proofs.Lexing.Words

/-!
Documents written as JSON and read again. A value without numbers is read as what it is, wherever
it stands in a document, as long as there is room for the lists and objects in it; behind it the
reading goes on with whatever follows.
-/

namespace TableScript

namespace Value

/-- A value without numbers, with room for the lists and objects inside of each other, and no key
twice in an object. -/
inductive Plain : Nat → Value → Prop where
  | null {room : Nat} : Plain room .null
  | bool {room : Nat} (flag : Bool) : Plain room (.bool flag)
  | text {room : Nat} (content : String) : Plain room (.text content)
  | list {room : Nat} {items : List Value} (each : ∀ item ∈ items, Plain room item) :
      Plain (room + 1) (.list items)
  | object {room : Nat} {fields : List (String × Value)} (keys : (fields.map Prod.fst).Nodup)
      (each : ∀ field ∈ fields, Plain room field.2) : Plain (room + 1) (.object fields)

def textChars (content : String) : List Char :=
  '"' :: (content.toList.flatMap (jsonChar .none) ++ ['"'])

def breakChars (depth : Nat) : List Char :=
  '\n' :: List.replicate (2 * depth) ' '

/-- A value as it is written inside of so many others. -/
def written (depth : Nat) (value : Value) : List Char :=
  (value.indentedAt .none depth).toList

def fieldChars (depth : Nat) (field : String × Value) : List Char :=
  textChars field.1 ++ ':' :: ' ' :: written depth field.2

-- A further part, on a line of its own.
def nextChars (depth : Nat) (part : List Char) : List Char :=
  ',' :: (breakChars depth ++ part)

/-- The parts of a list or an object behind its first one, up to what closes it, and a tail. -/
def endChars (depth : Nat) (parts : List (List Char)) (closing : Char) (tail : List Char) : List Char :=
  parts.flatMap (nextChars (depth + 1)) ++ (breakChars depth ++ closing :: tail)

theorem endChars_cons (depth : Nat) (part : List Char) (parts : List (List Char)) (closing : Char)
    (tail : List Char) :
    endChars depth (part :: parts) closing tail =
      ',' :: (breakChars (depth + 1) ++ (part ++ endChars depth parts closing tail)) := by
  simp [endChars, nextChars]

theorem endChars_append (depth : Nat) (parts : List (List Char)) (closing : Char) (tail : List Char) :
    endChars depth parts closing [] ++ tail = endChars depth parts closing tail := by
  simp [endChars]

theorem end_length (depth : Nat) (parts : List (List Char)) (closing : Char) :
    2 ≤ (endChars depth parts closing []).length := by
  simp only [endChars, breakChars, List.length_append, List.length_cons]
  omega

theorem jsonText_chars (content : String) : (jsonText .none content).toList = textChars content := by
  simp [jsonText, textChars]

theorem items_map (depth : Nat) (items : List Value) :
    indentedItems .none depth items = items.map (indentedAt .none depth) := by
  induction items with
  | nil => rw [indentedItems, List.map_nil]
  | cons item items ih => rw [indentedItems, ih, List.map_cons]

theorem fields_map (depth : Nat) (fields : List (String × Value)) :
    indentedFields .none depth fields =
      fields.map fun field => jsonText .none field.1 ++ ": " ++ indentedAt .none depth field.2 := by
  induction fields with
  | nil => rw [indentedFields, List.map_nil]
  | cons field fields ih => rw [indentedFields, ih, List.map_cons]

theorem block_chars (depth : Nat) (opening closing : Char) (part : String) (parts : List String) :
    (block depth (String.singleton opening) (String.singleton closing) (part :: parts)).toList =
      opening :: (breakChars (depth + 1) ++
        (part.toList ++ endChars depth (parts.map String.toList) closing [])) := by
  have breaks : ∀ depth, (lineBreak depth).toList = breakChars depth := fun depth =>
    String.toList_ofList
  have others : (String.join (parts.map ("," ++ lineBreak (depth + 1) ++ ·))).toList =
      (parts.map String.toList).flatMap (nextChars (depth + 1)) := by
    induction parts with
    | nil => rfl
    | cons second parts ih =>
        simp [String.join_cons, ih, breaks, nextChars]
  have some : (part :: parts).isEmpty = false := rfl
  rw [block, some, if_neg (by decide), Text.intercalate_cons]
  simp [breaks, others, endChars]

@[simp] theorem written_text (depth : Nat) (content : String) :
    written depth (.text content) = textChars content := by
  rw [written, indentedAt, jsonText_chars]

theorem written_list (depth : Nat) (item : Value) (items : List Value) :
    written depth (.list (item :: items)) =
      '[' :: (breakChars (depth + 1) ++ (written (depth + 1) item ++
        endChars depth (items.map (written (depth + 1))) ']' [])) := by
  have opening : ("[" : String) = String.singleton '[' := rfl
  have closing : ("]" : String) = String.singleton ']' := rfl
  rw [written, indentedAt, items_map, List.map_cons, opening, closing, block_chars, List.map_map]
  rfl

theorem written_object (depth : Nat) (field : String × Value) (fields : List (String × Value)) :
    written depth (.object (field :: fields)) =
      '\x7b' :: (breakChars (depth + 1) ++ (fieldChars (depth + 1) field ++
        endChars depth (fields.map (fieldChars (depth + 1))) '\x7d' [])) := by
  have chars : ∀ field : String × Value, String.toList (jsonText .none field.1 ++ ": " ++
      indentedAt .none (depth + 1) field.2) = fieldChars (depth + 1) field := by
    intro field
    simp [fieldChars, written, jsonText_chars]
  have opening : ("\x7b" : String) = String.singleton '\x7b' := rfl
  have closing : ("\x7d" : String) = String.singleton '\x7d' := rfl
  rw [written, indentedAt, fields_map, List.map_cons, opening, closing, block_chars, List.map_map, chars]
  simp only [Function.comp_def, chars]

@[simp] theorem written_null (depth : Nat) : written depth .null = ['n', 'u', 'l', 'l'] := by
  rw [written, indentedAt]
  rfl

@[simp] theorem written_true (depth : Nat) : written depth (.bool true) = ['t', 'r', 'u', 'e'] := by
  rw [written, indentedAt]
  rfl

@[simp] theorem written_false (depth : Nat) :
    written depth (.bool false) = ['f', 'a', 'l', 's', 'e'] := by
  rw [written, indentedAt]
  rfl

@[simp] theorem written_empty_list (depth : Nat) : written depth (.list []) = ['[', ']'] := by
  rw [written, indentedAt, items_map]
  simp [block]

@[simp] theorem written_empty_object (depth : Nat) :
    written depth (.object []) = ['\x7b', '\x7d'] := by
  rw [written, indentedAt, fields_map]
  simp [block]

theorem written_start (depth : Nat) (value : Value) {room : Nat} (plain : Plain room value) :
    ∃ c rest, written depth value = c :: rest ∧ Reading.isSpace c = false ∧ c ≠ ']' ∧
      c ≠ Char.ofNat 0xFEFF := by
  cases plain with
  | null => exact ⟨'n', _, written_null depth, by decide⟩
  | bool flag =>
      cases flag with
      | false => exact ⟨'f', _, written_false depth, by decide⟩
      | true => exact ⟨'t', _, written_true depth, by decide⟩
  | text content => exact ⟨'"', _, written_text depth content, by decide⟩
  | @list _ items each =>
      cases items with
      | nil => exact ⟨'[', _, written_empty_list depth, by decide⟩
      | cons item items => exact ⟨'[', _, written_list depth item items, by decide⟩
  | @object _ fields keys each =>
      cases fields with
      | nil => exact ⟨'\x7b', _, written_empty_object depth, by decide⟩
      | cons field fields => exact ⟨'\x7b', _, written_object depth field fields, by decide⟩

end Value

namespace Reading

open Value

theorem skip_break (depth position : Nat) (c : Char) (rest : List Char) (solid : isSpace c = false) :
    ∃ after, skipSpaces position (breakChars depth ++ c :: rest) = ⟨after, c :: rest⟩ := by
  have blanks : ∀ count position, ∃ after,
      skipSpaces position (List.replicate count ' ' ++ c :: rest) = ⟨after, c :: rest⟩ := by
    intro count
    induction count with
    | zero => exact fun position => ⟨position, by simp [skipSpaces, solid]⟩
    | succ count ih => exact fun position => ih (position + 1)
  exact blanks (2 * depth) (position + 1)

theorem skip_none (position : Nat) (c : Char) (rest : List Char) (solid : isSpace c = false) :
    skipSpaces position (c :: rest) = ⟨position, c :: rest⟩ := by
  simp [skipSpaces, solid]

variable (standIns : Text.StandIns)

theorem written_longer (content : List Char) :
    content.length ≤ (content.flatMap (jsonChar .none)).length := by
  have occupied : ∀ c, jsonChar .none c ≠ [] := by
    intro c
    rcases char_spelled c with ⟨_, _, spelled⟩ | ⟨_, _, _, spelled⟩ | ⟨_, spelled⟩ | ⟨_, _, spelled⟩ <;>
      simp [spelled, jsonUnit]
  induction content with
  | nil => exact Nat.le_refl 0
  | cons c content ih =>
      have some := List.length_pos_of_ne_nil (occupied c)
      rw [List.flatMap_cons, List.length_append, List.length_cons]
      omega

theorem readText_written (content : String) (position : Nat) (tail : List Char) :
    ∃ after, readText standIns ⟨position, content.toList.flatMap (jsonChar .none) ++ '"' :: tail⟩ =
      .ok (content, ⟨after, tail⟩) := by
  have enough : content.toList.length <
      (content.toList.flatMap (jsonChar .none) ++ '"' :: tail).length := by
    have longer := written_longer content.toList
    rw [List.length_append, List.length_cons]
    omega
  obtain ⟨after, read⟩ := textBody_written standIns (position - 1) _ position tail [] content.toList enough
  exact ⟨after, by simpa [readText] using read⟩

/-- A value is read as what it is, wherever it stands. -/
def Restores (room : Nat) (value : Value) : Prop :=
  ∀ depth fuel position tail, 2 * (written depth value).length ≤ fuel →
    ∃ after, readValue standIns fuel room ⟨position, written depth value ++ tail⟩ =
      .ok (value, ⟨after, tail⟩)

theorem restores_text (room : Nat) (content : String) : Restores standIns room (.text content) := by
  intro depth fuel position tail enough
  obtain ⟨fuel, rfl⟩ : ∃ before, fuel = before + 1 :=
    Nat.exists_eq_succ_of_ne_zero (by rintro rfl; simp [textChars] at enough)
  obtain ⟨after, read⟩ := readText_written standIns content (position + 1) tail
  refine ⟨after, ?_⟩
  simp [textChars, readValue, read, Except.map]

theorem restores_scalar (room : Nat) (value : Value) (c : Char) (word : List Char)
    (spelled : ∀ depth, written depth value = c :: word) (opens : c ∉ ['"', '[', '\x7b'])
    (known : ∀ tail, constant? (c :: (word ++ tail)) = some (.ok value, tail)) :
    Restores standIns room value := by
  intro depth fuel position tail enough
  simp only [List.mem_cons, List.not_mem_nil, or_false, not_or] at opens
  rw [spelled depth] at enough ⊢
  obtain ⟨fuel, rfl⟩ : ∃ before, fuel = before + 1 :=
    Nat.exists_eq_succ_of_ne_zero (by rintro rfl; simp at enough)
  refine ⟨position + (word.length + 1), ?_⟩
  have scalar : scalar ⟨position, c :: (word ++ tail)⟩ =
      .ok (value, ⟨position + (word.length + 1), tail⟩) := by
    simp [Reading.scalar, known tail, Except.map]
    omega
  rw [List.cons_append, ← scalar]
  unfold readValue
  split <;> simp_all

theorem restores_null (room : Nat) : Restores standIns room .null :=
  restores_scalar standIns room .null 'n' _ written_null (by decide) fun _ => rfl

theorem restores_bool (room : Nat) (flag : Bool) : Restores standIns room (.bool flag) := by
  cases flag with
  | false =>
      exact restores_scalar standIns room (.bool false) 'f' _ written_false (by decide) fun _ => rfl
  | true => exact restores_scalar standIns room (.bool true) 't' _ written_true (by decide) fun _ => rfl

theorem readItems_written (room depth : Nat) (items : List Value) (item : Value)
    (plain : ∀ each ∈ item :: items, Plain room each)
    (restores : ∀ each ∈ item :: items, Restores standIns room each) (fuel position : Nat)
    (tail : List Char) (done : List Value)
    (enough : 2 * (written (depth + 1) item ++
      endChars depth (items.map (written (depth + 1))) ']' []).length ≤ fuel) :
    ∃ after, readItems standIns fuel room ⟨position, written (depth + 1) item ++
        endChars depth (items.map (written (depth + 1))) ']' tail⟩ done =
      .ok (.list (done.reverse ++ item :: items), ⟨after, tail⟩) := by
  have closed := end_length depth (items.map (written (depth + 1))) ']'
  rw [List.length_append] at enough
  obtain ⟨fuel, rfl⟩ : ∃ before, fuel = before + 1 := ⟨fuel - 1, by omega⟩
  induction items generalizing item fuel position done with
  | nil =>
      obtain ⟨middle, read⟩ := restores item (by simp) (depth + 1) fuel position
        (endChars depth [] ']' tail) (by omega)
      obtain ⟨last, skipped⟩ := skip_break depth middle ']' tail rfl
      refine ⟨last + 1, ?_⟩
      rw [List.map_nil, readItems, read]
      simp [endChars, Cursor.skip, skipped]
  | cons second items ih =>
      obtain ⟨_, others⟩ := List.forall_mem_cons.mp plain
      obtain ⟨restoresItem, restoresOthers⟩ := List.forall_mem_cons.mp restores
      rw [List.map_cons, endChars_cons] at enough ⊢
      simp only [breakChars, List.length_append, List.length_cons] at enough
      have closed := end_length depth (items.map (written (depth + 1))) ']'
      obtain ⟨middle, read⟩ := restoresItem (depth + 1) fuel position
        (',' :: (breakChars (depth + 1) ++ (written (depth + 1) second ++
          endChars depth (items.map (written (depth + 1))) ']' tail))) (by omega)
      obtain ⟨c, rest, split, solid, _⟩ := written_start (depth + 1) second (others second (by simp))
      obtain ⟨start, skipped⟩ := skip_break (depth + 1) (middle + 1) c
        (rest ++ endChars depth (items.map (written (depth + 1))) ']' tail) solid
      rw [← List.cons_append, ← split] at skipped
      obtain ⟨fuel, rfl⟩ : ∃ before, fuel = before + 1 := ⟨fuel - 1, by omega⟩
      obtain ⟨after, later⟩ := ih second others restoresOthers start (item :: done) closed fuel (by omega)
      refine ⟨after, ?_⟩
      rw [readItems, read]
      simp only [Cursor.skip, skip_none middle ',' _ rfl, skipped, later]
      simp

theorem put_new (key : String) (value : Value) (fields : List (String × Value))
    (new : key ∉ fields.map Prod.fst) : Value.put key value fields = fields ++ [(key, value)] := by
  induction fields with
  | nil => rfl
  | cons field fields ih =>
      rw [List.map_cons, List.mem_cons, not_or] at new
      rw [Value.put, if_neg (Ne.symm new.1), ih new.2, List.cons_append]

/-- How the fields go on at a cursor behind the value of one of them. -/
def fieldsBehind (fuel room : Nat) (done : List (String × Value)) (cursor : Cursor) : Result Value :=
  match cursor.rest with
  | '\x7d' :: rest => .ok (.object done, ⟨cursor.position + 1, rest⟩)
  | ',' :: rest => readFields standIns fuel room (skipSpaces (cursor.position + 1) rest) done
  | _ => failAt .comma cursor

theorem readFields_field (room depth : Nat) (field : String × Value) (plain : Plain room field.2)
    (restores : Restores standIns room field.2) (fuel position : Nat) (more : List Char)
    (done : List (String × Value)) (enough : 2 * (written depth field.2).length ≤ fuel) :
    ∃ middle, readFields standIns (fuel + 1) room ⟨position, fieldChars depth field ++ more⟩ done =
      fieldsBehind standIns fuel room (Value.put field.1 field.2 done) (skipSpaces middle more) := by
  obtain ⟨key, value⟩ := field
  obtain ⟨afterKey, readKey⟩ := readText_written standIns key (position + 1)
    (':' :: ' ' :: (written depth value ++ more))
  obtain ⟨c, rest, split, solid, _⟩ := written_start depth value plain
  have space : skipSpaces (afterKey + 1) (' ' :: (written depth value ++ more)) =
      ⟨afterKey + 2, written depth value ++ more⟩ := by
    rw [split]
    exact skip_none (afterKey + 2) c (rest ++ more) solid
  obtain ⟨middle, read⟩ := restores depth fuel (afterKey + 2) more enough
  refine ⟨middle, ?_⟩
  have chars : fieldChars depth (key, value) ++ more = '"' :: (key.toList.flatMap (jsonChar .none) ++
      '"' :: ':' :: ' ' :: (written depth value ++ more)) := by
    simp [fieldChars, textChars]
  rw [chars, readFields]
  simp only [readKey, Cursor.skip, skip_none afterKey ':' _ rfl, space, read]
  rfl

theorem field_longer (depth : Nat) (field : String × Value) :
    (written depth field.2).length ≤ (fieldChars depth field).length := by
  simp only [fieldChars, List.length_append, List.length_cons]
  omega

theorem new_key (done : List (String × Value)) (field : String × Value) (fields : List (String × Value))
    (keys : ((done ++ field :: fields).map Prod.fst).Nodup) : field.1 ∉ done.map Prod.fst := by
  intro member
  rw [List.map_append, List.nodup_append] at keys
  exact keys.2.2 field.1 member field.1 (by simp) rfl

theorem readFields_written (room depth : Nat) (fields : List (String × Value)) (field : String × Value)
    (plain : ∀ each ∈ field :: fields, Plain room each.2)
    (restores : ∀ each ∈ field :: fields, Restores standIns room each.2) (fuel position : Nat)
    (tail : List Char) (done : List (String × Value))
    (keys : ((done ++ field :: fields).map Prod.fst).Nodup)
    (enough : 2 * (fieldChars (depth + 1) field ++
      endChars depth (fields.map (fieldChars (depth + 1))) '\x7d' []).length ≤ fuel) :
    ∃ after, readFields standIns fuel room ⟨position, fieldChars (depth + 1) field ++
        endChars depth (fields.map (fieldChars (depth + 1))) '\x7d' tail⟩ done =
      .ok (.object (done ++ field :: fields), ⟨after, tail⟩) := by
  have closed := end_length depth (fields.map (fieldChars (depth + 1))) '\x7d'
  rw [List.length_append] at enough
  obtain ⟨fuel, rfl⟩ : ∃ before, fuel = before + 1 := ⟨fuel - 1, by omega⟩
  induction fields generalizing field fuel position done with
  | nil =>
      have value := field_longer (depth + 1) field
      obtain ⟨middle, read⟩ := readFields_field standIns room (depth + 1) field (plain field (by simp))
        (restores field (by simp)) fuel position (endChars depth [] '\x7d' tail) done (by omega)
      obtain ⟨last, skipped⟩ := skip_break depth middle '\x7d' tail rfl
      refine ⟨last + 1, ?_⟩
      rw [List.map_nil, read, put_new field.1 field.2 done (new_key done field [] keys)]
      simp [endChars, skipped, fieldsBehind]
  | cons second fields ih =>
      obtain ⟨_, others⟩ := List.forall_mem_cons.mp plain
      obtain ⟨restoresField, restoresOthers⟩ := List.forall_mem_cons.mp restores
      rw [List.map_cons, endChars_cons] at enough ⊢
      simp only [breakChars, List.length_append, List.length_cons] at enough
      have closed := end_length depth (fields.map (fieldChars (depth + 1))) '\x7d'
      have value := field_longer (depth + 1) field
      obtain ⟨middle, read⟩ := readFields_field standIns room (depth + 1) field (plain field (by simp))
        restoresField fuel position (',' :: (breakChars (depth + 1) ++ (fieldChars (depth + 1) second ++
          endChars depth (fields.map (fieldChars (depth + 1))) '\x7d' tail))) done (by omega)
      obtain ⟨start, skipped⟩ : ∃ start, skipSpaces (middle + 1) (breakChars (depth + 1) ++
          (fieldChars (depth + 1) second ++ endChars depth (fields.map (fieldChars (depth + 1))) '\x7d' tail)) =
          ⟨start, fieldChars (depth + 1) second ++
            endChars depth (fields.map (fieldChars (depth + 1))) '\x7d' tail⟩ :=
        skip_break (depth + 1) (middle + 1) '"' _ rfl
      obtain ⟨fuel, rfl⟩ : ∃ before, fuel = before + 1 := ⟨fuel - 1, by omega⟩
      obtain ⟨after, later⟩ := ih second others restoresOthers start (done ++ [field])
        (by simpa using keys) closed fuel (by omega)
      refine ⟨after, ?_⟩
      rw [read, put_new field.1 field.2 done (new_key done field (second :: fields) keys)]
      simp only [fieldsBehind, skip_none middle ',' _ rfl, skipped, later]
      simp

theorem restores_list (room : Nat) (items : List Value) (plain : ∀ item ∈ items, Plain room item)
    (restores : ∀ item ∈ items, Restores standIns room item) :
    Restores standIns (room + 1) (.list items) := by
  intro depth fuel position tail enough
  cases items with
  | nil =>
      rw [written_empty_list] at enough ⊢
      obtain ⟨fuel, rfl⟩ : ∃ before, fuel = before + 1 := ⟨fuel - 1, by simp at enough; omega⟩
      exact ⟨position + 2, by simp [readValue, skipSpaces, isSpace]⟩
  | cons item items =>
      rw [written_list] at enough ⊢
      simp only [List.length_cons, List.length_append] at enough
      obtain ⟨fuel, rfl⟩ : ∃ before, fuel = before + 1 := ⟨fuel - 1, by omega⟩
      obtain ⟨c, rest, split, solid, open_, _⟩ := written_start (depth + 1) item (plain item (by simp))
      obtain ⟨start, skipped⟩ := skip_break (depth + 1) (position + 1) c
        (rest ++ endChars depth (items.map (written (depth + 1))) ']' tail) solid
      obtain ⟨after, read⟩ := readItems_written standIns room depth items item plain restores fuel start
        tail [] (by rw [List.length_append]; omega)
      refine ⟨after, ?_⟩
      rw [split] at read ⊢
      simp only [List.cons_append, List.append_assoc, endChars_append, readValue, skipped] at read ⊢
      split
      case h_1 same =>
        cases same
        exact absurd rfl open_
      case h_2 => exact read

theorem restores_object (room : Nat) (fields : List (String × Value))
    (keys : (fields.map Prod.fst).Nodup) (plain : ∀ field ∈ fields, Plain room field.2)
    (restores : ∀ field ∈ fields, Restores standIns room field.2) :
    Restores standIns (room + 1) (.object fields) := by
  intro depth fuel position tail enough
  cases fields with
  | nil =>
      rw [written_empty_object] at enough ⊢
      obtain ⟨fuel, rfl⟩ : ∃ before, fuel = before + 1 := ⟨fuel - 1, by simp at enough; omega⟩
      exact ⟨position + 2, by simp [readValue, skipSpaces, isSpace]⟩
  | cons field fields =>
      rw [written_object] at enough ⊢
      simp only [List.length_cons, List.length_append] at enough
      obtain ⟨fuel, rfl⟩ : ∃ before, fuel = before + 1 := ⟨fuel - 1, by omega⟩
      obtain ⟨rest, split⟩ : ∃ rest, fieldChars (depth + 1) field = '"' :: rest := ⟨_, rfl⟩
      obtain ⟨start, skipped⟩ := skip_break (depth + 1) (position + 1) '"'
        (rest ++ endChars depth (fields.map (fieldChars (depth + 1))) '\x7d' tail) rfl
      obtain ⟨after, read⟩ := readFields_written standIns room depth fields field plain restores fuel
        start tail [] keys (by rw [List.length_append]; omega)
      refine ⟨after, ?_⟩
      rw [split] at read ⊢
      simp only [List.cons_append, List.append_assoc, endChars_append, readValue, skipped] at read ⊢
      exact read

/-- A value without numbers is read as what it is. -/
theorem plain_restores {room : Nat} {value : Value} (plain : Plain room value) :
    Restores standIns room value := by
  induction plain with
  | @null room => exact restores_null standIns room
  | @bool room flag => exact restores_bool standIns room flag
  | @text room content => exact restores_text standIns room content
  | @list room items each ih => exact restores_list standIns room items each ih
  | @object room fields keys each ih => exact restores_object standIns room fields keys each ih

end Reading

/-- The JSON text of a value without numbers is read as that value. -/
theorem Value.read_written (standIns : Text.StandIns) (value : Value)
    (plain : Plain Reading.deepest value) :
    Value.read standIns (value.indented .none) = .ok value := by
  have chars : (value.indented .none).toList = Value.written 0 value := rfl
  obtain ⟨c, rest, split, solid, _, mark⟩ := Value.written_start 0 value plain
  obtain ⟨after, read⟩ := Reading.plain_restores standIns plain 0
    (2 * (Value.written 0 value).length + 2) 0 [] (by omega)
  rw [List.append_nil, split] at read
  have unmarked : (c :: rest).head? ≠ some (Char.ofNat 0xFEFF) := by simpa using mark
  simp only [Value.read, chars, split, beq_iff_eq, if_neg unmarked, Reading.skip_none 0 c rest solid, read]
  rfl

/-- A whole document without numbers is read as it was, and nothing in it stands for anything else. -/
theorem Document.read_written (value : Value) (plain : Value.Plain Reading.deepest value) :
    Document.read (value.indented .none) = .ok ⟨value, .none⟩ := by
  simp [Document.read, Value.read_written _ value plain, Except.map]

end TableScript
