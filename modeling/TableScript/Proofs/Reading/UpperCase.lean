import TableScript.Proofs.RoundTrip.Name

/-!
Upper-case forms of names. What a character becomes in upper case stays as it is in upper case, and
upper case neither makes nor takes away a character that cleaning a name goes by. So a name can be
cleaned before it is put in upper case or after that.
-/

namespace TableScript.Text

/-- The form of the last character of a run. -/
def CaseRun.lastForm (run : CaseRun) : Nat :=
  run.image + (run.last - run.first)

/-- All forms of a run stand before a range of characters, or all behind it. -/
def CaseRun.clears (run : CaseRun) (low high : Nat) : Bool :=
  Nat.blt run.lastForm low || Nat.blt high run.image

/-- No form of a run is a character of another one. Where every other character is in a run, the
forms may be those between them. -/
def CaseRun.apart (run other : CaseRun) : Bool :=
  run.clears other.first other.last ||
    ((Nat.beq run.step 2 || Nat.beq run.first run.last) && Nat.beq other.step 2 &&
      Nat.beq ((run.image + other.first) % 2) 1)

theorem covers_iff (run : CaseRun) (code : Nat) :
    run.covers code = true ↔
      run.first ≤ code ∧ code ≤ run.last ∧ (code - run.first) % run.step = 0 := by
  simp [CaseRun.covers, and_assoc]

theorem upperRun_eq (code : Nat) : upperRun? code = upperRuns.find? (·.covers code) := rfl

theorem form_between (run : CaseRun) (code : Nat) (covered : run.covers code = true) :
    run.image ≤ run.form code ∧ run.form code ≤ run.lastForm := by
  have inside := (covers_iff run code).mp covered
  simp only [CaseRun.form, CaseRun.lastForm]
  omega

theorem form_cleared (run : CaseRun) (code low high : Nat) (covered : run.covers code = true)
    (cleared : run.clears low high = true) : run.form code < low ∨ high < run.form code := by
  have between := form_between run code covered
  simp only [CaseRun.clears, Bool.or_eq_true, Nat.blt_eq] at cleared
  omega

theorem form_uncovered (run other : CaseRun) (code : Nat) (covered : run.covers code = true)
    (apart : run.apart other = true) : other.covers (run.form code) = false := by
  refine Bool.eq_false_iff.mpr fun inside => ?_
  have there := (covers_iff other _).mp inside
  rcases Bool.or_eq_true_iff.mp apart with cleared | odd
  · have outside := form_cleared run code _ _ covered cleared
    omega
  · have here := (covers_iff run code).mp covered
    simp only [Bool.and_eq_true, Bool.or_eq_true, Nat.beq_eq] at odd
    obtain ⟨⟨stepped | single, two⟩, odd⟩ := odd
    · rw [stepped] at here
      rw [two, CaseRun.form] at there
      omega
    · rw [two, CaseRun.form] at there
      omega

/-- The characters that cleaning a name goes by, blanks apart. -/
def markCodes : List Nat :=
  [0x22, 0x5B, 0x5D, 0x60, 0x200B]

/-- The forms of a run are characters, have no other upper-case forms themselves, and are none that
cleaning a name goes by. -/
structure CaseRun.Final (run : CaseRun) : Prop where
  valid : run.lastForm < 0xD800 ∨ 0xDFFF < run.image ∧ run.lastForm < 0x110000
  capital : run.clears 97 122 = true
  apart : ∀ other ∈ upperRuns, run.apart other = true
  single : ∀ entry ∈ upperExpansions, run.clears entry.1 entry.1 = true
  unnoted : ∀ code ∈ blankCodes ++ markCodes, run.clears code code = true

def CaseRun.isFinal (run : CaseRun) : Bool :=
  (run.lastForm < 0xD800 || 0xDFFF < run.image && run.lastForm < 0x110000) &&
    run.clears 97 122 && upperRuns.all run.apart &&
    (upperExpansions.all fun entry => run.clears entry.1 entry.1) &&
    (blankCodes ++ markCodes).all fun code => run.clears code code

theorem final_parts (run : CaseRun) (final : run.isFinal = true) : run.Final := by
  simp only [CaseRun.isFinal, Bool.and_eq_true, Bool.or_eq_true, decide_eq_true_eq,
    List.all_eq_true] at final
  obtain ⟨⟨⟨⟨valid, capital⟩, apart⟩, single⟩, unnoted⟩ := final
  exact ⟨valid, capital, apart, single, unnoted⟩

theorem runs_final : (upperRuns.all CaseRun.isFinal) = true := by decide +kernel

-- A single character is a run of its own here.
theorem expansions_final :
    (upperExpansions.all fun entry =>
      !entry.2.isEmpty && entry.2.all fun code => CaseRun.isFinal ⟨code, code, 1, code⟩) = true := by
  decide +kernel

/-- A character that is its own upper-case form, and none that cleaning a name goes by. -/
structure Settled (c : Char) : Prop where
  own : upperChar c = [c]
  unnoted : c.toNat ∉ blankCodes ++ markCodes

theorem toUpper_self (c : Char) (ascii : c.toNat < 128) (other : c.toNat < 97 ∨ 122 < c.toNat) :
    c.toUpper = c := by
  have each : ∀ c : Char, c.toNat < 128 → c.toUpper = c ∨ 97 ≤ c.toNat ∧ c.toNat ≤ 122 :=
    ascii_cases _ (by decide)
  rcases each c ascii with same | lower
  · exact same
  · omega

theorem upper_single (c : Char) (ascii : c.toNat < 128) : upperChar c = [c.toUpper] :=
  if_pos ascii

theorem ascii_settled (c : Char) (ascii : c.toNat < 128) :
    c.toUpper = c ∨ Settled c.toUpper := by
  have each : ∀ c : Char, c.toNat < 128 →
      c.toUpper = c ∨ 65 ≤ c.toUpper.toNat ∧ c.toUpper.toNat ≤ 90 := ascii_cases _ (by decide)
  refine (each c ascii).imp_right fun capital => ⟨?_, fun member => ?_⟩
  · have ascii : c.toUpper.toNat < 128 := by omega
    rw [upper_single _ ascii, toUpper_self _ ascii (by omega)]
  · have outside : ∀ code ∈ blankCodes ++ markCodes, code < 65 ∨ 90 < code := by decide
    have apart := outside _ member
    omega

theorem code_ofNat (code : Nat) (valid : code.isValidChar) : (Char.ofNat code).toNat = code := by
  rw [Char.ofNat, dif_pos valid]
  rfl

theorem code_form (run : CaseRun) (code : Nat) (covered : run.covers code = true)
    (final : run.Final) : (Char.ofNat (run.form code)).toNat = run.form code := by
  have between := form_between run code covered
  have valid := final.valid
  refine code_ofNat _ ?_
  simp only [Nat.isValidChar]
  omega

theorem form_settled (run : CaseRun) (code : Nat) (covered : run.covers code = true)
    (final : run.Final) : Settled (Char.ofNat (run.form code)) := by
  have same := code_form run code covered final
  generalize Char.ofNat (run.form code) = form at same ⊢
  refine ⟨?_, fun member => ?_⟩
  · by_cases ascii : form.toNat < 128
    · have other := form_cleared run code _ _ covered final.capital
      rw [upper_single form ascii, toUpper_self form ascii (same ▸ other)]
    · have noRun : upperRun? form.toNat = none := by
        rw [upperRun_eq, same]
        refine List.find?_eq_none.mpr fun other member => ?_
        exact Bool.not_eq_true _ ▸ form_uncovered run other code covered (final.apart other member)
      have noExpansion : upperExpansions.lookup form.toNat = none := by
        refine List.lookup_eq_none_iff.mpr fun entry member => bne_iff_ne.mpr fun equal => ?_
        have outside := form_cleared run code _ _ covered (final.single entry member)
        omega
      rw [upperChar, if_neg ascii, noRun, noExpansion]
  · have outside := form_cleared run code _ _ covered (final.unnoted _ member)
    omega

theorem expansion_settled (entry : Nat × List Nat) (member : entry ∈ upperExpansions) :
    entry.2 ≠ [] ∧ ∀ code ∈ entry.2, Settled (Char.ofNat code) := by
  have final := List.all_eq_true.mp expansions_final entry member
  simp only [Bool.and_eq_true, Bool.not_eq_true', List.isEmpty_eq_false_iff, List.all_eq_true] at final
  refine ⟨final.1, fun code inside => ?_⟩
  have alone : CaseRun.form ⟨code, code, 1, code⟩ code = code := by simp [CaseRun.form]
  have covered : CaseRun.covers ⟨code, code, 1, code⟩ code = true := by simp [CaseRun.covers]
  have settled := form_settled _ code covered (final_parts _ (final.2 code inside))
  rwa [alone] at settled

/-- A character is its own upper-case form, or all its forms are settled. -/
theorem upperChar_cases (c : Char) :
    upperChar c = [c] ∨ upperChar c ≠ [] ∧ ∀ form ∈ upperChar c, Settled form := by
  by_cases ascii : c.toNat < 128
  · rw [upper_single c ascii]
    rcases ascii_settled c ascii with same | settled
    · exact Or.inl (by rw [same])
    · exact Or.inr (by simpa using settled)
  rw [upperChar, if_neg ascii]
  cases found : upperRun? c.toNat with
  | some run =>
      rw [upperRun_eq] at found
      have final := List.all_eq_true.mp runs_final run (List.mem_of_find?_eq_some found)
      have covered := List.find?_some found
      have settled := form_settled run c.toNat covered (final_parts run final)
      exact Or.inr (by simpa [CaseRun.form] using settled)
  | none =>
      cases expanded : upperExpansions.lookup c.toNat with
      | none => exact Or.inl rfl
      | some codes =>
          obtain ⟨before, after, split, _⟩ := List.lookup_eq_some_iff.mp expanded
          obtain ⟨occupied, settled⟩ := expansion_settled (c.toNat, codes) (by simp [split])
          exact Or.inr ⟨by simpa using occupied, by simpa using settled⟩

theorem upperChar_occupied (c : Char) : upperChar c ≠ [] := by
  rcases upperChar_cases c with same | ⟨occupied, _⟩
  · simp [same]
  · exact occupied

@[simp] theorem upper_upper (text : String) : upper (upper text) = upper text := by
  have each : ∀ c, (upperChar c).flatMap upperChar = upperChar c := by
    intro c
    rcases upperChar_cases c with same | ⟨_, settled⟩
    · rw [same, List.flatMap_singleton, same]
    · rw [List.flatMap_congr fun form there => (settled form there).own, List.flatMap_singleton']
  rw [upper, upper, String.toList_ofList, List.flatMap_assoc]
  exact congrArg String.ofList (List.flatMap_congr fun c _ => each c)

@[simp] theorem upper_append (first second : String) :
    upper (first ++ second) = upper first ++ upper second := by
  simp [upper]

@[simp] theorem upper_eq_empty (text : String) : upper text = "" ↔ text = "" := by
  rw [upper, ← String.toList_inj, String.toList_ofList]
  constructor
  · intro empty
    cases chars : text.toList with
    | nil => exact String.toList_inj.mp chars
    | cons c rest =>
        rw [chars, List.flatMap_cons] at empty
        exact absurd (List.append_eq_nil_iff.mp empty).1 (upperChar_occupied c)
  · rintro rfl
    rfl

end TableScript.Text

namespace TableScript.Identifier

open Text

/-- The characters that cleaning goes by: those it touches, and the bracket that closes a name. -/
def isNoted (c : Char) : Bool :=
  isTouched c || c == ']'

theorem noted_code (c : Char) (noted : isNoted c = true) : c.toNat ∈ blankCodes ++ markCodes := by
  have marks : ∀ c ∈ ['"', '\x60', '[', '\u200B', ']'], c.toNat ∈ markCodes :=
    each_char _ _ (by decide)
  rw [isNoted, isTouched, Bool.or_eq_true, Bool.or_eq_true, List.contains_iff_mem, beq_iff_eq] at noted
  rcases noted with (blank | mark) | rfl
  · exact List.mem_append_left _ (blank_code c blank)
  · exact List.mem_append_right _ (marks c (List.mem_append_left [']'] mark))
  · exact List.mem_append_right _ (marks ']' (by simp))

theorem upper_noted (c : Char) (noted : isNoted c = true) : upperChar c = [c] := by
  have each : ∀ code ∈ blankCodes ++ markCodes, upperChar (Char.ofNat code) = [Char.ofNat code] := by
    decide +kernel
  have same := each c.toNat (noted_code c noted)
  rwa [Char.ofNat_toNat] at same

theorem noted_form (c form : Char) (there : form ∈ upperChar c) :
    form = c ∨ isNoted form = false ∧ isNoted c = false := by
  rcases upperChar_cases c with same | ⟨_, settled⟩
  · rw [same] at there
    exact Or.inl (List.mem_singleton.mp there)
  · cases noted : isNoted c with
    | true =>
        rw [upper_noted c noted] at there
        exact Or.inl (List.mem_singleton.mp there)
    | false =>
        have unnoted : isNoted form = false :=
          Bool.eq_false_iff.mpr fun noted => (settled form there).unnoted (noted_code form noted)
        exact Or.inr ⟨unnoted, rfl⟩

section Forms

variable {forms : Char → List Char} {accepts : Char → Bool}

/-- A test that comes out for each form of a character as for the character itself. -/
def Keeps (forms : Char → List Char) (accepts : Char → Bool) : Prop :=
  ∀ c, forms c ≠ [] ∧ ∀ form ∈ forms c, accepts form = accepts c

theorem keeps_noted (only : ∀ c, accepts c = true → isNoted c = true) : Keeps upperChar accepts := by
  intro c
  refine ⟨upperChar_occupied c, fun form there => ?_⟩
  rcases noted_form c form there with rfl | ⟨unnoted, unnoted'⟩
  · rfl
  · have refused : ∀ d, isNoted d = false → accepts d = false := fun d unnoted =>
      Bool.eq_false_iff.mpr fun accepted =>
        Bool.false_ne_true (unnoted.symm.trans (only d accepted))
    rw [refused form unnoted, refused c unnoted']

theorem Keeps.reversed (keeps : Keeps forms accepts) : Keeps (List.reverse ∘ forms) accepts :=
  fun c => ⟨by simpa using (keeps c).1, fun form there => (keeps c).2 form (by simpa using there)⟩

theorem filter_forms (keeps : Keeps forms accepts) (chars : List Char) :
    (chars.flatMap forms).filter accepts = (chars.filter accepts).flatMap forms := by
  induction chars with
  | nil => rfl
  | cons c chars ih =>
      rw [List.flatMap_cons, List.filter_append, ih]
      cases accepted : accepts c with
      | true =>
          have all : (forms c).filter accepts = forms c :=
            List.filter_eq_self.mpr fun form there => ((keeps c).2 form there).trans accepted
          rw [all, List.filter_cons_of_pos accepted, List.flatMap_cons]
      | false =>
          have none_left : (forms c).filter accepts = [] :=
            List.filter_eq_nil_iff.mpr fun form there => by simp [(keeps c).2 form there, accepted]
          rw [none_left, List.filter_cons_of_neg (by simp [accepted]), List.nil_append]

theorem dropWhile_forms (keeps : Keeps forms accepts) (chars : List Char) :
    (chars.flatMap forms).dropWhile accepts = (chars.dropWhile accepts).flatMap forms := by
  induction chars with
  | nil => rfl
  | cons c chars ih =>
      rw [List.flatMap_cons]
      cases accepted : accepts c with
      | true =>
          rw [List.dropWhile_append_of_pos fun form there => ((keeps c).2 form there).trans accepted,
            ih, List.dropWhile_cons_of_pos accepted]
      | false =>
          obtain ⟨form, more, split⟩ := List.exists_cons_of_ne_nil (keeps c).1
          have refused : accepts form = false :=
            ((keeps c).2 form (by simp [split])).trans accepted
          rw [List.dropWhile_cons_of_neg (by simp [accepted]), List.flatMap_cons, split,
            List.cons_append, List.dropWhile_cons_of_neg (by simp [refused])]

theorem head_forms {quote : Char} (keeps : Keeps forms (· == quote)) (chars : List Char) :
    (chars.flatMap forms).head? = some quote ↔ chars.head? = some quote := by
  cases chars with
  | nil => rfl
  | cons c chars =>
      obtain ⟨form, more, split⟩ := List.exists_cons_of_ne_nil (keeps c).1
      have same := (keeps c).2 form (by simp [split])
      simpa [split] using Bool.eq_iff_iff.mp same

theorem last_forms {quote : Char} (keeps : Keeps forms (· == quote)) (chars : List Char) :
    (chars.flatMap forms).getLast? = some quote ↔ chars.getLast? = some quote := by
  rw [← List.head?_reverse, List.reverse_flatMap, head_forms keeps.reversed, List.head?_reverse]

end Forms

theorem visible_upper (chars : List Char) :
    (chars.flatMap upperChar).filter isVisible = (chars.filter isVisible).flatMap upperChar := by
  refine filter_forms (fun c => ?_) chars
  have keeps : Keeps upperChar fun c => c.toNat == 0x200B := keeps_noted fun c hidden => by
    have zeroWidth : c = '\u200B' := by rw [← Char.ofNat_toNat c, beq_iff_eq.mp hidden]
    rw [zeroWidth]
    rfl
  exact ⟨(keeps c).1, fun form there => congrArg not ((keeps c).2 form there)⟩

theorem trim_upper (chars : List Char) :
    trimChars (chars.flatMap upperChar) = (trimChars chars).flatMap upperChar := by
  have keeps : Keeps upperChar isBlank := keeps_noted fun c blank => by simp [isNoted, isTouched, blank]
  rw [trimChars, dropWhile_forms keeps, List.reverse_flatMap, dropWhile_forms keeps.reversed,
    List.reverse_flatMap, ← Function.comp_assoc, List.reverse_involutive.comp_self, Function.id_comp,
    trimChars]

section Quotes

variable (quote : Char)

theorem undouble_other (c : Char) (rest : List Char) (other : c ≠ quote) :
    undouble quote (c :: rest) = c :: undouble quote rest := by
  cases rest <;> simp [undouble, other]

theorem undouble_behind (front rest : List Char) (other : ∀ c ∈ front, c ≠ quote) :
    undouble quote (front ++ rest) = front ++ undouble quote rest := by
  induction front with
  | nil => rfl
  | cons c front ih =>
      obtain ⟨head, others⟩ := List.forall_mem_cons.mp other
      rw [List.cons_append, undouble_other quote c _ head, ih others, List.cons_append]

theorem undouble_single (rest : List Char) (single : rest.head? ≠ some quote) :
    undouble quote (quote :: rest) = quote :: undouble quote rest := by
  cases rest with
  | nil => rfl
  | cons c rest =>
      have other : c ≠ quote := fun same => single (same ▸ rfl)
      simp [undouble, other]

variable {quote} (noted : isNoted quote = true)

include noted

theorem keeps_quote : Keeps upperChar (· == quote) :=
  keeps_noted fun _ same => beq_iff_eq.mp same ▸ noted

theorem other_forms (c : Char) (other : c ≠ quote) : ∀ form ∈ upperChar c, form ≠ quote := by
  intro form there
  have same := (keeps_quote noted c).2 form there
  simpa [other] using same

theorem undouble_upper (chars : List Char) :
    undouble quote (chars.flatMap upperChar) = (undouble quote chars).flatMap upperChar := by
  have quote_forms := upper_noted quote noted
  fun_induction undouble quote chars with
  | case1 => rfl
  | case2 c =>
      rw [List.flatMap_singleton]
      by_cases same : c = quote
      · rw [same, quote_forms]
        rfl
      · have behind := undouble_behind quote (upperChar c) [] (other_forms noted c same)
        simpa [undouble] using behind
  | case3 c d rest pair ih =>
      obtain ⟨rfl, rfl⟩ := pair
      simp [quote_forms, undouble, ih]
  | case4 c d rest apart ih =>
      rw [List.flatMap_cons]
      by_cases same : c = quote
      · subst same
        have single : ((d :: rest).flatMap upperChar).head? ≠ some c := fun head =>
          apart ⟨rfl, Option.some.inj ((head_forms (keeps_quote noted) _).mp head)⟩
        rw [quote_forms, List.singleton_append, undouble_single c _ single, ih, List.flatMap_cons,
          quote_forms, List.singleton_append]
      · rw [undouble_behind quote _ _ (other_forms noted c same), ih, List.flatMap_cons]

/-- What stands before a closing quote is read in upper case as it is read before. -/
theorem unquoted_upper (inner : List Char → List Char)
    (commutes : ∀ chars, inner (chars.flatMap upperChar) = (inner chars).flatMap upperChar)
    (whole rest : List Char) :
    (if (rest.flatMap upperChar).getLast? = some quote then inner (rest.flatMap upperChar).dropLast
      else whole.flatMap upperChar) =
      (if rest.getLast? = some quote then inner rest.dropLast else whole).flatMap upperChar := by
  by_cases closed : rest.getLast? = some quote
  · rw [if_pos ((last_forms (keeps_quote noted) rest).mpr closed), if_pos closed, ← commutes]
    obtain ⟨front, rfl⟩ := List.getLast?_eq_some_iff.mp closed
    simp [upper_noted quote noted]
  · rw [if_neg fun last => closed ((last_forms (keeps_quote noted) rest).mp last), if_neg closed]

end Quotes

/-- What cleaning makes of a name without blanks at its ends: the name between quotes, if there are
quotes. -/
def unquote (bare : List Char) : List Char :=
  match bare with
  | '"' :: rest => if rest.getLast? = some '"' then undouble '"' rest.dropLast else bare
  | '\x60' :: rest => if rest.getLast? = some '\x60' then undouble '\x60' rest.dropLast else bare
  | '[' :: rest => if rest.getLast? = some ']' then rest.dropLast else bare
  | _ => bare

theorem clean_eq (chars : List Char) :
    cleanChars chars = unquote (trimChars (chars.filter isVisible)) := rfl

theorem unquote_plain (c : Char) (rest : List Char) (unmarked : c ∉ ['"', '\x60', '[']) :
    unquote (c :: rest) = c :: rest := by
  unfold unquote
  split <;> simp_all

theorem unquote_upper (bare : List Char) :
    unquote (bare.flatMap upperChar) = (unquote bare).flatMap upperChar := by
  have double : isNoted '"' = true := by decide
  have back : isNoted '\x60' = true := by decide
  have left : isNoted '[' = true := by decide
  have right : isNoted ']' = true := by decide
  cases bare with
  | nil => rfl
  | cons c rest =>
      by_cases mark : c ∈ ['"', '\x60', '[']
      · simp only [List.mem_cons, List.not_mem_nil, or_false] at mark
        rcases mark with rfl | rfl | rfl
        · have read := unquoted_upper double _ (undouble_upper double) ('"' :: rest) rest
          rw [List.flatMap_cons, upper_noted _ double] at read ⊢
          exact read
        · have read := unquoted_upper back _ (undouble_upper back) ('\x60' :: rest) rest
          rw [List.flatMap_cons, upper_noted _ back] at read ⊢
          exact read
        · have read := unquoted_upper right id (fun _ => rfl) ('[' :: rest) rest
          rw [List.flatMap_cons, upper_noted _ left] at read ⊢
          exact read
      · have noted : ∀ c ∈ ['"', '\x60', '['], isNoted c = true := each_char _ _ (by decide)
        have keeps : Keeps upperChar ['"', '\x60', '['].contains :=
          keeps_noted fun d mark => noted d (List.contains_iff_mem.mp mark)
        obtain ⟨form, more, split⟩ := List.exists_cons_of_ne_nil (keeps c).1
        have unmarked : form ∉ ['"', '\x60', '['] := fun there =>
          mark (List.contains_iff_mem.mp (((keeps c).2 form (by simp [split])).symm.trans
            (List.contains_iff_mem.mpr there)))
        rw [unquote_plain c rest mark, List.flatMap_cons, split, List.cons_append,
          unquote_plain form _ unmarked]

theorem clean_chars_upper (chars : List Char) :
    cleanChars (chars.flatMap upperChar) = (cleanChars chars).flatMap upperChar := by
  rw [clean_eq, clean_eq, visible_upper, trim_upper, unquote_upper]

/-- A name is cleaned before it is put in upper case or after that. -/
theorem clean_upper (written : String) : clean (upper written) = upper (clean written) := by
  rw [clean, upper, upper, clean, String.toList_ofList, String.toList_ofList, clean_chars_upper]

end TableScript.Identifier
