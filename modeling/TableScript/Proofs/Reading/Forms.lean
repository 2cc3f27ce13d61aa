import Mathlib.Data.List.Forall2
import Mathlib.Data.List.TakeWhile
import TableScript.Proofs.Reading.Grammar
import TableScript.Proofs.Reading.Nesting

/-!
The forms of statements, told apart from how they are read. A statement that makes a table and one
that changes a table each have a form, in which phrases that may be left out are taken wherever
they stand; a statement is read as one of the two just where it has its form, and left out otherwise.
-/

namespace TableScript

open Token

namespace Form

/-- Tokens that are some words, one by one. -/
def Spells (words : List String) (tokens : List Token) : Prop :=
  List.Forall₂ (fun token word => token.isWord word = true) tokens words

/-- A phrase before some tokens that may be left out, but is not where it could stand. -/
inductive Optional (words : List String) : List Token → List Token → Prop where
  | taken {phrase after : List Token} (spelled : Spells words phrase) : Optional words phrase after
  | absent {after : List Token}
      (other : ∀ front rest, after = front ++ rest → ¬ Spells words front) : Optional words [] after

theorem takeWord_iff (word : String) (tokens after : List Token) :
    takeWord? word tokens = some after ↔ ∃ token, token.isWord word = true ∧ tokens = token :: after := by
  cases tokens with
  | nil => simp [takeWord?]
  | cons token rest =>
      rw [takeWord?]
      constructor
      · intro taken
        split at taken
        case isTrue same =>
          cases taken
          exact ⟨token, same, rfl⟩
        case isFalse => cases taken
      · rintro ⟨_, same, ⟨⟩⟩
        rw [if_pos same]

theorem takeWords_iff (words : List String) (tokens after : List Token) :
    takeWords? words tokens = some after ↔ ∃ phrase, Spells words phrase ∧ tokens = phrase ++ after := by
  induction words generalizing tokens with
  | nil =>
      constructor
      · rintro ⟨⟩
        exact ⟨[], .nil, rfl⟩
      · rintro ⟨phrase, ⟨⟩, rfl⟩
        rfl
  | cons word words ih =>
      simp only [takeWords?, Option.bind_eq_some_iff, takeWord_iff, ih]
      constructor
      · rintro ⟨rest, ⟨token, same, rfl⟩, phrase, spelled, rfl⟩
        exact ⟨token :: phrase, .cons same spelled, rfl⟩
      · rintro ⟨phrase, spelled, rfl⟩
        cases spelled with
        | @cons token _ phrase _ same spelled => exact ⟨_, ⟨token, same, rfl⟩, phrase, spelled, rfl⟩

theorem skip_phrase {words : List String} {phrase after : List Token}
    (optional : Optional words phrase after) : skipWords words (phrase ++ after) = after := by
  rw [skipWords]
  cases optional with
  | taken spelled => rw [(takeWords_iff words _ after).mpr ⟨phrase, spelled, rfl⟩, Option.getD_some]
  | absent other =>
      cases taken : takeWords? words ([] ++ after) with
      | none => rfl
      | some rest =>
          obtain ⟨front, spelled, same⟩ := (takeWords_iff words _ rest).mp taken
          exact absurd spelled (other front rest same)

/-- What is skipped is the phrase, and it is skipped wherever it stands. -/
theorem phrase_skipped (words : List String) (tokens : List Token) :
    ∃ phrase, Optional words phrase (skipWords words tokens) ∧
      tokens = phrase ++ skipWords words tokens := by
  rw [skipWords]
  cases taken : takeWords? words tokens with
  | some rest =>
      obtain ⟨phrase, spelled, same⟩ := (takeWords_iff words tokens rest).mp taken
      exact ⟨phrase, .taken spelled, same⟩
  | none =>
      apply Exists.intro []
      constructor
      · apply Optional.absent
        intro front rest same spelled
        rw [Option.getD_none] at same
        rw [(takeWords_iff words tokens rest).mpr ⟨front, spelled, same⟩] at taken
        cases taken
      · rfl

/-- A name with perhaps further ones behind points. -/
inductive Dotted : List Token → Token → Prop where
  | one {name : Token} (identifier : name.isIdentifier = true) : Dotted [name] name
  | more {name last : Token} {rest : List Token} (identifier : name.isIdentifier = true)
      (later : Dotted rest last) : Dotted (name :: point :: rest) last

/-- Nothing goes on with a name. -/
def Ended (after : List Token) : Prop :=
  ∀ name rest, after = point :: name :: rest → name.isIdentifier = false

theorem lastPart_ended (written : String) (after : List Token) (ended : Ended after) :
    lastPart written after = (written, after) := by
  match after with
  | [] => rfl
  | [_] => rfl
  | dot :: name :: rest =>
      rw [lastPart]
      split
      case isTrue goes =>
        obtain ⟨mark, identifier⟩ := Bool.and_eq_true_iff.mp goes
        rw [ended name rest (by rw [isPunct_eq mark]; rfl)] at identifier
        cases identifier
      case isFalse => rfl

theorem lastPart_dotted {dotted : List Token} {last : Token} (is : Dotted dotted last) (after : List Token)
    (ended : Ended after) :
    ∃ first rest, dotted = first :: rest ∧ first.isIdentifier = true ∧
      lastPart first.value (rest ++ after) = (last.value, after) := by
  induction is with
  | @one name identifier => exact ⟨name, [], rfl, identifier, lastPart_ended name.value after ended⟩
  | @more name last rest identifier _ ih =>
      obtain ⟨next, others, rfl, known, read⟩ := ih
      refine ⟨name, point :: next :: others, rfl, identifier, ?_⟩
      have mark : point.isPunct "." = true := rfl
      rw [List.cons_append, List.cons_append, lastPart]
      simp only [mark, known, Bool.and_self, if_true, read]

theorem dotted_lastPart (first : Token) (identifier : first.isIdentifier = true) (tokens : List Token) :
    ∃ dotted last, Dotted dotted last ∧ Ended (lastPart first.value tokens).2 ∧
      (lastPart first.value tokens).1 = last.value ∧
      first :: tokens = dotted ++ (lastPart first.value tokens).2 := by
  -- a further part of a name takes two tokens, so the induction is on their number
  induction count : tokens.length using Nat.strongRecOn generalizing first tokens with
  | ind count ih =>
      by_cases ends : Ended tokens
      · rw [lastPart_ended first.value tokens ends]
        exact ⟨[first], first, .one identifier, ends, rfl, rfl⟩
      · simp only [Ended, not_forall, Bool.not_eq_false] at ends
        obtain ⟨name, rest, rfl, known⟩ := ends
        obtain ⟨dotted, last, is, ended, written, same⟩ :=
          ih rest.length (by rw [← count, List.length_cons, List.length_cons]; omega) name known rest rfl
        have step : lastPart first.value (point :: name :: rest) = lastPart name.value rest := by
          have mark : point.isPunct "." = true := rfl
          simp only [lastPart, mark, known, Bool.and_self, if_true]
        rw [step]
        exact ⟨first :: point :: dotted, last, .more identifier is, ended, written, by rw [same]; rfl⟩

theorem full_name {written rest : List Token} {last : Token} (names : Dotted written last)
    (ended : Ended rest) (full : Identifier.clean last.value ≠ "") :
    readFullName (written ++ rest) = (some (Identifier.clean last.value), rest) := by
  obtain ⟨first, others, rfl, identifier, read⟩ := lastPart_dotted names rest ended
  have name : readName (first :: others ++ rest) = (some (Identifier.clean last.value), rest) := by
    rw [List.cons_append, readName, if_pos identifier, read]
  rw [readFullName, name]
  simp [full]

theorem name_read {tokens rest : List Token} {name : String}
    (read : readFullName tokens = (some name, rest)) :
    ∃ written last, Dotted written last ∧ Ended rest ∧ tokens = written ++ rest ∧
      name = Identifier.clean last.value ∧ name ≠ "" := by
  cases tokens with
  | nil => cases read
  | cons first others =>
      by_cases identifier : first.isIdentifier = true
      · obtain ⟨written, last, names, ended, found, same⟩ := dotted_lastPart first identifier others
        rw [readFullName, readName, if_pos identifier] at read
        dsimp only at read
        split at read
        case isTrue => cases read
        case isFalse occupied =>
          cases read
          rw [found] at occupied ⊢
          exact ⟨written, last, names, ended, same, rfl, by simpa using occupied⟩
      · rw [readFullName, readName, if_neg identifier] at read
        cases read

/-- The clauses in the parentheses that follow, if they are closed. What stands behind them is
left out. -/
inductive Body : List Token → List Clause → Bool → Prop where
  | group {inside after : List Token} {pieces : List (List Token)} {clauses : List Clause}
      (balanced : Balanced inside) (divided : Pieces "," inside pieces)
      (read : List.Forall₂ (fun piece clause => Clause.ofTokens? piece = some clause) pieces clauses) :
      Body (openMark :: (inside ++ closeMark :: after)) clauses true
  | absent {rest : List Token}
      (unclosed : ∀ inside after, Balanced inside → rest ≠ openMark :: (inside ++ closeMark :: after)) :
      Body rest [] false

/-- What a statement has to be to make a table of a name, and what stands behind the name. -/
inductive Creates : List Token → String → List Token → Prop where
  | intro {create table last : Token} {replacing prefixes sparing written rest : List Token}
      (creates : create.isWord "CREATE" = true)
      (replaces : Optional ["OR", "REPLACE"] replacing (prefixes ++ table :: (sparing ++ (written ++ rest))))
      (kinds : ∀ token ∈ prefixes, token.isOneOf Keyword.tablePrefixes = true)
      (tables : table.isWord "TABLE" = true)
      (spares : Optional ["IF", "NOT", "EXISTS"] sparing (written ++ rest))
      (names : Dotted written last) (ended : Ended rest) (full : Identifier.clean last.value ≠ "") :
      Creates (create :: (replacing ++ (prefixes ++ table :: (sparing ++ (written ++ rest)))))
        (Identifier.clean last.value) rest

/-- What a statement has to be to change a table of a name, and what stands behind the name. -/
inductive Alters : List Token → String → List Token → Prop where
  | intro {alter table last : Token} {only sparing again written rest : List Token}
      (alters : alter.isWord "ALTER" = true) (tables : table.isWord "TABLE" = true)
      (alone : Optional ["ONLY"] only (sparing ++ (again ++ (written ++ rest))))
      (spares : Optional ["IF", "EXISTS"] sparing (again ++ (written ++ rest)))
      (aloneAgain : Optional ["ONLY"] again (written ++ rest))
      (names : Dotted written last) (ended : Ended rest) (full : Identifier.clean last.value ≠ "") :
      Alters (alter :: table :: (only ++ (sparing ++ (again ++ (written ++ rest)))))
        (Identifier.clean last.value) rest

theorem clauses_iff (pieces : List (List Token)) (occupied : ∀ piece ∈ pieces, piece ≠ [])
    (clauses : List Clause) :
    List.Forall₂ (fun piece clause => Clause.ofTokens? piece = some clause) pieces clauses ↔
      pieces.filterMap Clause.ofTokens? = clauses := by
  induction pieces generalizing clauses with
  | nil => simp [eq_comm]
  | cons piece pieces ih =>
      obtain ⟨head, others⟩ := List.forall_mem_cons.mp occupied
      obtain ⟨clause, made, _⟩ := CursorReader.yields_readClause piece head
      rw [List.filterMap_cons, made, List.forall₂_cons_left_iff]
      constructor
      · rintro ⟨first, rest, same, each, rfl⟩
        cases made.symm.trans same
        rw [(ih others rest).mp each]
      · rintro rfl
        exact ⟨clause, _, made, (ih others _).mpr rfl, rfl⟩

theorem body_group {rest inside after : List Token} (found : group? rest = some (inside, after))
    (clauses : List Clause) (hasBody : Bool) :
    Body rest clauses hasBody ↔
      (splitTopLevel "," inside).filterMap Clause.ofTokens? = clauses ∧ hasBody = true := by
  obtain ⟨balanced, rfl⟩ := (group_iff rest inside after).mp found
  have parts := CursorReader.split_occupied "," inside
  constructor
  · intro body
    generalize same : openMark :: (inside ++ closeMark :: after) = tokens at body
    cases body with
    | group again divided read =>
        -- the parenthesis that closes a group is found in one place only
        rw [same, group_balanced again] at found
        cases found
        rw [← (pieces_iff (by decide) inside _).mpr divided] at read
        exact ⟨(clauses_iff _ parts clauses).mp read, rfl⟩
    | absent unclosed => exact absurd same.symm (unclosed inside after balanced)
  · rintro ⟨rfl, rfl⟩
    exact .group balanced ((pieces_iff (by decide) inside _).mp rfl) ((clauses_iff _ parts _).mpr rfl)

theorem body_absent {rest : List Token} (none : group? rest = none) (clauses : List Clause)
    (hasBody : Bool) : Body rest clauses hasBody ↔ clauses = [] ∧ hasBody = false := by
  constructor
  · intro body
    cases body with
    | group balanced =>
        rw [group_balanced balanced] at none
        cases none
    | absent => exact ⟨rfl, rfl⟩
  · rintro ⟨rfl, rfl⟩
    apply Body.absent
    rintro inside after balanced rfl
    rw [group_balanced balanced] at none
    cases none

theorem createFrom_iff (text : String) (tokens : List Token) (name : String) (clauses : List Clause)
    (hasBody : Bool) :
    Statement.createFrom text tokens = .createTable name clauses hasBody ↔
      ∃ rest, readFullName (skipWords ["IF", "NOT", "EXISTS"] tokens) = (some name, rest) ∧
        Body rest clauses hasBody := by
  rw [Statement.createFrom]
  cases readFullName (skipWords ["IF", "NOT", "EXISTS"] tokens) with
  | mk found after =>
      cases found with
      | none => simp
      | some read =>
          dsimp only
          cases group : group? after with
          | none => simp [body_absent group, eq_comm]
          | some parts => simp [body_group group, eq_comm]

theorem alterFrom_iff (text : String) (tokens : List Token) (name : String) (actions : List Action) :
    Statement.alterFrom text tokens = .alterTable name actions ↔
      ∃ rest, readFullName (skipWords ["ONLY"] (skipWords ["IF", "EXISTS"] (skipWords ["ONLY"] tokens))) =
          (some name, rest) ∧
        ∃ pieces, Pieces "," rest pieces ∧ actions = pieces.map Action.ofTokens := by
  rw [Statement.alterFrom]
  cases readFullName _ with
  | mk found after =>
      cases found with
      | none => simp
      | some read => simp [← pieces_iff, eq_comm]

theorem skipPrefixes_before (prefixes rest : List Token) (table : Token)
    (kinds : ∀ token ∈ prefixes, token.isOneOf Keyword.tablePrefixes = true)
    (tables : table.isWord "TABLE" = true) :
    Statement.skipPrefixes (prefixes ++ table :: rest) = table :: rest := by
  have other : table.isOneOf Keyword.tablePrefixes = false := isOneOf_apart tables (by decide)
  rw [Statement.skipPrefixes, List.dropWhile_append_of_pos kinds,
    List.dropWhile_cons_of_neg (by simp [other])]

theorem prefixes_skipped (tokens : List Token) :
    ∃ prefixes, (∀ token ∈ prefixes, token.isOneOf Keyword.tablePrefixes = true) ∧
      tokens = prefixes ++ Statement.skipPrefixes tokens := by
  apply Exists.intro (tokens.takeWhile (·.isOneOf Keyword.tablePrefixes))
  constructor
  · intro token member
    have kind := List.mem_takeWhile_imp member
    exact kind
  · exact List.takeWhile_append_dropWhile.symm

theorem creates_iff (tokens rest : List Token) (name : String) :
    Creates tokens name rest ↔
      ∃ behind inner, takeWord? "CREATE" tokens = some behind ∧
        takeWord? "TABLE" (Statement.skipPrefixes (skipWords ["OR", "REPLACE"] behind)) = some inner ∧
        readFullName (skipWords ["IF", "NOT", "EXISTS"] inner) = (some name, rest) := by
  constructor
  · intro form
    cases form with
    | @intro create table last replacing prefixes sparing written _ creates replaces kinds tables spares
        names ended full =>
      apply Exists.intro (replacing ++ (prefixes ++ table :: (sparing ++ (written ++ rest))))
      apply Exists.intro (sparing ++ (written ++ rest))
      constructor
      · exact (takeWord_iff _ _ _).mpr ⟨create, creates, rfl⟩
      constructor
      · rw [skip_phrase replaces, skipPrefixes_before prefixes _ table kinds tables]
        exact (takeWord_iff _ _ _).mpr ⟨table, tables, rfl⟩
      · rw [skip_phrase spares]
        exact full_name names ended full
  · rintro ⟨behind, inner, creates, tables, read⟩
    obtain ⟨create, isCreate, rfl⟩ := (takeWord_iff _ _ _).mp creates
    obtain ⟨table, isTable, same⟩ := (takeWord_iff _ _ _).mp tables
    obtain ⟨replacing, replaces, first⟩ := phrase_skipped ["OR", "REPLACE"] behind
    obtain ⟨sparing, spares, second⟩ := phrase_skipped ["IF", "NOT", "EXISTS"] inner
    obtain ⟨written, last, names, ended, third, rfl, full⟩ := name_read read
    obtain ⟨prefixes, kinds, between⟩ := prefixes_skipped (skipWords ["OR", "REPLACE"] behind)
    -- the phrases are put back where they were skipped, from the name to the front
    rw [same] at between
    rw [between, second, third] at replaces first
    rw [third] at spares
    rw [first]
    exact .intro isCreate replaces kinds isTable spares names ended full

theorem alters_iff (tokens rest : List Token) (name : String) :
    Alters tokens name rest ↔
      ∃ inner, takeWords? ["ALTER", "TABLE"] tokens = some inner ∧
        readFullName (skipWords ["ONLY"] (skipWords ["IF", "EXISTS"] (skipWords ["ONLY"] inner))) =
          (some name, rest) := by
  constructor
  · intro form
    cases form with
    | @intro alter table last only sparing again written _ alters tables alone spares aloneAgain names
        ended full =>
      apply Exists.intro (only ++ (sparing ++ (again ++ (written ++ rest))))
      constructor
      · exact (takeWords_iff _ _ _).mpr ⟨[alter, table], .cons alters (.cons tables .nil), rfl⟩
      · rw [skip_phrase alone, skip_phrase spares, skip_phrase aloneAgain]
        exact full_name names ended full
  · rintro ⟨inner, taken, read⟩
    obtain ⟨phrase, spelled, rfl⟩ := (takeWords_iff _ _ _).mp taken
    obtain ⟨only, alone, first⟩ := phrase_skipped ["ONLY"] inner
    obtain ⟨sparing, spares, second⟩ := phrase_skipped ["IF", "EXISTS"] (skipWords ["ONLY"] inner)
    obtain ⟨again, aloneAgain, third⟩ :=
      phrase_skipped ["ONLY"] (skipWords ["IF", "EXISTS"] (skipWords ["ONLY"] inner))
    obtain ⟨written, last, names, ended, fourth, rfl, full⟩ := name_read read
    rw [fourth] at aloneAgain third
    rw [third] at spares second
    rw [second] at alone first
    cases spelled with
    | cons alters others =>
        cases others with
        | cons tables others =>
            cases others
            rw [first]
            exact .intro alters tables alone spares aloneAgain names ended full

theorem body_exists (rest : List Token) : ∃ clauses hasBody, Body rest clauses hasBody := by
  cases group : group? rest with
  | none => exact ⟨[], false, (body_absent group _ _).mpr ⟨rfl, rfl⟩⟩
  | some parts => exact ⟨_, true, (body_group group _ _).mpr ⟨rfl, rfl⟩⟩

theorem createFrom_alters (text table : String) (tokens : List Token) (actions : List Action) :
    Statement.createFrom text tokens ≠ .alterTable table actions := by
  rw [Statement.createFrom]
  split
  case h_1 => simp
  case h_2 => split <;> simp

theorem alterFrom_creates (text name : String) (tokens : List Token) (clauses : List Clause)
    (hasBody : Bool) : Statement.alterFrom text tokens ≠ .createTable name clauses hasBody := by
  rw [Statement.alterFrom]
  split <;> simp

theorem create_alters {tokens behind : List Token} (creates : takeWord? "CREATE" tokens = some behind) :
    takeWords? ["ALTER", "TABLE"] tokens = none := by
  obtain ⟨create, isCreate, rfl⟩ := (takeWord_iff _ _ _).mp creates
  have other : create.isWord "ALTER" = false := isOneOf_apart isCreate (by decide)
  simp [takeWords?, takeWord?, other]

theorem ofRaw_created (raw : RawStatement) (name : String) (clauses : List Clause) (hasBody : Bool) :
    Statement.ofRaw raw = .createTable name clauses hasBody ↔
      ∃ rest, Creates raw.tokens name rest ∧ Body rest clauses hasBody := by
  simp only [creates_iff]
  rw [Statement.ofRaw]
  cases creates : takeWord? "CREATE" raw.tokens with
  | none =>
      cases takeWords? ["ALTER", "TABLE"] raw.tokens with
      | none => simp
      | some inner => simp [alterFrom_creates]
  | some behind =>
      dsimp only
      cases tables : takeWord? "TABLE" (Statement.skipPrefixes (skipWords ["OR", "REPLACE"] behind)) with
      | none => simp [tables]
      | some inner => simp [createFrom_iff, tables]

theorem ofRaw_altered (raw : RawStatement) (table : String) (actions : List Action) :
    Statement.ofRaw raw = .alterTable table actions ↔
      ∃ rest pieces, Alters raw.tokens table rest ∧ Pieces "," rest pieces ∧
        actions = pieces.map Action.ofTokens := by
  simp only [alters_iff]
  rw [Statement.ofRaw]
  cases creates : takeWord? "CREATE" raw.tokens with
  | some behind =>
      dsimp only
      cases takeWord? "TABLE" (Statement.skipPrefixes (skipWords ["OR", "REPLACE"] behind)) with
      | none => simp [create_alters creates]
      | some inner => simp [create_alters creates, createFrom_alters]
  | none =>
      cases alters : takeWords? ["ALTER", "TABLE"] raw.tokens with
      | none => simp
      | some inner => simp [alterFrom_iff]

theorem ignored_others (statement : Statement) :
    (∃ ignored, statement = .ignored ignored) ↔
      (∀ name clauses hasBody, statement ≠ .createTable name clauses hasBody) ∧
        ∀ table actions, statement ≠ .alterTable table actions := by
  cases statement <;> simp

theorem ofRaw_ignored (raw : RawStatement) :
    (∃ ignored, Statement.ofRaw raw = .ignored ignored) ↔
      (∀ name rest, ¬ Creates raw.tokens name rest) ∧ ∀ table rest, ¬ Alters raw.tokens table rest := by
  simp only [ignored_others, ne_eq, ofRaw_created, ofRaw_altered]
  constructor
  · rintro ⟨uncreated, unaltered⟩
    constructor
    · intro name rest creates
      obtain ⟨clauses, hasBody, body⟩ := body_exists rest
      exact uncreated name clauses hasBody ⟨rest, creates, body⟩
    · intro table rest alters
      exact unaltered table _ ⟨rest, _, alters, (pieces_iff (by decide) rest _).mp rfl, rfl⟩
  · rintro ⟨uncreated, unaltered⟩
    constructor
    · rintro name clauses hasBody ⟨rest, creates, _⟩
      exact uncreated name rest creates
    · rintro table actions ⟨rest, pieces, alters, _⟩
      exact unaltered table rest alters

theorem spelled_words {words : List String} {tokens : List Token} (spelled : Spells words tokens) :
    ∀ token ∈ tokens, token.kind = .word := by
  induction spelled with
  | nil => simp
  | @cons token word _ _ same _ ih =>
      have kind : token.kind = .word := beq_iff_eq.mp (Bool.and_eq_true_iff.mp same).1
      exact List.forall_mem_cons.mpr ⟨kind, ih⟩

/-- No word of a phrase is a parenthesis, so what stands behind one does not matter to a phrase. -/
theorem optional_elsewhere {words : List String} {phrase middle after : List Token}
    (optional : Optional words phrase (middle ++ openMark :: after)) (other : List Token) :
    Optional words phrase (middle ++ openMark :: other) := by
  cases optional with
  | taken spelled => exact .taken spelled
  | absent absent =>
      apply Optional.absent
      intro front rest same spelled
      rcases List.append_eq_append_iff.mp same with ⟨more, rfl, inner⟩ | ⟨more, rfl, _⟩
      · cases more with
        | nil => exact absent middle (openMark :: after) rfl (by simpa using spelled)
        | cons token more =>
            cases inner
            have word := spelled_words spelled openMark (by simp)
            cases word
      · exact absent front (more ++ openMark :: after) (List.append_assoc _ _ _) spelled

theorem creates_elsewhere {front after : List Token} {name : String}
    (creates : Creates (front ++ openMark :: after) name (openMark :: after)) (other : List Token) :
    Creates (front ++ openMark :: other) name (openMark :: other) := by
  generalize same : front ++ openMark :: after = tokens at creates
  cases creates with
  | @intro create table last replacing prefixes sparing written _ isCreate replaces kinds tables spares
      names ended full =>
    have split : front = create :: (replacing ++ (prefixes ++ table :: (sparing ++ written))) := by
      apply List.append_cancel_right (same.trans _)
      simp
    have spares' := optional_elsewhere spares other
    have between : prefixes ++ table :: (sparing ++ (written ++ openMark :: after)) =
        (prefixes ++ table :: (sparing ++ written)) ++ openMark :: after := by simp
    rw [between] at replaces
    have replaces' := optional_elsewhere replaces other
    have ended' : Ended (openMark :: other) := fun _ _ points => by simp [openMark, point] at points
    rw [split]
    simpa using Creates.intro isCreate (by simpa using replaces') kinds tables spares' names ended' full

/-- What stands behind a body that is closed does not matter to a statement. -/
theorem created_elsewhere (raw : RawStatement) (front inside after : List Token) {name : String}
    (balanced : Balanced inside) (same : raw.tokens = front ++ openMark :: (inside ++ closeMark :: after))
    (creates : Creates raw.tokens name (openMark :: (inside ++ closeMark :: after)))
    (text : String) (other : List Token) :
    Statement.ofRaw ⟨text, front ++ openMark :: (inside ++ closeMark :: other)⟩ =
      Statement.ofRaw raw := by
  have found := group_balanced balanced after
  have found' := group_balanced balanced other
  have first := (ofRaw_created raw name _ true).mpr ⟨_, creates, (body_group found _ _).mpr ⟨rfl, rfl⟩⟩
  rw [same] at creates
  have second := (ofRaw_created ⟨text, front ++ openMark :: (inside ++ closeMark :: other)⟩ name _ true).mpr
    ⟨_, creates_elsewhere creates _, (body_group found' _ _).mpr ⟨rfl, rfl⟩⟩
  rw [first, second]

end Form

namespace Statement

/-- A statement makes a table just if it has the form of that, it changes a table just if it has
the form of that, and it is left out if it has neither form. What a table is made of is told by the
clauses of its body, and not by anything behind the parenthesis that closes them. -/
theorem read_by_form (raw : RawStatement) :
    (∀ name clauses hasBody, ofRaw raw = .createTable name clauses hasBody ↔
        ∃ rest, Form.Creates raw.tokens name rest ∧ Form.Body rest clauses hasBody) ∧
      (∀ table actions, ofRaw raw = .alterTable table actions ↔
        ∃ rest pieces, Form.Alters raw.tokens table rest ∧ Pieces "," rest pieces ∧
          actions = pieces.map Action.ofTokens) ∧
      ((∃ ignored, ofRaw raw = .ignored ignored) ↔
        (∀ name rest, ¬ Form.Creates raw.tokens name rest) ∧
          ∀ table rest, ¬ Form.Alters raw.tokens table rest) ∧
      ∀ front inside after name, Balanced inside →
        raw.tokens = front ++ openMark :: (inside ++ closeMark :: after) →
        Form.Creates raw.tokens name (openMark :: (inside ++ closeMark :: after)) →
        ∀ text other,
          ofRaw ⟨text, front ++ openMark :: (inside ++ closeMark :: other)⟩ = ofRaw raw := by
  constructor
  · exact Form.ofRaw_created raw
  constructor
  · exact Form.ofRaw_altered raw
  constructor
  · exact Form.ofRaw_ignored raw
  · intro front inside after name balanced same creates text other
    exact Form.created_elsewhere raw front inside after balanced same creates text other

def temporaryName : List Token :=
  [⟨.word, "a"⟩, point, ⟨.word, "b"⟩]

def temporaryFront : List Token :=
  [⟨.word, "CREATE"⟩, ⟨.word, "TEMP"⟩, ⟨.word, "TABLE"⟩] ++ temporaryName

def temporaryBody : List Token :=
  [⟨.word, "x"⟩, ⟨.word, "INT"⟩]

def temporaryOptions : List Token :=
  [⟨.word, "ON"⟩, ⟨.word, "x"⟩]

-- CREATE TEMP TABLE a.b (x INT) ON x
def temporary : RawStatement :=
  ⟨"", temporaryFront ++ openMark :: (temporaryBody ++ closeMark :: temporaryOptions)⟩

/-- A statement with words before its table and a dotted name, which reads the same without the
options behind its body. -/
theorem temporary_read :
    Balanced temporaryBody ∧
      Form.Creates temporary.tokens "b" (openMark :: (temporaryBody ++ closeMark :: temporaryOptions)) ∧
      ofRaw temporary = .createTable "b" [.column ⟨"x", "INT", false, false, false, none⟩] true ∧
      ofRaw ⟨"", temporaryFront ++ openMark :: (temporaryBody ++ closeMark :: [])⟩ = ofRaw temporary := by
  obtain ⟨_, _, _, elsewhere⟩ := read_by_form temporary
  have balanced : Balanced temporaryBody := .flat rfl (.flat rfl .nil)
  have read : ofRaw temporary = .createTable "b" [.column ⟨"x", "INT", false, false, false, none⟩] true := by
    decide +kernel
  have creates : Form.Creates temporary.tokens "b"
      (openMark :: (temporaryBody ++ closeMark :: temporaryOptions)) := by
    apply (Form.creates_iff _ _ _).mpr
    apply Exists.intro (temporary.tokens.drop 1)
    apply Exists.intro (temporary.tokens.drop 3)
    decide +kernel
  exact ⟨balanced, creates, read, elsewhere temporaryFront temporaryBody _ "b" balanced rfl creates "" []⟩

end Statement

end TableScript
