import TableScript.Statement.Reader

/-!
Reading with a cursor, the way the grammar is written down: a reader looks at tokens ahead and takes
them one by one. Where it relies on a token that is not there it fails, and so does a loop that goes
on without having read anything. That it never comes to this is what the theorems here are for:
each reader gives what the reader on lists of tokens gives, wherever it begins.
-/

namespace TableScript

/-- A place in a list of tokens. The tokens behind it stand in reverse order. -/
structure Cursor where
  behind : List Token
  ahead : List Token

abbrev CursorReader (α : Type) := StateT Cursor Option α

namespace CursorReader

variable {α β σ : Type}

def peek (offset : Nat) : CursorReader (Option Token) :=
  fun cursor => some (cursor.ahead[offset]?, cursor)

def next : CursorReader (Option Token)
  | ⟨behind, []⟩ => some (none, ⟨behind, []⟩)
  | ⟨behind, token :: ahead⟩ => some (some token, ⟨token :: behind, ahead⟩)

def atEnd : CursorReader Bool :=
  fun cursor => some (cursor.ahead.isEmpty, cursor)

/-- What is relied on to be there. -/
def need : Option α → CursorReader α
  | some value => pure value
  | none => fun _ => none

/-- The token that was read last. -/
def last : CursorReader Token :=
  fun cursor => cursor.behind.head?.map (·, cursor)

/-- Goes back to where it began if there is nothing to be read. -/
def attempt (reader : CursorReader (Option α)) : CursorReader (Option α) := fun start =>
  (reader start).map fun (found, cursor) => (found, if found.isSome then cursor else start)

/-- Repeats a step until it comes to a value. A step after which the loop goes on has to have read
something. -/
def loop (step : σ → CursorReader (σ ⊕ α)) (state : σ) : CursorReader α := fun cursor =>
  match step state cursor with
  | none => none
  | some (.inr value, after) => some (value, after)
  | some (.inl state, after) =>
      if after.ahead.length < cursor.ahead.length then loop step state after else none
termination_by cursor => cursor.ahead.length

/-- What a reader makes of some tokens, read from their beginning. -/
def run (reader : CursorReader α) (tokens : List Token) : Option α :=
  (reader ⟨[], tokens⟩).map (·.1)

/-- Before some tokens a reader gives a value and comes to stand before the rest of them. -/
def Gives (reader : CursorReader α) (tokens : List Token) (value : α) (after : List Token) : Prop :=
  ∀ behind, ∃ read, tokens = read ++ after ∧
    reader ⟨behind, tokens⟩ = some (value, ⟨read.reverse ++ behind, after⟩)

/-- Before some tokens a reader gives a value, wherever it comes to stand. -/
def Yields (reader : CursorReader α) (tokens : List Token) (value : α) : Prop :=
  ∀ behind, ∃ cursor, reader ⟨behind, tokens⟩ = some (value, cursor)

theorem Gives.yields {reader : CursorReader α} {tokens after : List Token} {value : α}
    (gives : Gives reader tokens value after) : Yields reader tokens value := by
  intro behind
  obtain ⟨read, _, result⟩ := gives behind
  exact ⟨_, result⟩

theorem Yields.run {reader : CursorReader α} {tokens : List Token} {value : α}
    (yields : Yields reader tokens value) : reader.run tokens = some value := by
  obtain ⟨cursor, result⟩ := yields []
  rw [CursorReader.run, result]
  rfl

theorem Gives.suffix {reader : CursorReader α} {tokens after : List Token} {value : α}
    (gives : Gives reader tokens value after) : after <:+ tokens := by
  obtain ⟨read, same, _⟩ := gives []
  exact ⟨read, same.symm⟩

theorem gives_pure (value : α) (tokens : List Token) :
    Gives (pure value : CursorReader α) tokens value tokens :=
  fun _ => ⟨[], rfl, rfl⟩

theorem bind_at (reader : CursorReader α) (follow : α → CursorReader β) (cursor : Cursor) :
    (reader >>= follow) cursor = (reader cursor).bind fun found => follow found.1 found.2 := rfl

theorem gives_bind {reader : CursorReader α} {follow : α → CursorReader β}
    {tokens middle after : List Token} {first : α} {value : β}
    (gives : Gives reader tokens first middle) (follows : Gives (follow first) middle value after) :
    Gives (reader >>= follow) tokens value after := by
  intro behind
  obtain ⟨read, same, result⟩ := gives behind
  obtain ⟨more, same', result'⟩ := follows (read.reverse ++ behind)
  refine ⟨read ++ more, by rw [same, same', List.append_assoc], ?_⟩
  rw [bind_at, result, Option.bind_some, result', List.reverse_append, List.append_assoc]

theorem yields_bind {reader : CursorReader α} {follow : α → CursorReader β}
    {tokens middle : List Token} {first : α} {value : β}
    (gives : Gives reader tokens first middle) (follows : Yields (follow first) middle value) :
    Yields (reader >>= follow) tokens value := by
  intro behind
  obtain ⟨read, _, result⟩ := gives behind
  obtain ⟨cursor, result'⟩ := follows (read.reverse ++ behind)
  refine ⟨cursor, ?_⟩
  rw [bind_at, result, Option.bind_some, result']

theorem yields_then {reader : CursorReader α} {follow : α → CursorReader β} {tokens : List Token}
    {first : α} {value : β} (yields : Yields reader tokens first) (follows : follow first = pure value) :
    Yields (reader >>= follow) tokens value := by
  intro behind
  obtain ⟨cursor, result⟩ := yields behind
  exact ⟨cursor, by rw [bind_at, result, Option.bind_some, follows]; rfl⟩

/-- What a reader read last can be looked at again. -/
theorem gives_bind_last {reader : CursorReader α} {follow : α → CursorReader β}
    (front : List Token) (token : Token) {after : List Token} {first : α} (made : Token → β)
    (gives : Gives reader (front ++ token :: after) first after)
    (follows : follow first = do return made (← last)) :
    Gives (reader >>= follow) (front ++ token :: after) (made token) after := by
  intro behind
  obtain ⟨read, same, result⟩ := gives behind
  have ends : read = front ++ [token] := by
    apply (List.append_left_inj after).mp
    rw [← same, List.append_assoc, List.singleton_append]
  refine ⟨read, same, ?_⟩
  rw [bind_at, result, Option.bind_some, follows, ends, List.reverse_append]
  rfl

theorem gives_attempt {reader : CursorReader (Option α)} {tokens after : List Token} {value : α}
    (gives : Gives reader tokens (some value) after) :
    Gives (attempt reader) tokens (some value) after := by
  intro behind
  obtain ⟨read, same, result⟩ := gives behind
  refine ⟨read, same, ?_⟩
  rw [attempt, result]
  rfl

theorem gives_attempt_none {reader : CursorReader (Option α)} {tokens : List Token}
    (yields : Yields reader tokens none) : Gives (attempt reader) tokens none tokens := by
  intro behind
  obtain ⟨cursor, result⟩ := yields behind
  refine ⟨[], rfl, ?_⟩
  rw [attempt, result]
  rfl

theorem gives_peek (offset : Nat) (tokens : List Token) :
    Gives (peek offset) tokens tokens[offset]? tokens :=
  fun _ => ⟨[], rfl, rfl⟩

theorem gives_next (token : Token) (rest : List Token) :
    Gives next (token :: rest) (some token) rest :=
  fun _ => ⟨[token], rfl, rfl⟩

theorem gives_atEnd (tokens : List Token) : Gives atEnd tokens tokens.isEmpty tokens :=
  fun _ => ⟨[], rfl, rfl⟩

theorem gives_need (value : α) (tokens : List Token) :
    Gives (need (some value)) tokens value tokens :=
  gives_pure value tokens

/-- A token that is there can be relied on. -/
theorem gives_needed (token : Token) (rest : List Token) :
    Gives (next >>= need) (token :: rest) token rest :=
  gives_bind (gives_next token rest) (gives_need token rest)

theorem gives_done {step : σ → CursorReader (σ ⊕ α)} {state : σ} {tokens after : List Token}
    {value : α} (gives : Gives (step state) tokens (.inr value) after) :
    Gives (loop step state) tokens value after := by
  intro behind
  obtain ⟨read, same, result⟩ := gives behind
  refine ⟨read, same, ?_⟩
  rw [loop, result]

theorem gives_again {step : σ → CursorReader (σ ⊕ α)} {state next : σ}
    {tokens middle after : List Token} {value : α}
    (gives : Gives (step state) tokens (.inl next) middle) (reads : middle.length < tokens.length)
    (follows : Gives (loop step next) middle value after) :
    Gives (loop step state) tokens value after := by
  intro behind
  obtain ⟨read, same, result⟩ := gives behind
  obtain ⟨more, same', result'⟩ := follows (read.reverse ++ behind)
  refine ⟨read ++ more, by rw [same, same', List.append_assoc], ?_⟩
  rw [loop, result]
  simp only [if_pos reads]
  rw [result', List.reverse_append, List.append_assoc]

end CursorReader

end TableScript
