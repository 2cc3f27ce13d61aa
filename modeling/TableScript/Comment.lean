import TableScript.Text.DollarTag

/-!
Removing comments from a script. A comment runs from two hyphens to the end of the line, or
between `/*` and `*/`, where inner pairs have to be closed too. Quoted text and text between
dollar tags is kept as it stands. A line comment leaves its line feed, a block comment leaves a
space, so the words around it stay apart; an unclosed comment leaves nothing.
-/

namespace TableScript.Comment

inductive Mode where
  | plain
  | quoted (quote : Char)
  -- The rest of an opening tag, then the text it opens.
  | opening (left : Nat) (tag : List Char)
  | tagged (tag : List Char)
  | closing (left : Nat)
  | line
  | block (depth : Nat)
  deriving DecidableEq

def isQuote (c : Char) : Bool :=
  c == '\'' || c == '"' || c == '\x60'

def isTagLead (c : Char) : Bool :=
  c.isAlpha || c == '_'

def isTagInner (c : Char) : Bool :=
  c.isAlphanum || c == '_'

def afterOpening (left : Nat) (tag : List Char) : Mode :=
  if left = 0 then .tagged tag else .opening left tag

def afterClosing (left : Nat) : Mode :=
  if left = 0 then .plain else .closing left

def stripChars : Mode → List Char → List Char
  | _, [] => []
  | .line, c :: rest =>
      if c = '\n' then c :: stripChars .plain rest else stripChars .line rest
  | .block depth, [_] => stripChars (.block depth) []
  | .block depth, c :: d :: rest =>
      if c = '/' ∧ d = '*' then stripChars (.block (depth + 1)) rest
      else if c = '*' ∧ d = '/' then
        if depth = 0 then ' ' :: stripChars .plain rest else stripChars (.block (depth - 1)) rest
      else stripChars (.block depth) (d :: rest)
  | .quoted quote, [c] => c :: stripChars (.quoted quote) []
  | .quoted quote, c :: d :: rest =>
      -- In single quotes a backslash guards the next character; a doubled quote is one quote.
      if (c = '\\' ∧ quote = '\'') ∨ (c = quote ∧ d = quote) then
        c :: d :: stripChars (.quoted quote) rest
      else if c = quote then c :: stripChars .plain (d :: rest)
      else c :: stripChars (.quoted quote) (d :: rest)
  | .opening left tag, c :: rest => c :: stripChars (afterOpening (left - 1) tag) rest
  | .closing left, c :: rest => c :: stripChars (afterClosing (left - 1)) rest
  | .tagged tag, c :: rest =>
      if tag.isPrefixOf (c :: rest) then c :: stripChars (afterClosing (tag.length - 1)) rest
      else c :: stripChars (.tagged tag) rest
  | .plain, c :: rest =>
      if isQuote c then c :: stripChars (.quoted c) rest
      else
        match Text.dollarTag? isTagLead isTagInner (c :: rest) with
        | some tag => c :: stripChars (afterOpening (tag.length - 1) tag) rest
        | none =>
            match rest with
            | [] => [c]
            | d :: more =>
                if c = '-' ∧ d = '-' then stripChars .line more
                else if c = '/' ∧ d = '*' then stripChars (.block 0) more
                else c :: stripChars .plain (d :: more)

def strip (script : String) : String :=
  String.ofList (stripChars .plain script.toList)

end TableScript.Comment
