import TableScript.Lexeme.Scan
import TableScript.Text.Upper

/-!
Tokens: what of a script is left for its grammar. Blanks and comments are gone, a phrase is its
words, and a quoted name still has its quotes. Tokens can be put together to a text again, with
a space only where two of them would run into each other.
-/

namespace TableScript

inductive Token.Kind where
  | word
  | quoted
  | string
  | number
  | punct
  | other
  deriving DecidableEq

structure Token where
  kind : Token.Kind
  value : String
  deriving DecidableEq

namespace Token

def upper (token : Token) : String :=
  Text.upper token.value

def isOneOf (token : Token) (words : List String) : Bool :=
  token.kind == .word && words.contains token.upper

def isWord (token : Token) (word : String) : Bool :=
  token.isOneOf [word]

def isPunct (token : Token) (value : String) : Bool :=
  token.kind == .punct && token.value == value

def isIdentifier (token : Token) : Bool :=
  token.kind == .word || token.kind == .quoted

def wordsOf (text : String) : List Token :=
  (Text.words text).map fun word => ⟨.word, word⟩

-- A name between backquotes or brackets is a quoted name.
def ofName (text : String) : List Token :=
  match text.toList.head? with
  | some '\x60' | some '[' => [⟨.quoted, text⟩]
  | _ => wordsOf text

-- The one word that is an operator.
def ofWord (text : String) : List Token :=
  if Text.upper text == "DIV" then [⟨.other, text⟩] else wordsOf text

def ofLexeme (lexeme : Lexeme) : List Token :=
  let text := String.ofList lexeme.chars
  match lexeme.kind with
  | .blank | .comment => []
  | .symbol => [⟨.quoted, text⟩]
  | .name => ofName text
  | .number => [⟨.number, text⟩]
  | .literal => [⟨.string, text⟩]
  | .punctuation => [⟨.punct, text⟩]
  | .placeholder | .operator => [⟨.other, text⟩]
  | .keyword => wordsOf text
  | .word => ofWord text

def tokenize (script : String) : List Token :=
  (Lexeme.scan script).flatMap ofLexeme

-- Tokens that would run into one another: names, numbers and quoted text.
def isSolid (token : Token) : Bool :=
  token.kind != .punct && token.kind != .other

def needsSpace (before after : Token) : Bool :=
  after.isSolid && (before.isSolid || before.isPunct ")")

def renderAfter : Token → List Token → String
  | _, [] => ""
  | before, token :: rest =>
      (if needsSpace before token then " " else "") ++ token.value ++ renderAfter token rest

/-- The text of tokens: a space stands before a name, number or quoted text that follows another
one or a closing parenthesis, and nowhere else. -/
def render : List Token → String
  | [] => ""
  | token :: rest => token.value ++ renderAfter token rest

end Token

/-- A data type in the one spelling that reading a script gives it. -/
def normalizeType (dataType : String) : String :=
  Token.render (Token.tokenize (Text.trim dataType))

end TableScript
