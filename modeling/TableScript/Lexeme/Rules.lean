import TableScript.Lexeme.Letter
import TableScript.Lexeme.Pattern
import TableScript.Text.Blank

/-!
The lexical rules, in order. At each place of a script the first rule that matches there decides
how far the lexeme goes and what kind it is of.
-/

namespace TableScript.Lexeme

inductive Kind where
  | blank
  | comment
  | name
  | keyword
  -- A word that may be an operator.
  | word
  -- A text in double quotes, which is a name.
  | symbol
  | number
  | literal
  | punctuation
  | placeholder
  | operator
  deriving DecidableEq

structure Rule where
  kind : Kind
  pattern : Pattern

open Pattern

def oneOf (chars : String) : Pattern :=
  .one chars.toList.contains

def noneOf (chars : String) : Pattern :=
  .one fun c => !chars.toList.contains c

def letters (word : String) : Pattern :=
  sequence (word.toList.map fun letter => .one (readsAs letter))

def blank : Pattern := .one Text.isBlank
def blanks : Pattern := atLeastOnce blank
def digit : Pattern := .one Text.isDecimalDigit
def digits : Pattern := atLeastOnce digit
def wordChar : Pattern := .one Text.isWordChar
def wordChars : Pattern := .many wordChar
def nameLead : Pattern := .one isNameLead
def name : Pattern := .seq nameLead wordChars

def isWordAt (c : Option Char) : Bool :=
  c.any Text.isWordChar

def wordEdge : Pattern :=
  .place fun before after => isWordAt before != isWordAt after

def behind (accepts : Char → Bool) : Pattern :=
  .place fun before _ => before.any accepts

def notBehind (accepts : Char → Bool) : Pattern :=
  .place fun before _ => !before.any accepts

def endOfText : Pattern :=
  .place fun _ after => after.isNone

def lineEnd : Pattern :=
  choice [exactly "\r\n", char '\r', char '\n']

-- The end of the text, or a line feed that ends it.
def lastEnd : Pattern :=
  .alt endOfText (.ahead (.seq (char '\n') endOfText))

def restOfLine : Pattern :=
  .seq (.few (noneOf "\n")) (.alt lineEnd lastEnd)

def lineComment : Pattern :=
  .alt (exactly "--") (exactly "# ")

-- Words in a row with blanks between them.
def phrase : List String → Pattern
  | [] => .nothing
  | [last] => letters last
  | first :: rest => .seq (letters first) (.seq blanks (phrase rest))

-- One of some words, and blanks.
def leading (words : List String) : Pattern :=
  choice (words.map fun word => .seq (letters word) blanks)

-- Blanks, and one of some words.
def trailing (words : List String) : Pattern :=
  choice (words.map fun word => .seq blanks (letters word))

def anyOf (words : List String) : Pattern :=
  choice (words.map letters)

/-- A text between two equal quotes, where a doubled quote and perhaps one behind a backslash
stand for the quote itself. -/
def quotedBy (quote : Char) (guarded : Bool) : Pattern :=
  let doubled := .seq (char quote) (char quote)
  let other := .one (· != quote)
  let inner :=
    if guarded then choice [doubled, .seq (char '\\') (char quote), other] else .alt doubled other
  .seq (char quote) (.seq (.many inner) (char quote))

def nameEdge : Pattern :=
  .notAhead (.one fun c => c == '_' || isNameLead c)

def minus : Pattern := optional (char '-')

def hexDigit : Pattern :=
  .one fun c => Text.isDecimalDigit c || ['A', 'B', 'C', 'D', 'E', 'F'].any (readsAs · c)

def spaceRules : List Rule :=
  [⟨.comment, sequence [lineComment, char '+', restOfLine]⟩,
   ⟨.comment, .seq lineComment restOfLine⟩,
   ⟨.blank, lineEnd⟩,
   ⟨.blank, blank⟩]

def markRules : List Rule :=
  [⟨.operator, exactly ":="⟩,
   ⟨.punctuation, exactly "::"⟩,
   ⟨.operator, char '*'⟩,
   ⟨.name, quotedBy '\x60' false⟩,
   ⟨.name, quotedBy '\u00B4' false⟩,
   ⟨.placeholder, char '?'⟩,
   ⟨.placeholder, sequence [char '%',
     optional (sequence [char '(', atLeastOnce wordChar, char ')']), letters "S"]⟩,
   ⟨.placeholder, sequence [notBehind Text.isWordChar, oneOf "$:?", atLeastOnce wordChar]⟩,
   ⟨.operator, .seq (char '\\') (atLeastOnce wordChar)⟩]

def nameRules : List Rule :=
  [⟨.keyword, .seq (anyOf ["CASE", "IN", "VALUES", "USING", "FROM", "AS"]) wordEdge⟩,
   ⟨.name, sequence [choice [char '@', exactly "##", char '#'], nameLead, atLeastOnce wordChar]⟩,
   ⟨.name, .seq name (.ahead (sequence [.many blank, char '.', .notAhead digit]))⟩,
   ⟨.name, .seq (behind (· == '.')) name⟩,
   ⟨.name, .seq name (.ahead (char '('))⟩]

def hexadecimal : Pattern :=
  sequence [minus, char '0', letters "X", atLeastOnce hexDigit]

def exponential : Pattern :=
  sequence [minus, digits, optional (.seq (char '.') digits), letters "E", minus, digits]

def fractional : Pattern :=
  sequence [nameEdge, minus,
    .alt (sequence [digits, char '.', .many digit]) (.seq (char '.') digits), nameEdge]

def integral : Pattern :=
  sequence [nameEdge, minus, digits, nameEdge]

def numberRules : List Rule :=
  [⟨.number, hexadecimal⟩, ⟨.number, exponential⟩, ⟨.number, fractional⟩, ⟨.number, integral⟩]

def bracketed : Pattern :=
  sequence [notBehind fun c => Text.isWordChar c || c == ']' || c == ')', char '[',
    atLeastOnce (noneOf "]["), char ']']

def quotedRules : List Rule :=
  [⟨.literal, quotedBy '\'' true⟩,
   ⟨.symbol, quotedBy '"' true⟩,
   ⟨.symbol, .alt (exactly "\"\"")
     (sequence [char '"', .few (noneOf "\n"), noneOf "\\", char '"'])⟩,
   ⟨.name, bracketed⟩]

def joinRule : Pattern :=
  .seq
    (optional (.alt
      (.seq (optional (leading ["LEFT", "RIGHT", "FULL"]))
        (optional (leading ["INNER", "OUTER", "STRAIGHT"])))
      (optional (leading ["CROSS", "NATURAL"]))))
    (.seq (letters "JOIN") wordEdge)

def nullsOrder : Pattern :=
  sequence [letters "NULLS", blanks, anyOf ["FIRST", "LAST"]]

def negation : Pattern :=
  optional (.seq (letters "NOT") blanks)

def timeZone : Pattern :=
  .seq (sequence [anyOf ["AT", "WITH'"], blanks, phrase ["TIME", "ZONE"], blanks])
    (sequence [char '\'', atLeastOnce (noneOf "'"), char '\''])

def likeness : Pattern :=
  sequence [negation, anyOf ["LIKE", "ILIKE", "RLIKE"], wordEdge]

def regularLikeness : Pattern :=
  sequence [negation, letters "REGEXP", optional (.seq blanks (letters "BINARY")), wordEdge]

def phraseRules : List Rule :=
  [⟨.keyword, joinRule⟩,
   ⟨.keyword, sequence [letters "END",
     optional (trailing ["IF", "LOOP", "WHILE", "FOR", "CASE"]), wordEdge]⟩,
   ⟨.keyword, sequence [letters "IF", blanks, optional (.seq (letters "NOT") blanks),
     letters "EXISTS", wordEdge]⟩,
   ⟨.keyword, .seq (phrase ["NOT", "NULL"]) wordEdge⟩,
   ⟨.keyword, sequence [anyOf ["ASC", "DESC"], optional (.seq blanks nullsOrder), wordEdge]⟩,
   ⟨.keyword, .seq (anyOf ["ASC", "DESC"]) wordEdge⟩,
   ⟨.keyword, .seq nullsOrder wordEdge⟩,
   ⟨.keyword, .seq (phrase ["UNION", "ALL"]) wordEdge⟩,
   ⟨.keyword, sequence [letters "CREATE", optional (.seq blanks (phrase ["OR", "REPLACE"])),
     wordEdge]⟩,
   ⟨.keyword, .seq (phrase ["DOUBLE", "PRECISION"]) wordEdge⟩,
   ⟨.keyword, .seq (phrase ["GROUP", "BY"]) wordEdge⟩,
   ⟨.keyword, .seq (phrase ["ORDER", "BY"]) wordEdge⟩,
   ⟨.keyword, .seq (phrase ["PRIMARY", "KEY"]) wordEdge⟩,
   ⟨.keyword, .seq (phrase ["HANDLER", "FOR"]) wordEdge⟩,
   ⟨.keyword, sequence [letters "GO", blank, digits, wordEdge]⟩,
   ⟨.keyword, sequence [letters "LATERAL", blanks, letters "VIEW", blanks,
     anyOf ["EXPLODE", "INLINE", "PARSE_URL_TUPLE", "POSEXPLODE", "STACK"], wordEdge]⟩,
   ⟨.keyword, timeZone⟩,
   ⟨.operator, likeness⟩,
   ⟨.operator, regularLikeness⟩]

def isWordInner (c : Char) : Bool :=
  c == '$' || c == '#' || Text.isWordChar c

def anyWord : Pattern :=
  .seq wordChar (.many (.one isWordInner))

def otherRules : List Rule :=
  [⟨.word, anyWord⟩,
   ⟨.punctuation, oneOf ";:()[],."⟩,
   ⟨.operator, choice [.seq (exactly "->") (optional (char '>')),
     .seq (exactly "#>") (optional (char '>')), exactly "@>", exactly "<@",
     sequence [char '?', optional (char '|')], exactly "?&", char '-', exactly "#-"]⟩,
   ⟨.operator, atLeastOnce (oneOf "<>=~!")⟩,
   ⟨.operator, atLeastOnce (oneOf "+/@#%^&|-")⟩]

def rules : List Rule :=
  spaceRules ++ markRules ++ nameRules ++ numberRules ++ quotedRules ++ phraseRules ++ otherRules

end TableScript.Lexeme
