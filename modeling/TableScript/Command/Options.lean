import TableScript.Resolution
import TableScript.Text.Word

/-!
The arguments of the command line. Options may stand before and behind the command, long ones may
be shortened as long as only one option begins that way, a value may follow its option or be
joined to it by an equals sign, and short options without a value may be written as one. After a
double hyphen nothing is an option any more; joined to an option, a double hyphen leaves it
without a value. Arguments that do not fit are refused as a whole, unless a request for the
version is met before.
-/

namespace TableScript.Command

inductive Task where
  | parse
  | generate
  | format
  | introspect
  deriving DecidableEq

def Task.name : Task → String
  | .parse => "parse"
  | .generate => "generate"
  | .format => "format"
  | .introspect => "introspect"

def tasks : List Task := [.parse, .generate, .format, .introspect]

inductive LogFormat where
  | text
  | json
  deriving DecidableEq

def LogFormat.name : LogFormat → String
  | .text => "text"
  | .json => "json"

def logFormats : List LogFormat := [.text, .json]

/-- What was asked for. An option without a value has none here, like one that is not given. -/
structure Options where
  task : Task
  source : Option String
  jsonOut : Option String
  sqlOut : Option String
  resolution : Option Resolution
  detail : Nat
  logFormat : LogFormat
  colored : Bool

inductive Request where
  | refused
  | help
  | version
  | run (options : Options)

inductive Switch where
  | help
  | source
  | jsonOut
  | sqlOut
  | resolution
  | noColor
  | verbose
  | logFormat
  | version
  deriving DecidableEq

def Switch.takesValue : Switch → Bool
  | .source | .jsonOut | .sqlOut | .resolution | .logFormat => true
  | .help | .noColor | .verbose | .version => false

def switches : List (String × Switch) :=
  [("-h", .help), ("--help", .help), ("--source", .source), ("--json-out", .jsonOut),
   ("--sql-out", .sqlOut), ("--resolution", .resolution), ("--no-color", .noColor),
   ("--verbose", .verbose), ("-v", .verbose), ("--log-format", .logFormat),
   ("--version", .version)]

inductive Argument where
  | plain (value : String)
  -- Switches without a value, written as one.
  | cluster (members : List Switch)
  | switch (switch : Switch) (joined : Option String)
  | unknown
  -- Refused as soon as it is reached.
  | unfit
  | separator

def exactSwitch? (chars : List Char) : Option Switch :=
  switches.lookup (String.ofList chars)

-- The text before the first equals sign and the text behind it.
def splitJoined? (chars : List Char) : Option (List Char × List Char) :=
  match chars.dropWhile (· != '=') with
  | '=' :: value => some (chars.takeWhile (· != '='), value)
  | _ => none

def isDigits (chars : List Char) : Bool :=
  !chars.isEmpty && chars.all Text.isDecimalDigit

def isNumber (chars : List Char) : Bool :=
  isDigits chars ||
    (match chars.dropWhile (· != '.') with
      | '.' :: decimals =>
          isDigits decimals && (chars.takeWhile (· != '.')).all Text.isDecimalDigit
      | _ => false)

/-- A hyphen and a number: such an argument is a value. One line feed at its end does not
count. -/
def isNegativeNumber : List Char → Bool
  | '-' :: rest => isNumber (if rest.getLast? = some '\n' then rest.dropLast else rest)
  | _ => false

/-- Short options written as one. Nothing else may stand among them. -/
def clusterFrom (members : List Switch) : List Char → Argument
  | [] => .cluster members
  | c :: rest =>
      match exactSwitch? ['-', c] with
      | some switch => clusterFrom (members ++ [switch]) rest
      | none => .unfit

/-- An option with a value joined to it. What is joined to a short one without a value goes on
with short options. -/
def joinedTo (name : List Char) (switch : Switch) (value : List Char) : Argument :=
  if switch.takesValue || name.length != 2 then .switch switch (some (String.ofList value))
  else if value.isEmpty then .unfit
  else clusterFrom [switch] value

def startingWith (start : List Char) : List Switch :=
  (switches.filter fun (name, _) => start.isPrefixOf name.toList).map (·.2)

-- An argument that is no full name of an option; nothing when it fits several.
def shortened? (chars : List Char) : Option Argument :=
  let other :=
    if isNegativeNumber chars || chars.contains ' ' then
      Argument.plain (String.ofList chars)
    else .unknown
  match chars with
  | '-' :: '-' :: _ =>
      let (start, joined) := match splitJoined? chars with
        | some (start, value) => (start, some (String.ofList value))
        | none => (chars, none)
      match startingWith start with
      | [] => some other
      | [switch] => some (.switch switch joined)
      | _ => none
  | '-' :: c :: rest =>
      match exactSwitch? ['-', c] with
      | none => some other
      | some switch => some (clusterFrom [switch] rest)
  | _ => some other

/-- What an argument is, read on its own; nothing when it is refused. -/
def argument? (text : String) : Option Argument :=
  let chars := text.toList
  match chars with
  | '-' :: _ :: _ =>
      match exactSwitch? chars with
      | some switch => some (.switch switch none)
      | none =>
          match splitJoined? chars with
          | some (name, value) =>
              match exactSwitch? name with
              | some switch => some (joinedTo name switch value)
              | none => shortened? chars
          | none => shortened? chars
  | _ => some (.plain text)

def arguments? : List String → Option (List Argument)
  | [] => some []
  | text :: rest =>
      if text == "--" then some (.separator :: rest.map .plain)
      else
        match argument? text with
        | none => none
        | some argument => (arguments? rest).map (argument :: ·)

structure Gathered where
  task : Option Task
  sourceGiven : Bool
  source : Option String
  jsonOut : Option String
  sqlOut : Option String
  resolution : Option Resolution
  detail : Nat
  logFormat : LogFormat
  colored : Bool
  -- Whether an argument was met that belongs nowhere.
  leftover : Bool

def Gathered.start : Gathered :=
  ⟨none, false, none, none, none, some .deferred, 0, .text, true, false⟩

def Gathered.finish (gathered : Gathered) : Request :=
  match gathered.task, gathered.sourceGiven, gathered.leftover with
  | some task, true, false =>
      .run ⟨task, gathered.source, gathered.jsonOut, gathered.sqlOut, gathered.resolution,
        gathered.detail, gathered.logFormat, gathered.colored⟩
  | _, _, _ => .refused

def namedTask? (name : String) : Option Task :=
  tasks.find? fun task => task.name == name

def emptied (gathered : Gathered) : Switch → Gathered
  | .source => { gathered with sourceGiven := true, source := none }
  | .jsonOut => { gathered with jsonOut := none }
  | .sqlOut => { gathered with sqlOut := none }
  | .resolution => { gathered with resolution := none }
  | .logFormat => { gathered with logFormat := .text }
  | .help | .noColor | .verbose | .version => gathered

def withValue? (gathered : Gathered) (value : String) (switch : Switch) : Option Gathered :=
  if value == "--" then some (emptied gathered switch)
  else
    match switch with
    | .source => some { gathered with sourceGiven := true, source := some value }
    | .jsonOut => some { gathered with jsonOut := some value }
    | .sqlOut => some { gathered with sqlOut := some value }
    | .resolution =>
        (Resolution.ofName? value).map fun mode => { gathered with resolution := some mode }
    | .logFormat =>
        (logFormats.find? fun format => format.name == value).map fun format =>
          { gathered with logFormat := format }
    | .help | .noColor | .verbose | .version => none

/-- Takes switches without a value in order; the first that asks for a text ends everything. -/
def withSwitches (gathered : Gathered) : List Switch → Except Request Gathered
  | [] => .ok gathered
  | .help :: _ => .error .help
  | .version :: _ => .error .version
  | .noColor :: rest => withSwitches { gathered with colored := false } rest
  | .verbose :: rest => withSwitches { gathered with detail := gathered.detail + 1 } rest
  | _ :: _ => .error .refused

-- A separator next to the command belongs to it.
def skipSeparator : List Argument → List Argument
  | .separator :: rest => rest
  | arguments => arguments

def gather : Nat → Gathered → List Argument → Request
  | 0, _, _ => .refused
  | _, gathered, [] => gathered.finish
  | steps + 1, gathered, .plain value :: rest =>
      if gathered.task.isSome then gather steps { gathered with leftover := true } rest
      else
        match namedTask? value with
        | some task => gather steps { gathered with task := some task } (skipSeparator rest)
        | none => .refused
  | steps + 1, gathered, .separator :: rest =>
      match gathered.task, rest with
      | none, .plain value :: rest =>
          match namedTask? value with
          | some task => gather steps { gathered with task := some task } rest
          | none => .refused
      | _, _ => gather steps { gathered with leftover := true } rest
  | steps + 1, gathered, .unknown :: rest =>
      gather steps { gathered with leftover := true } rest
  | _ + 1, _, .unfit :: _ => .refused
  | steps + 1, gathered, .cluster members :: rest =>
      match withSwitches gathered members with
      | .error request => request
      | .ok taken => gather steps taken rest
  | steps + 1, gathered, .switch switch joined :: rest =>
      if switch.takesValue then
        match joined, rest with
        | some value, _ =>
            match withValue? gathered value switch with
            | some gathered => gather steps gathered rest
            | none => .refused
        | none, .plain value :: rest =>
            match withValue? gathered value switch with
            | some gathered => gather steps gathered rest
            | none => .refused
        | none, _ => .refused
      else
        match joined with
        | some _ => .refused
        | none =>
            match withSwitches gathered [switch] with
            | .error request => request
            | .ok gathered => gather steps gathered rest

def Request.ofArguments (texts : List String) : Request :=
  match arguments? texts with
  | none => .refused
  | some arguments => gather (arguments.length + 1) .start arguments

end TableScript.Command
