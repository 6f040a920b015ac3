import Tapline.CommandLine.Options
import Tapline.Schema

/-!
# Invocations

An invocation is a command line that has been understood: a command with what it
works on, and the options that every command has.  These can be given before and
after the name of the command; the ones after it count.
-/

namespace Tapline.CommandLine

/-- What the program is asked to do. -/
inductive Command where
  /-- Show the tokens of a text. -/
  | tokens (text : String)
  /-- Show the tree of a text. -/
  | parse (text : String) (kind : Kind) (layout : Layout)
  /-- Deploy a manifest and report the failures. -/
  | check (manifest : Option String)
  /-- Resolve a text against the definitions of a manifest. -/
  | resolve (text : String) (manifest name : Option String) (kind : Kind)
      (layout : Layout)
  /-- Show a schema. -/
  | schema (target : SchemaTarget)
deriving DecidableEq, Inhabited

/-- A command together with the options of every command. -/
structure Invocation where
  command : Command
  config : Option String
  json : Bool
deriving DecidableEq, Inhabited

/-- The names of the commands. -/
inductive CommandName where
  | tokens
  | parse
  | check
  | resolve
  | schema
deriving DecidableEq, Inhabited

/-- An option whose value names a file, which cannot be empty. -/
def fileOption (name : String) : OptionRule :=
  ⟨name, none, .value (· ≠ "")⟩

def commonRules : List OptionRule := [
  fileOption "config",
  ⟨"json", none, .flag⟩,
  ⟨"verbose", some 'v', .counter⟩,
  ⟨"help", some 'h', .halt .help⟩]

def positionsRule : OptionRule :=
  ⟨"positions", none, .flag⟩

/-- The option for the kind of a definition. -/
def kindRule : OptionRule :=
  ⟨"kind", none, .value fun word => (Kind.ofWord? word).isSome⟩

/-- The words in front of the name of the command. -/
def outerLevel : Level where
  rules := commonRules ++ [⟨"version", some 'V', .halt .version⟩]
  allows _ _ := false
  endsAtOperand := true

namespace CommandName

def ofWord? : String → Option CommandName
  | "tokens" => some .tokens
  | "parse" => some .parse
  | "check" => some .check
  | "resolve" => some .resolve
  | "schema" => some .schema
  | _ => none

def rules : CommandName → List OptionRule
  | .tokens | .schema => []
  | .parse => [positionsRule, kindRule]
  | .check => [fileOption "manifest"]
  | .resolve =>
      [fileOption "manifest", ⟨"name", none, .value fun _ => true⟩, kindRule,
        positionsRule]

/-- Whether a word may be what a command works on, after others. -/
def allows : CommandName → List String → String → Bool
  | .check, _, _ => false
  | .schema, [], word => (SchemaTarget.ofWord? word).isSome
  | _, [], _ => true
  | _, _ :: _, _ => false

/-- The words after the name of the command. -/
def level (name : CommandName) : Level where
  rules := commonRules ++ name.rules
  allows := name.allows
  endsAtOperand := false

end CommandName

namespace Given

def kind (given : Given) : Kind :=
  ((given.value? "kind").bind Kind.ofWord?).getD .stream

def layout (given : Given) : Layout :=
  if given.has "positions" then .positions else .canonical

/-- The command with what was given for it. -/
def command? (given : Given) (name : CommandName) : Option Command :=
  match name, given.operands with
  | .tokens, [text] => some (.tokens text)
  | .parse, [text] => some (.parse text given.kind given.layout)
  | .check, [] => some (.check (given.value? "manifest"))
  | .resolve, [text] =>
      some (.resolve text (given.value? "manifest") (given.value? "name")
        given.kind given.layout)
  | .schema, [] => some (.schema .settings)
  | .schema, [word] => (SchemaTarget.ofWord? word).map .schema
  | _, _ => none

end Given

namespace Invocation

/-- The answer to a request for help on a topic. -/
def helpOn : List String → Halt
  | [] => .help
  | [topic] =>
      if topic = "help" || (CommandName.ofWord? topic).isSome then .help
      else .misuse
  | _ => .misuse

/-- Reads the words after the name of a command. -/
def readCommand (outer : Given) (name : CommandName) (words : List String) :
    Except Halt Invocation := do
  let (inner, _) ← name.level.read .nothing words
  match inner.command? name with
  | none => .error .misuse
  | some command =>
      .ok {
        command
        config := inner.value? "config" <|> outer.value? "config"
        json := inner.has "json" || outer.has "json" }

/-- Reads a command line without the name of the program. -/
def read (words : List String) : Except Halt Invocation := do
  match ← outerLevel.read .nothing words with
  | (_, []) => .error .misuse
  | (outer, word :: words) =>
      if word = "help" then
        .error (helpOn words)
      else
        match CommandName.ofWord? word with
        | some name => readCommand outer name words
        | none => .error .misuse

end Invocation

end Tapline.CommandLine
