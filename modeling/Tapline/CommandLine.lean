import Tapline.CommandLine.Invocation
import Tapline.CommandLine.Script
import Tapline.Json.Printer
import Tapline.Manifest.Document
import Tapline.Report
import Tapline.Schema
import Tapline.Settings.Document
import Tapline.Token.Lexer

/-!
# The command line

The commands of the program.  Every command prints text for people or, if asked
to, a JSON document.  The status tells a definition that is wrong from a file
or command line that is.
-/

namespace Tapline.CommandLine

namespace Outcome

def lines (status : Status) (lines : List String) : Outcome :=
  ⟨status, String.join (lines.map (· ++ "\n")), ""⟩

def document (status : Status) (json : Json) : Outcome :=
  lines status [json.pretty]

/-- Prints an error message about a definition. -/
def complaint (message : String) : Outcome :=
  ⟨.invalid, "", message ++ "\n"⟩

/-- Prints a document about what is wrong with a definition. -/
def rejection (error : Json) : Outcome :=
  document .invalid (Json.ofFields [("error", error)]).sorted

def refusal (message : String) : Outcome :=
  ⟨.unusable, "", "Error: " ++ message ++ "\n"⟩

end Outcome

/-- The blanks that fill up a text to four characters. -/
def padding (text : String) : String :=
  String.ofList (List.replicate (4 - text.length) ' ')

/-- A number at the right of a column of four characters. -/
def alignRight (number : Nat) : String :=
  padding (toString number) ++ toString number

/-- A number at the left of a column of four characters. -/
def alignLeft (number : Nat) : String :=
  toString number ++ padding (toString number)

def tokenLine (lexeme : Lexeme) : String :=
  alignRight lexeme.span.start ++ ".." ++ alignLeft lexeme.span.stop ++ " " ++
    lexeme.token.describe

/-- A token with its span, in a document. -/
def tokenJson (lexeme : Lexeme) : Json :=
  Json.ofFields [
    ("token", Json.ofText lexeme.token.describe),
    ("span", lexeme.span.toJson)]

def showTokens (text : String) (json : Bool) : Outcome :=
  let lexemes := Lexeme.ofText text
  if json then .document .fine (Json.list (lexemes.map tokenJson)).sorted
  else .lines .fine (lexemes.map tokenLine)

def showTree (text : String) (kind : Kind) (layout : Layout) (json : Bool) :
    Outcome :=
  match Pipeline.parse kind text with
  | .ok pipeline =>
      if json then .document .fine pipeline.toJson
      else .lines .fine [pipeline.render layout]
  | .error diagnostic =>
      if json then .rejection diagnostic.toJson
      else .complaint (diagnostic.render text)

/-- Shows what was deployed and what was not. -/
def showDeployment (registry : Registry) (failures : List Failure) (json : Bool) :
    Outcome :=
  let status := if failures.isEmpty then Status.fine else Status.invalid
  if json then
    .document status (Json.ofFields [
      ("deployed", Json.ofTexts registry.names),
      ("errors", .list (failures.map Failure.toJson))]).sorted
  else
    .lines status (registry.names.map ("ok    " ++ ·) ++
      failures.map ("FAIL  " ++ ·.message))

/-- A failure with the text that is at fault, if one is. -/
def failureText (failure : Failure) (text : String) : String :=
  match failure.diagnostic? with
  | some diagnostic => failure.name ++ ": " ++ diagnostic.render text
  | none => failure.message

/-- The name of a definition that was given none: the one that the text
declares, or else a name for all such texts. -/
def nameIn (text : String) : String :=
  match Pipeline.parse .stream text with
  | .ok pipeline => pipeline.name.getD "definition"
  | .error _ => "definition"

/-- Shows the resolved tree that a text would be deployed with. -/
def showResolved (registry : Registry) (text : String) (name : Option String)
    (kind : Kind) (layout : Layout) (json : Bool) : Outcome :=
  match registry.stage kind (name.getD (nameIn text)) text with
  | .ok definition =>
      if json then .document .fine definition.toJson
      else .lines .fine [definition.tree.render layout]
  | .error failure =>
      if json then .rejection failure.toJson
      else .complaint (failureText failure text)

/-- Deploys a manifest, or nothing if there is none, and goes on.  What is logged about
the entries that fail is no part of the outcome. -/
def withManifest (settings : Settings) (manifest : Option String)
    (next : Registry → List Failure → Outcome) : Script :=
  match manifest with
  | none => .halt (next settings.registry [])
  | some path =>
      .read path fun read =>
        match Manifest.ofFile read with
        | .error error => .halt (.refusal (path ++ ": " ++ error.message))
        | .ok manifest =>
            let (failures, registry) := manifest.deployInto settings.registry
            .halt (next registry failures)

def Command.script (settings : Settings) (json : Bool) : Command → Script
  | .tokens text => .halt (showTokens text json)
  | .parse text kind layout => .halt (showTree text kind layout json)
  | .check manifest =>
      match manifest <|> settings.defaultManifest with
      | none =>
          .halt (.refusal "no manifest given and no default_manifest configured")
      | some path =>
          withManifest settings path fun registry failures =>
            showDeployment registry failures json
  | .resolve text manifest name kind layout =>
      withManifest settings (manifest <|> settings.defaultManifest)
        fun registry _ => showResolved registry text name kind layout json
  | .schema target => .halt (.document .fine (Schema.ofTarget target))

/-- The run of an invocation.  The settings are read first; `configured` is the
settings file to use if the invocation names none. -/
def Invocation.script (configured : Option String) (invocation : Invocation) :
    Script :=
  let path := (invocation.config <|> configured).getD
    (Path.inside "." Settings.fileName)
  .read path fun read =>
    match Settings.ofFile path read with
    | .error error => .halt (.refusal error.message)
    | .ok settings => invocation.command.script settings invocation.json

def usage : String :=
  "Usage: stream-dsl [--config FILE] [--json] [-v] COMMAND\n\n" ++
  "Commands:\n" ++
  "  tokens TEXT\n" ++
  "  parse TEXT [--positions] [--kind stream|job]\n" ++
  "  check [--manifest FILE]\n" ++
  "  resolve TEXT [--manifest FILE] [--name NAME] [--kind stream|job] " ++
    "[--positions]\n" ++
  "  schema [settings|manifest]\n"

def Halt.outcome : Halt → Outcome
  | .help => ⟨.fine, usage, ""⟩
  | .version => .lines .fine ["stream-dsl 0.1.0"]
  | .misuse => ⟨.unusable, "", usage⟩

/-- The run for the words of a command line. -/
def script (configured : Option String) (words : List String) : Script :=
  match Invocation.read words with
  | .ok invocation => invocation.script configured
  | .error halt => .halt halt.outcome

end Tapline.CommandLine
