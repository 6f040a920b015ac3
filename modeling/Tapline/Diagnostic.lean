import Tapline.Span
import Tapline.Text.Bytes

/-!
# Diagnostics

A diagnostic is a problem together with the span it concerns.  Every problem
has a stable code, a text, and the arguments that its text mentions.
-/

namespace Tapline

/-- Which part of the work a problem comes from. -/
inductive ProblemKind where
  | lexical
  | syntactic
  | resolution
deriving DecidableEq, Inhabited

/-- Everything that can be wrong with the text of a definition.  `found` is how
the offending token is described. -/
inductive Problem where
  | unexpectedCharacter (character : String)
  | unterminatedLiteral
  | unexpectedToken (found : String)
  | expectedModuleName (found : String)
  | expectedArgumentName
  | expectedEquals (argument : String)
  | expectedArgumentValue (argument : String)
  | expectedChannelSegment (found : String)
  | expectedIndexSegment (found : String)
  | expectedChannel (found : String)
  | emptyPipeline
  | danglingPipe
  | danglingArrow
  | tapAsSink
  | indexOnlyOnTaps
  | multipleIndexes
  | duplicateLabel (label : String)
  | duplicateArgument (module argument : String)
  | jobWithChannels
  | jobWithMultipleModules
  | unknownStream (name : String)
  | unknownJob (name : String)
  | tapIndexOutOfRange (target index : String) (size : Nat)
deriving DecidableEq, Inhabited

namespace Problem

def code : Problem → String
  | .unexpectedCharacter _ => "XD100E"
  | .unterminatedLiteral => "XD101E"
  | .unexpectedToken _ => "XD110E"
  | .expectedModuleName _ => "XD111E"
  | .expectedArgumentName => "XD112E"
  | .expectedEquals _ => "XD113E"
  | .expectedArgumentValue _ => "XD114E"
  | .expectedChannelSegment _ => "XD115E"
  | .expectedIndexSegment _ => "XD116E"
  | .expectedChannel _ => "XD117E"
  | .emptyPipeline => "XD118E"
  | .danglingPipe => "XD119E"
  | .danglingArrow => "XD120E"
  | .tapAsSink => "XD121E"
  | .indexOnlyOnTaps => "XD122E"
  | .multipleIndexes => "XD123E"
  | .duplicateLabel _ => "XD124E"
  | .duplicateArgument _ _ => "XD125E"
  | .jobWithChannels => "XD126E"
  | .jobWithMultipleModules => "XD127E"
  | .unknownStream _ => "XD140E"
  | .unknownJob _ => "XD141E"
  | .tapIndexOutOfRange _ _ _ => "XD142E"

/-- The part of the work that finds the problem. -/
def kind : Problem → ProblemKind
  | .unexpectedCharacter _ | .unterminatedLiteral => .lexical
  | .unknownStream _ | .unknownJob _ | .tapIndexOutOfRange _ _ _ => .resolution
  | _ => .syntactic

def arguments : Problem → List String
  | .unexpectedCharacter character => [character]
  | .unexpectedToken found | .expectedModuleName found
  | .expectedChannelSegment found | .expectedIndexSegment found
  | .expectedChannel found => [found]
  | .expectedEquals argument | .expectedArgumentValue argument => [argument]
  | .duplicateLabel label => [label]
  | .duplicateArgument module argument => [module, argument]
  | .unknownStream name | .unknownJob name => [name]
  | .tapIndexOutOfRange target index size => [target, index, toString size]
  | _ => []

def text : Problem → String
  | .unexpectedCharacter character => "Unexpected character '" ++ character ++ "'"
  | .unterminatedLiteral => "Unterminated quoted literal"
  | .unexpectedToken found => "Unexpected " ++ found
  | .expectedModuleName found => "Expected a module name, found " ++ found
  | .expectedArgumentName => "Expected an argument name after '--'"
  | .expectedEquals argument =>
      "Expected '=' after argument name '" ++ argument ++ "'"
  | .expectedArgumentValue argument =>
      "Expected a value for argument '" ++ argument ++ "'"
  | .expectedChannelSegment found =>
      "Expected a channel name segment, found " ++ found
  | .expectedIndexSegment found =>
      "Expected a module label or index after '.', found " ++ found
  | .expectedChannel found =>
      "Expected a channel (queue:, topic:, stream:, job:) after '>', found " ++ found
  | .emptyPipeline => "A definition must contain at least one module"
  | .danglingPipe => "'|' must have a module on both sides"
  | .danglingArrow => "'>' must be followed by a channel"
  | .tapAsSink => "A tap can only be used as a source channel"
  | .indexOnlyOnTaps => "Only tap channels can be indexed"
  | .multipleIndexes => "A tap can only be indexed once"
  | .duplicateLabel label =>
      "Label '" ++ label ++
        "' is used more than once, add a distinct label ('name: module')"
  | .duplicateArgument module argument =>
      "Argument '" ++ argument ++ "' is specified more than once for module '" ++
        module ++ "'"
  | .jobWithChannels => "A job definition cannot use channels"
  | .jobWithMultipleModules =>
      "A job definition must consist of exactly one module"
  | .unknownStream name => "Unrecognized stream reference '" ++ name ++ "'"
  | .unknownJob name => "Unrecognized job reference '" ++ name ++ "'"
  | .tapIndexOutOfRange target index size =>
      "Tap index " ++ index ++ " is out of range for stream '" ++ target ++
        "' which has " ++ toString size ++ " modules"

end Problem

/-- A problem and where it is. -/
structure Diagnostic where
  problem : Problem
  span : Span
deriving DecidableEq, Inhabited

namespace Diagnostic

/-- The one-line form: code, position and text. -/
def message (diagnostic : Diagnostic) : String :=
  diagnostic.problem.code ++ ":(pos " ++ toString diagnostic.span.start ++ "): " ++
    diagnostic.problem.text

/-- How many characters stand in front of the span.  An offset inside a
character counts as it is. -/
def caretColumn (diagnostic : Diagnostic) (source : List Char) : Nat :=
  let start := diagnostic.span.start
  match Text.slice? source 0 (min start (Text.byteLength source)) with
  | some before => before.length
  | none => start

/-- How many characters the span covers, but at least one, so that there is
always something to point at. -/
def caretWidth (diagnostic : Diagnostic) (source : List Char) : Nat :=
  let span := diagnostic.span
  match Text.slice? source span.start (min span.stop (Text.byteLength source)) with
  | some inside => max 1 inside.length
  | none => 1

def caretLine (diagnostic : Diagnostic) (source : List Char) : List Char :=
  List.replicate (diagnostic.caretColumn source) ' ' ++
    List.replicate (diagnostic.caretWidth source) '^'

/-- The message, the text it is about, and the line that points at the span. -/
def render (diagnostic : Diagnostic) (source : String) : String :=
  diagnostic.message ++ "\n" ++ source ++ "\n" ++
    String.ofList (diagnostic.caretLine source.toList)

end Diagnostic

end Tapline
