/-!
# Options

How the words of a command line are told apart.  A level of the command line has
a table of options.  Words are read in order, and the first one that is wrong
ends the reading, even if a word that asks for help comes after it.

A value follows its option as the next word or behind an equals sign.  As the
next word it cannot begin with a dash, unless the dash is all of it.  After the
word `--` nothing is an option.
-/

namespace Tapline.CommandLine

/-- Why the command line does not lead to a run. -/
inductive Halt where
  | help
  | version
  | misuse
deriving DecidableEq, Inhabited

/-- What an option does. -/
inductive OptionUse where
  /-- Ends the reading. -/
  | halt (reason : Halt)
  /-- Can be given once and has no value. -/
  | flag
  /-- Can be given any number of times and has no value. -/
  | counter
  /-- Can be given once, with a value that is allowed. -/
  | value (allowed : String → Bool)

/-- An option: its name behind two dashes, perhaps its letter behind one, and
what it does. -/
structure OptionRule where
  name : String
  letter : Option Char
  use : OptionUse

/-- The options given so far, each with its value, and the other words. -/
structure Given where
  options : List (String × String)
  operands : List String
deriving DecidableEq, Inhabited

namespace Given

def nothing : Given := ⟨[], []⟩

def has (given : Given) (name : String) : Bool :=
  given.options.any (·.1 = name)

def value? (given : Given) (name : String) : Option String :=
  given.options.lookup name

/-- Adds an option that may be given once. -/
def addOption (given : Given) (name value : String) : Except Halt Given :=
  if given.has name then .error .misuse
  else .ok { given with options := given.options ++ [(name, value)] }

/-- Adds an option with a value that has to be allowed. -/
def addValue (given : Given) (name : String) (allowed : String → Bool)
    (value : String) : Except Halt Given :=
  if allowed value then given.addOption name value else .error .misuse

def addOperand (given : Given) (word : String) : Given :=
  { given with operands := given.operands ++ [word] }

end Given

/-- The outcome of an option without a value. -/
def OptionRule.apply (rule : OptionRule) (given : Given) : Except Halt Given :=
  match rule.use with
  | .halt reason => .error reason
  | .flag => given.addOption rule.name ""
  | .counter => .ok given
  | .value _ => .error .misuse

/-- The outcome of letters behind one dash.  No letter takes a value. -/
def applyLetters (rules : List OptionRule) :
    List Char → Given → Except Halt Given
  | [], given => .ok given
  | letter :: letters, given =>
      match rules.find? (·.letter = some letter) with
      | some rule => do applyLetters rules letters (← rule.apply given)
      | none => .error .misuse

/-- What a word looks like. -/
inductive Word where
  /-- Two dashes alone. -/
  | separator
  /-- An option's name, and the value behind an equals sign. -/
  | named (name : List Char) (value : Option (List Char))
  /-- Letters behind one dash. -/
  | lettered (letters : List Char)
  | operand
deriving DecidableEq

def Word.ofText (text : String) : Word :=
  match text.toList with
  | ['-', '-'] => .separator
  | '-' :: '-' :: rest =>
      match rest.dropWhile (· ≠ '=') with
      | _ :: value => .named (rest.takeWhile (· ≠ '=')) (some value)
      | [] => .named rest none
  | '-' :: letter :: letters => .lettered (letter :: letters)
  | _ => .operand

/-- One level of the command line. -/
structure Level where
  rules : List OptionRule
  /-- Whether a word that is no option may be given after these. -/
  allows : List String → String → Bool
  /-- Whether the level ends in front of the first word that is no option. -/
  endsAtOperand : Bool

namespace Level

def rule? (level : Level) (name : List Char) : Option OptionRule :=
  level.rules.find? (·.name.toList = name)

/-- Adds a word that is no option, if it is allowed. -/
def addOperand (level : Level) (given : Given) (word : String) :
    Except Halt Given :=
  if level.allows given.operands word then .ok (given.addOperand word)
  else .error .misuse

/-- Reads the words of a level, and returns the words after it. -/
def read (level : Level) (given : Given) :
    List String → Except Halt (Given × List String)
  | [] => .ok (given, [])
  | text :: words =>
      match Word.ofText text with
      | .separator => do
          let given ← words.foldlM level.addOperand given
          .ok (given, [])
      | .operand =>
          if level.endsAtOperand then
            .ok (given, text :: words)
          else do
            level.read (← level.addOperand given text) words
      | .lettered letters => do
          level.read (← applyLetters level.rules letters given) words
      | .named name behind =>
          match level.rule? name with
          | none => .error .misuse
          | some rule =>
              match rule.use, behind, words with
              | .value allowed, some value, words => do
                  let value := String.ofList value
                  level.read (← given.addValue rule.name allowed value) words
              | .value allowed, none, value :: words =>
                  if Word.ofText value = .operand then do
                    level.read (← given.addValue rule.name allowed value) words
                  else
                    .error .misuse
              | .value _, none, [] => .error .misuse
              | _, some _, _ => .error .misuse
              | _, none, words => do level.read (← rule.apply given) words

end Level

end Tapline.CommandLine
