import OrderPack.Report
import OrderPack.Text.Split
import OrderPack.Text.Terminal

/-! The grammar of a command line: commands, each with arguments told by their
place and options told by their name, and how a row of words is read by it.

An option takes the next word as its value, or what is attached to it by an equals
sign, or, for the one-letter form, what follows the letter. Letters can be run
together. After a word of two dashes every word is told by its place. A value is
looked at once the reading has moved past it, so of two faults the one found
earlier in this sense is reported. -/
namespace OrderPack.Command

/-- Which words a parameter takes. -/
inductive Domain where
  /-- Any text. -/
  | text
  /-- The path of a file, which is not empty. -/
  | path
  /-- One of these words. -/
  | choice (words : List String)
  deriving DecidableEq

/-- An argument that has a value. `shown` is its form in messages, `about` what the
help says of it. -/
structure Parameter where
  id : String
  shown : String
  domain : Domain
  about : String
  deriving DecidableEq

/-- What an option does. -/
inductive Effect where
  /-- Takes a value. -/
  | takes (parameter : Parameter)
  /-- Counts how often it occurs. -/
  | count
  /-- Asks for help. -/
  | help
  /-- Asks for the version. -/
  | version
  deriving DecidableEq

/-- An option. -/
structure Switch where
  long : String
  short : Option Char
  effect : Effect
  about : String
  deriving DecidableEq

/-- The form of an option in messages. One that counts may stand several times. -/
def Switch.shown (switch : Switch) : String :=
  match switch.effect with
  | .takes parameter => parameter.shown
  | .count => "--" ++ switch.long ++ "..."
  | .help | .version => "--" ++ switch.long

/-- The grammar of one command. -/
structure Grammar where
  /-- Its name; the program as a whole has none. -/
  name : Option String
  /-- What it is for, in a line. -/
  about : String
  /-- What it is for, at length. -/
  longAbout : Option String := none
  /-- What the help says ahead of all else, and at its end. -/
  beforeHelp : Option String := none
  afterHelp : Option String := none
  /-- The arguments told by their place. -/
  places : List Parameter
  switches : List Switch
  /-- The commands below this one. -/
  commands : List String := []
  /-- Arguments that must be given, each with those that stand in for it. -/
  required : List (String × List String) := []
  /-- Pairs of arguments of which only one may be given. -/
  conflicts : List (String × String) := []

/-- Why a command line is refused. Where the fault can be laid to one command, it
is named by its path: the words after the program's name. -/
inductive LineError where
  | missingCommand
  | unknownCommand (word : String) (path : List String)
  | unexpected (word : String) (path : List String)
  | missingArgument (path : List String)
  | conflict (one other : String) (path : List String)
  | repeated (shown : String) (path : List String)
  | unexpectedValue (value shown : String) (path : List String)
  | noValue (shown : String)
  | badValue (value shown : String)
  deriving DecidableEq

/-- The name by which the program is called. -/
def programName : String := "wtpack"

/-- The sentence for a refusal. Words of the command line are shown in it without
what would steer a terminal. -/
def LineError.message : LineError → String
  | .missingCommand => "'" ++ programName ++ "' requires a subcommand but one was not provided"
  | .unknownCommand word _ => "unrecognized subcommand '" ++ Text.unsteered word ++ "'"
  | .unexpected word _ => "unexpected argument '" ++ Text.unsteered word ++ "' found"
  | .missingArgument _ => "the following required arguments were not provided:"
  | .conflict one other _ => "the argument '" ++ one ++ "' cannot be used with '" ++ other ++ "'"
  | .repeated shown _ => "the argument '" ++ shown ++ "' cannot be used multiple times"
  | .unexpectedValue value shown _ =>
    "unexpected value '" ++ Text.unsteered value ++ "' for '" ++ shown
      ++ "' found; no more were expected"
  | .noValue shown => "a value is required for '" ++ shown ++ "' but none was supplied"
  | .badValue value shown => "invalid value '" ++ Text.unsteered value ++ "' for '" ++ shown ++ "'"

/-- The path of the command at fault. A fault of a value alone is laid to none. -/
def LineError.path : LineError → List String
  | .missingCommand | .noValue _ | .badValue _ _ => []
  | .unknownCommand _ path | .unexpected _ path | .missingArgument path | .conflict _ _ path
  | .repeated _ path | .unexpectedValue _ _ path => path

/-- The mark of a line that tells how a command is called. -/
def usageMark : List Char := ['U', 's', 'a', 'g', 'e', ':', ' ']

/-- The full text of a refusal: the sentence, and how the command at fault is called. -/
def LineError.text (error : LineError) : List Char :=
  error.message.toList ++ '\n' :: usageMark
    ++ (String.intercalate " " (programName :: error.path ++ ["[OPTIONS]"])).toList

/-- What a line says on how a command is called, if it says that. -/
def usageOf? (line : List Char) : Option (List Char) :=
  let line := Text.trim line
  if usageMark.isPrefixOf line then some (line.drop usageMark.length) else none

/-- The path of the command that is called: the words after the name of the
program, up to the first that is an option or stands for an argument. -/
def calledPath (usage : List Char) : List String :=
  let opens (word : List Char) : Bool :=
    match word with
    | c :: _ => c == '-' || c == '<' || c == '['
    | [] => false
  let path := ((Text.words usage).dropWhile (· != programName.toList)).drop 1
  (path.takeWhile (!opens ·)).map String.ofList

/-- A text in one line: the first of its lines, without blank margins. -/
def firstLine (text : String) : String :=
  String.ofList (Text.trim (text.toList.takeWhile (· != '\n')))

/-- A refusal points to the help on a command. Which one is read off the first line
of the text that tells how a command is called, be it a line of the word at fault. -/
def LineError.report (error : LineError) : Report :=
  let path := (((Text.lines error.text).findSome? usageOf?).map calledPath).getD []
  { kind := .usage
    message := some (firstLine error.message)
    hint := some ("Try `" ++ String.intercalate " " (programName :: path ++ ["--help"]) ++ "`.") }

/-- Why the reading of a command line ends before its end. -/
inductive Stop where
  /-- Help is asked for, in short or at length. -/
  | help (path : List String) (long : Bool)
  /-- The version is asked for. -/
  | version
  /-- Nothing is asked for at all. -/
  | nothing
  | refused (error : LineError)
  deriving DecidableEq

/-- How far the reading of one command's words has come. -/
structure Progress where
  /-- The values already looked at, in their order. -/
  given : List (Parameter × String) := []
  /-- The value not yet looked at, or the option that still waits for one. -/
  pending : Option (Parameter × Option String) := none
  /-- The parameters of the places not yet taken. -/
  places : List Parameter
  /-- How often an option that counts has occurred. -/
  count : Nat := 0
  /-- Whether every word is now told by its place. -/
  trailing : Bool := false

namespace Grammar

/-- The path of the command. -/
def path (grammar : Grammar) : List String := grammar.name.toList

/-- Whether a value may be given for a parameter. -/
def checkDomain (parameter : Parameter) (value : String) : Except Stop Unit :=
  match parameter.domain with
  | .text => .ok ()
  | .path => if value.isEmpty then .error (.refused (.noValue parameter.shown)) else .ok ()
  | .choice words =>
    if words.contains value then .ok ()
    else if value.isEmpty then .error (.refused (.noValue parameter.shown))
    else .error (.refused (.badValue value parameter.shown))

/-- Looks at a value. A parameter is given once at most. -/
def give (grammar : Grammar) (progress : Progress) (parameter : Parameter) (value : String) :
    Except Stop Progress :=
  if progress.given.any (·.1.id == parameter.id) then
    .error (.refused (.repeated parameter.shown grammar.path))
  else do
    checkDomain parameter value
    return { progress with given := progress.given ++ [(parameter, value)], pending := none }

/-- Looks at the value that is pending, if one is. -/
def settle (grammar : Grammar) (progress : Progress) : Except Stop Progress :=
  match progress.pending with
  | none => .ok progress
  | some (parameter, none) => .error (.refused (.noValue parameter.shown))
  | some (parameter, some value) => grammar.give progress parameter value

/-- Carries out an option that takes no value. By its name it asks for help at
length, by its letter in short. -/
def react (grammar : Grammar) (progress : Progress) (effect : Effect) (named : Bool) :
    Except Stop Progress := do
  let progress ← grammar.settle progress
  match effect with
  | .help => .error (.help grammar.path named)
  | .version => .error .version
  | .count | .takes _ => return { progress with count := progress.count + 1 }

/-- Begins an option that takes a value, which may be attached to it. -/
def begin (grammar : Grammar) (progress : Progress) (parameter : Parameter)
    (attached : Option String) : Except Stop Progress := do
  let progress ← grammar.settle progress
  match attached with
  | some value => grammar.give progress parameter value
  | none => return { progress with pending := some (parameter, none) }

/-- Reads an option by its name, with the value attached to it. -/
def readLong (grammar : Grammar) (progress : Progress) (name : String)
    (attached : Option String) : Except Stop Progress :=
  match grammar.switches.find? (·.long == name) with
  | none => .error (.refused (.unexpected ("--" ++ name) grammar.path))
  | some switch =>
    match switch.effect, attached with
    | .takes parameter, attached => grammar.begin progress parameter attached
    | effect, none => grammar.react progress effect true
    | _, some value => .error (.refused (.unexpectedValue value switch.shown grammar.path))

/-- The value that follows an option's letter in the same word, if any does. -/
def attachedValue? : List Char → Option String
  | [] => none
  | '=' :: value => some (String.ofList value)
  | value => some (String.ofList value)

/-- Reads options by their letters, run together. -/
def readShort (grammar : Grammar) (progress : Progress) : List Char → Except Stop Progress
  | [] => .ok progress
  | letter :: rest =>
    match grammar.switches.find? (·.short == some letter) with
    | none => .error (.refused (.unexpected (String.ofList ['-', letter]) grammar.path))
    | some switch =>
      match switch.effect with
      | .takes parameter => grammar.begin progress parameter (attachedValue? rest)
      | effect =>
        match grammar.react progress effect false with
        | .ok progress => readShort grammar progress rest
        | .error stop => .error stop

/-- Reads a word that is told by its place. A word that finds none is refused as
an argument, or as a command where commands are expected; but the name of a
command after two dashes is no command. -/
def readPlaced (grammar : Grammar) (progress : Progress) (word : String) :
    Except Stop Progress :=
  match progress.places with
  | parameter :: places => do
    let progress ← grammar.settle progress
    return { progress with pending := some (parameter, some word), places }
  | [] =>
    let known := progress.trailing && grammar.commands.contains word
    if grammar.commands.isEmpty || known then
      .error (.refused (.unexpected word grammar.path))
    else .error (.refused (.unknownCommand word grammar.path))

/-- How a word is told. -/
inductive Word where
  /-- Two dashes alone. -/
  | rule
  /-- An option by its name, with the value attached to it. -/
  | long (name : String) (attached : Option String)
  /-- Options by their letters. -/
  | short (letters : List Char)
  /-- Any other word, a lone dash among them. -/
  | plain
  deriving DecidableEq

/-- Tells a word by its dashes. -/
def Word.ofString (word : String) : Word :=
  match word.toList with
  | '-' :: '-' :: [] => .rule
  | '-' :: '-' :: rest =>
    let name := String.ofList (rest.takeWhile (· != '='))
    match rest.dropWhile (· != '=') with
    | [] => .long name none
    | _ :: value => .long name (some (String.ofList value))
  | '-' :: c :: rest => .short (c :: rest)
  | _ => .plain

/-- Reads words up to the name of a command, or to their end. The answer holds
that name and the words after it. -/
def read (grammar : Grammar) (progress : Progress) :
    List String → Except Stop (Progress × Option (String × List String))
  | [] => .ok (progress, none)
  | word :: words =>
    let proceed (step : Except Stop Progress) :
        Except Stop (Progress × Option (String × List String)) :=
      match step with
      | .ok progress => read grammar progress words
      | .error stop => .error stop
    if progress.trailing then proceed (grammar.readPlaced progress word)
    else if grammar.commands.contains word then .ok (progress, some (word, words))
    else
      match Word.ofString word, progress.pending with
      | .rule, _ => proceed (.ok { progress with trailing := true })
      | .long name attached, _ => proceed (grammar.readLong progress name attached)
      | .short letters, _ => proceed (grammar.readShort progress letters)
      | .plain, some (parameter, none) =>
        proceed (.ok { progress with pending := some (parameter, some word) })
      | .plain, _ => proceed (grammar.readPlaced progress word)

/-- Whether a parameter is given. -/
def isGiven (given : List (Parameter × String)) (id : String) : Bool :=
  given.any (·.1.id == id)

/-- The first argument given, in their order, that another one given excludes. -/
def clash? (grammar : Grammar) (given : List (Parameter × String)) :
    Option (Parameter × Parameter) :=
  let excludes (one other : Parameter) : Bool :=
    grammar.conflicts.contains (one.id, other.id) || grammar.conflicts.contains (other.id, one.id)
  given.findSome? fun (one, _) =>
    (given.find? fun (other, _) => excludes one other).map fun (other, _) => (one, other)

/-- Checks the arguments as a whole, once all words of a command are read. -/
def check (grammar : Grammar) (progress : Progress) : Except Stop Progress := do
  let progress ← grammar.settle progress
  match grammar.clash? progress.given with
  | some (one, other) => .error (.refused (.conflict one.shown other.shown grammar.path))
  | none =>
    let present (id : String) : Bool := isGiven progress.given id
    if grammar.required.all fun (id, others) => present id || others.any present then
      return progress
    else .error (.refused (.missingArgument grammar.path))

/-- The words of a command, read to their end and found to be in order. -/
def readAll (grammar : Grammar) (words : List String) : Except Stop Progress := do
  let (progress, _) ← grammar.read { places := grammar.places } words
  grammar.check progress

end Grammar

end OrderPack.Command
