import OrderPack.Command.Grammar

/-! What a command line asks for. -/
namespace OrderPack.Command

/-- The shells for which completion can be set up. -/
inductive Shell where
  | bash
  | elvish
  | fish
  | powershell
  | zsh
  deriving DecidableEq

/-- The word for a shell on the command line. -/
def Shell.name : Shell → String
  | .bash => "bash"
  | .elvish => "elvish"
  | .fish => "fish"
  | .powershell => "powershell"
  | .zsh => "zsh"

/-- All shells, in the order of their names. -/
def Shell.all : List Shell := [.bash, .elvish, .fish, .powershell, .zsh]

/-- Where the JSON arguments for packing come from. -/
inductive ArgumentSource where
  | inline (text : String)
  | file (path : String)
  /-- Nowhere: there are no arguments. -/
  | absent
  deriving DecidableEq

/-- Where the record to unpack comes from. Text is hexadecimal, files are not. -/
inductive RecordSource where
  | inline (hex : String)
  | file (path : String)
  | standardInput
  deriving DecidableEq

/-- One thing to do. -/
inductive Invocation where
  | pack (descriptor : String) (source : ArgumentSource) (output : Option String)
  | unpack (descriptor : String) (source : RecordSource)
  | inspect (descriptor : String)
  | inspectTable (config : String)
  | version
  | completion (shell : Shell)
  deriving DecidableEq

/-- How closely what is done is followed. -/
inductive LogLevel where
  /-- Things worth a second look, such as values that are ignored. -/
  | debug
  /-- Every single step. -/
  | trace
  deriving DecidableEq

namespace LogLevel

/-- The word for a level in what is logged. -/
def name : LogLevel → String
  | .debug => "DEBUG"
  | .trace => "TRACE"

/-- The finest level asked for by an option that stands so many times. -/
def ofCount? : Nat → Option LogLevel
  | 0 => none
  | 1 => some .debug
  | _ => some .trace

/-- Whether a level is logged where another is the finest asked for. -/
def isWithin (level : LogLevel) : (finest : Option LogLevel) → Bool
  | none => false
  | some .debug => level == .debug
  | some .trace => true

end LogLevel

/-- All that a command line says. -/
structure Request where
  invocation : Invocation
  /-- The finest level of what is logged; without one, nothing is. -/
  logLevel : Option LogLevel
  deriving DecidableEq

namespace Line

/-- Raises how much is logged; it stands with every command. -/
def verbose : Switch :=
  ⟨"verbose", some 'v', .count,
    "Raise log verbosity on stderr (-v debug, -vv trace); RUST_LOG overrides"⟩

/-- Asks for help; it stands with every command. -/
def help : Switch := ⟨"help", some 'h', .help, "Print help"⟩

/-- An option that takes a value. -/
def option (parameter : Parameter) (short : Option Char) : Switch :=
  ⟨parameter.id, short, .takes parameter, parameter.about⟩

def format : Parameter := ⟨"format", "<FORMAT>", .text, "Format descriptor"⟩
def optionalFormat : Parameter := ⟨"format", "[FORMAT]", .text, "Format descriptor"⟩
def args : Parameter := ⟨"args", "[ARGS]", .text, "JSON array of arguments"⟩
def argsFile : Parameter :=
  ⟨"args-file", "--args-file <ARGS_FILE>", .path, "Read the JSON argument array from a file"⟩
def output : Parameter :=
  ⟨"output", "--output <OUTPUT>", .path, "Also write the packed bytes to a file"⟩
def hex : Parameter := ⟨"hex", "[HEX]", .text, "Packed bytes as hex"⟩
def input : Parameter :=
  ⟨"input", "--input <INPUT>", .path, "Read raw packed bytes from a file"⟩
def table : Parameter :=
  ⟨"table", "--table <TABLE>", .text, "Table config string with key_format/value_format"⟩
def shell : Parameter :=
  ⟨"shell", "<SHELL>", .choice (Shell.all.map Shell.name), "Shell to generate completions for"⟩
def topic : Parameter := ⟨"command", "[COMMAND]...", .text, "Print help for the subcommand(s)"⟩

/-- Texts in lines. -/
def inLines (texts : List String) : String := String.intercalate "\n" texts

/-- The grammar before the name of a command. -/
def root : Grammar where
  name := none
  about := "Order-preserving struct packing for WiredTiger-style keys and values"
  beforeHelp := some (inLines
    ["A format string describes a record field by field; packed bytes of",
      "integer fields sort the same way as the integers they encode.",
      "",
      "Common formats:",
      "  q, Q     signed / unsigned varints",
      "  S        NUL-terminated string",
      "  u        length-prefixed bytes (raw remainder when last)",
      "  r        record number",
      ""])
  afterHelp := some (inLines
    ["EXAMPLES",
      "  $ wtpack pack Sq '[\"user\", -1]'",
      "  $ wtpack unpack Sq 75736572007f",
      "  $ wtpack inspect 3sQu",
      "  $ wtpack inspect --table 'key_format=r,value_format=SS'",
      "",
      "LEARN MORE",
      "  $ wtpack <command> --help"])
  places := []
  switches := [verbose, help, ⟨"version", some 'V', .version, "Print version"⟩]
  commands := ["pack", "unpack", "inspect", "version", "completion", "help"]

def pack : Grammar where
  name := some "pack"
  about := "Pack JSON arguments into bytes"
  longAbout := some (inLines
    ["Pack a JSON array of arguments according to FORMAT.",
      "",
      "Integers go to integer fields, strings to `s`/`S` fields. Byte fields (`u`, `U`)",
      "take either a UTF-8 string or an array of numbers 0..=255."])
  afterHelp := some (inLines
    ["EXAMPLES",
      "  $ wtpack pack iSu '[7, \"name\", [1, 2, 3]]'",
      "  $ wtpack pack Q --args-file args.json --output key.bin"])
  places := [format, args]
  switches := [option argsFile none, option output (some 'o'), verbose, help]
  required := [(format.id, [])]
  conflicts := [(args.id, argsFile.id)]

def unpack : Grammar where
  name := some "unpack"
  about := "Unpack bytes into JSON values"
  longAbout := some (inLines
    ["Unpack bytes according to FORMAT.",
      "",
      "Bytes come from the HEX argument, a raw file via --input, or hex on stdin."])
  afterHelp := some (inLines
    ["EXAMPLES",
      "  $ wtpack unpack Sq 75736572007f",
      "  $ wtpack unpack Q --input key.bin"])
  places := [format, hex]
  switches := [option input (some 'i'), verbose, help]
  required := [(format.id, [])]
  conflicts := [(hex.id, input.id)]

def inspect : Grammar where
  name := some "inspect"
  about := "Show the fields a format describes"
  afterHelp := some (inLines
    ["EXAMPLES",
      "  $ wtpack inspect 3sQu",
      "  $ wtpack inspect --table 'key_format=S,value_format=Su'"])
  places := [optionalFormat]
  switches := [option table none, verbose, help]
  required := [(format.id, [table.id])]
  conflicts := [(format.id, table.id)]

def version : Grammar where
  name := some "version"
  about := "Print version info as JSON"
  places := []
  switches := [verbose, help]

def completion : Grammar where
  name := some "completion"
  about := "Generate shell completions"
  afterHelp := some (inLines
    ["EXAMPLES",
      "  $ wtpack completion bash > ~/.local/share/bash-completion/completions/wtpack",
      "  $ wtpack completion zsh > ~/.zfunc/_wtpack",
      "  $ wtpack completion fish > ~/.config/fish/completions/wtpack.fish"])
  places := [shell]
  switches := [verbose, help]
  required := [(shell.id, [])]

/-- The command that only ever asks for help on others. -/
def helper : Grammar where
  name := some "help"
  about := "Print this message or the help of the given subcommand(s)"
  places := [topic]
  switches := []

/-- The grammars of all commands. -/
def commands : List Grammar := [pack, unpack, inspect, version, completion, helper]

/-- The grammar on which help is asked for. -/
def ofPath : List String → Grammar
  | [] => root
  | name :: _ => (commands.find? (·.name == some name)).getD root

/-- The value given for a parameter. -/
def value? (given : List (Parameter × String)) (parameter : Parameter) : Option String :=
  (given.find? (·.1.id == parameter.id)).map Prod.snd

/-- The arguments of `pack`; text on the command line goes before a file. -/
def packInvocation (given : List (Parameter × String)) : Invocation :=
  let source : ArgumentSource :=
    match value? given args, value? given argsFile with
    | some text, _ => .inline text
    | none, some path => .file path
    | none, none => .absent
  .pack ((value? given format).getD "") source (value? given output)

/-- The arguments of `unpack`; text on the command line goes before a file. -/
def unpackInvocation (given : List (Parameter × String)) : Invocation :=
  let source : RecordSource :=
    match value? given hex, value? given input with
    | some text, _ => .inline text
    | none, some path => .file path
    | none, none => .standardInput
  .unpack ((value? given format).getD "") source

/-- The arguments of `inspect`: a table or a single descriptor. -/
def inspectInvocation (given : List (Parameter × String)) : Invocation :=
  match value? given table with
  | some config => .inspectTable config
  | none => .inspect ((value? given format).getD "")

/-- The arguments of `completion`. -/
def completionInvocation (given : List (Parameter × String)) : Invocation :=
  let name := value? given shell
  .completion ((Shell.all.find? fun shell => name == some shell.name).getD .bash)

/-- The words after `help` name a command: one of the program's, or none. -/
def helpTopic : List String → Stop
  | [] => .help [] true
  | [word] =>
    if root.commands.contains word then .help [word] true else .refused (.unknownCommand word [])
  | first :: second :: _ =>
    if root.commands.contains first then .refused (.unknownCommand second [first])
    else .refused (.unknownCommand first [])

/-- The invocation of a command, by the values given for its parameters. A word
that names no command here is a question for help on the words after it. -/
def command (name : String) (words : List String) :
    Except Stop (Grammar × (List (Parameter × String) → Invocation)) :=
  match name with
  | "pack" => .ok (pack, packInvocation)
  | "unpack" => .ok (unpack, unpackInvocation)
  | "inspect" => .ok (inspect, inspectInvocation)
  | "completion" => .ok (completion, completionInvocation)
  | "version" => .ok (version, fun _ => .version)
  | _ => .error (helpTopic words)

/-- What the words of a command line ask for. It may be asked for logging before
and after the name of the command, and what is said after it counts alone. -/
def parse (words : List String) : Except Stop Request := do
  let (before, found) ← root.read { places := [] } words
  match found with
  | none => .error (if before.count = 0 then .nothing else .refused .missingCommand)
  | some (name, words) =>
    let (grammar, invocation) ← command name words
    let progress ← grammar.readAll words
    let count := if progress.count = 0 then before.count else progress.count
    return ⟨invocation progress.given, LogLevel.ofCount? count⟩

end Line

end OrderPack.Command
