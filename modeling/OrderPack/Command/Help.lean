import OrderPack.Command.Invocation

/-! The version of the program, and plain forms of its help and of the scripts by which
a shell completes its commands. As a rule these two are made from the grammars by other
libraries; the plain forms are for where there is none. -/
namespace OrderPack.Command

/-- The number of this version. -/
def programVersion : String := "0.3.0"

/-- The line that `--version` prints. -/
def versionLine : String := programName ++ " " ++ programVersion ++ "\n"

namespace Grammar

/-- How a command is called. -/
def usage (grammar : Grammar) : String :=
  let options := if grammar.switches.isEmpty then [] else ["[OPTIONS]"]
  let command := if grammar.commands.isEmpty then [] else ["<COMMAND>"]
  String.intercalate " " (programName :: grammar.path ++ options
    ++ grammar.places.map Parameter.shown ++ command)

/-- Entries and what is said of them, in two columns. -/
def columns (rows : List (String × String)) : List String :=
  let width := (rows.map (·.1.length)).foldl max 0
  rows.map fun (entry, about) =>
    let blanks := String.ofList (List.replicate (width - entry.length) ' ')
    "  " ++ entry ++ blanks ++ "  " ++ about

/-- The arguments of a command that are told by their place. -/
def placeRows (grammar : Grammar) : List (String × String) :=
  grammar.places.map fun parameter => (parameter.shown, parameter.about)

/-- The options of a command. -/
def switchRows (grammar : Grammar) : List (String × String) :=
  grammar.switches.map fun switch =>
    let letter := match switch.short with
      | some letter => String.ofList ['-', letter] ++ ", "
      | none => "    "
    (letter ++ switch.shown, switch.about)

/-- The commands below the program as a whole. -/
def commandRows (grammar : Grammar) : List (String × String) :=
  grammar.commands.map fun name => (name, (Line.ofPath [name]).about)

/-- A part of the help under its heading, if there is anything in it. -/
def part (heading : String) (rows : List (String × String)) : List String :=
  if rows.isEmpty then [] else heading :: columns rows ++ [""]

/-- The help on a command. -/
def commandHelp (grammar : Grammar) (about : String) : List String :=
  [about, "", "Usage: " ++ grammar.usage, ""] ++ part "Arguments:" grammar.placeRows
    ++ part "Options:" grammar.switchRows

/-- The help on the program as a whole. -/
def programHelp (grammar : Grammar) (about : String) : List String :=
  [about, ""] ++ grammar.beforeHelp.toList ++ ["USAGE", "  " ++ grammar.usage, ""]
    ++ part "COMMANDS" grammar.commandRows ++ part "OPTIONS" grammar.switchRows

/-- The help on a command or on the program, in short or at length. -/
def plainHelp (grammar : Grammar) (long : Bool) : String :=
  let about := if long then grammar.longAbout.getD grammar.about else grammar.about
  let body :=
    if grammar.name.isSome then grammar.commandHelp about else grammar.programHelp about
  Line.inLines (body ++ grammar.afterHelp.toList) ++ "\n"

end Grammar

/-- A script that completes the names of the commands. -/
def plainScript (shell : Shell) : String :=
  let commands := String.intercalate " " Line.root.commands
  Line.inLines <|
    match shell with
    | .bash => ["complete -W \"" ++ commands ++ "\" " ++ programName, ""]
    | .elvish =>
      ["set edit:completion:arg-completer[" ++ programName ++ "] = \x7b|@words| put "
        ++ commands ++ " \x7d", ""]
    | .fish => ["complete -c " ++ programName ++ " -f -a \"" ++ commands ++ "\"", ""]
    | .powershell =>
      ["Register-ArgumentCompleter -Native -CommandName " ++ programName
        ++ " -ScriptBlock \x7b \"" ++ commands ++ "\".Split(\" \") \x7d", ""]
    | .zsh => ["#compdef " ++ programName, "compadd " ++ commands, ""]

end OrderPack.Command
