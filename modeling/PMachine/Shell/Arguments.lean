import PMachine.Command.Report
import PMachine.Shell.Control

/-!
# The command line

A command line names a task and, before or after one file, the options of that task. An option takes one value, behind an equals
sign or as the next argument, and is given once at most; after `--` every argument is a file. A command line may also ask for the
version, or for help.

Arguments are taken from left to right. A value or a file that stands in an argument of its own is looked at only when the next
argument begins something new, or at the end: an option that the task does not have, or a second file, is refused before the
value in front of it is.
-/

namespace PMachine

/-- The name of a task. -/
inductive Verb where
  | run
  | check
  | fmt
  deriving DecidableEq, Repr

/-- An option of a task. -/
inductive Setting where
  | separator
  | maxSteps
  deriving DecidableEq, Repr

/-- Why a command line leads to no task. -/
inductive Interruption where
  /-- The name and the version of the program are asked for. -/
  | version
  /-- Help on the program is asked for, or on one task. -/
  | help (topic : Option Verb)
  /-- The arguments do not have the form of a command line. -/
  | malformed
  /-- An option has a value that it does not take. -/
  | invalidValue (setting : Setting) (value why : String)
  deriving DecidableEq, Repr

namespace Verb

/-- Every task, in the order in which help lists them. -/
def all : List Verb := [.run, .check, .fmt]

/-- The word for a task. -/
def word : Verb → String
  | .run => "run"
  | .check => "check"
  | .fmt => "fmt"

/-- The task with a word. -/
def ofWord? (word : String) : Option Verb := all.find? fun v => v.word = word

/-- What a task is for. -/
def about : Verb → String
  | .run => "Execute a program and print its result"
  | .check => "Load a program and report how many instructions it has"
  | .fmt => "Print a program in canonical form"

/-- The options of a task. -/
def settings : Verb → List Setting
  | .run => [.separator, .maxSteps]
  | .check | .fmt => [.separator]

/-- The file of a task that is given none. -/
def defaultPath? : Verb → Option String
  | .run => some "./input.pcode"
  | .check | .fmt => none

/-- How a task is called. -/
def usage (v : Verb) : String :=
  let file := if v.defaultPath?.isSome then "[INPUT]" else "<INPUT>"
  s!"Usage: pcode {v.word} [OPTIONS] {file}"

end Verb

namespace Setting

/-- The name of an option, without the dashes in front. -/
def name : Setting → String
  | .separator => "separator"
  | .maxSteps => "max-steps"

/-- The word that stands for the value of an option. -/
def placeholder : Setting → String
  | .separator => "SEPARATOR"
  | .maxSteps => "MAX_STEPS"

/-- An option with the word for its value. -/
def form (s : Setting) : String := s!"--{s.name} <{s.placeholder}>"

/-- What an option is for. -/
def about : Setting → String
  | .separator => "Field separator within instruction lines [default: ;]"
  | .maxSteps => "Abort after this many instructions without halting"

/-- The option of a task with a name. -/
def ofName? (v : Verb) (name : List Char) : Option Setting := v.settings.find? fun s => s.name.toList = name

end Setting

namespace Interruption

/-- How the program is called. -/
def usage : String := "Usage: pcode <COMMAND>"

/-- The help on the program. -/
def programHelp : String :=
  let tasks := Verb.all.map fun v => "  " ++ v.word.pushn ' ' (5 - v.word.length) ++ s!"  {v.about}\n"
  s!"Load and run P-code programs\n\n{usage}\n\nCommands:\n" ++ String.join tasks ++
    "  help   Print this message or the help of the given subcommand(s)\n\n" ++
    "Options:\n  -h, --help     Print help\n  -V, --version  Print version\n"

/-- The help on a task. -/
def verbHelp (v : Verb) : String :=
  let options := v.settings.map fun s => s!"      {s.form}  {s.about}\n"
  s!"{v.about}\n\n{v.usage}\n\nOptions:\n" ++ String.join options ++ "  -h, --help                   Print help\n"

/-- The wording of a refusal, as it is sent to a terminal: a value that is not taken and the option it is for are set off. -/
def refusal (reason : String) : String :=
  let mark := Text.emphasized [1, 31] "error:"
  let help := Text.emphasized [1] "--help"
  s!"{mark} {reason}\n\nFor more information, try '{help}'.\n"

/-- What is answered in place of a task. A refusal is written in the plain form of what a terminal would be sent. -/
def report : Interruption → Report
  | .version => { code := 0, output := "pcode 0.1.0\n" }
  | .help none => { code := 0, output := programHelp }
  | .help (some v) => { code := 0, output := verbHelp v }
  | .malformed =>
    { code := 2, errors := Text.plain (refusal s!"the arguments do not name a task and one file\n\n{usage}") }
  | .invalidValue setting value why =>
    let given := Text.emphasized [33] value
    let option := Text.emphasized [1] setting.form
    { code := 2, errors := Text.plain (refusal s!"invalid value '{given}' for '{option}': {why}") }

end Interruption

/-- The form of an argument. -/
inductive Argument where
  /-- The mark after which every argument is a file. -/
  | mark
  /-- A name behind two dashes, with the value that an equals sign attaches to it. -/
  | long (name : List Char) (value : Option String)
  /-- Letters behind one dash. -/
  | short (first : Char)
  /-- Anything else. -/
  | plain
  deriving DecidableEq, Repr

/-- The form of an argument's text. -/
def Argument.ofString (text : String) : Argument :=
  match text.toList with
  | ['-', '-'] => .mark
  | '-' :: '-' :: cs =>
    match cs.dropWhile (· ≠ '=') with
    | [] => .long cs none
    | _ :: value => .long (cs.takeWhile (· ≠ '=')) (some (String.ofList value))
  | '-' :: c :: _ => .short c
  | _ => .plain

/-- What has been taken from a command line but not looked at yet. -/
inductive Pending where
  | nothing
  /-- An option whose value has not come. -/
  | awaited (setting : Setting)
  | value (setting : Setting) (text : String)
  | file (path : String)
  deriving DecidableEq, Repr

/-- A command line that has been taken in part. -/
structure Draft where
  verb : Verb
  path : Option String := none
  separator : Option Separator := none
  stepLimit : Option Nat := none
  pending : Pending := .nothing
  /-- Whether the mark has been passed. -/
  marked : Bool := false

namespace Draft

/-- The separator that a value names: one character, which may divide fields. -/
def readSeparator (value : String) : Except String Separator :=
  match value.toList with
  | [c] => (Separator.ofChar c).mapError InvalidSeparator.message
  | _ => .error s!"expected a single character, found '{value}'"

/-- The number of steps that a value names. -/
def readSteps (value : String) : Except String Nat :=
  (Numeral.readNat Numeral.maxNat64 value.toList).mapError Numeral.Flaw.message

/-- Gives an option a value. That it has one already is found before the value is looked at. -/
def assign (d : Draft) (setting : Setting) (value : String) : Except Interruption Draft :=
  match setting with
  | .separator =>
    if d.separator.isSome then .error .malformed
    else match readSeparator value with
      | .ok s => .ok { d with separator := some s }
      | .error reason => .error (.invalidValue .separator value reason)
  | .maxSteps =>
    if d.stepLimit.isSome then .error .malformed
    else match readSteps value with
      | .ok n => .ok { d with stepLimit := some n }
      | .error reason => .error (.invalidValue .maxSteps value reason)

/-- Looks at what is pending. -/
def settle (d : Draft) : Except Interruption Draft :=
  match d.pending with
  | .nothing => .ok d
  | .awaited _ => .error .malformed
  | .value setting text => { d with pending := .nothing }.assign setting text
  | .file path => if path = "" then .error .malformed else .ok { d with path := some path, pending := .nothing }

/-- Whether a file has been taken. -/
def hasFile (d : Draft) : Bool :=
  match d.pending with
  | .file _ => true
  | _ => d.path.isSome

/-- Takes an argument as the file. -/
def takeFile (d : Draft) (text : String) : Except Interruption Draft :=
  if d.hasFile then .error .malformed
  else match d.settle with
    | .ok d => .ok { d with pending := .file text }
    | .error e => .error e

/-- Takes a request for help on the task, which is met as soon as nothing is pending. -/
def takeHelp (d : Draft) : Except Interruption Draft :=
  match d.settle with
  | .error e => .error e
  | .ok d => .error (.help (some d.verb))

/-- Takes an argument that starts with two dashes. -/
def takeLong (d : Draft) (name : List Char) (value : Option String) : Except Interruption Draft :=
  match Setting.ofName? d.verb name with
  | none => if name = "help".toList ∧ value = none then d.takeHelp else .error .malformed
  | some setting =>
    match d.settle with
    | .error e => .error e
    | .ok d =>
      match value with
      | some text => d.assign setting text
      | none => .ok { d with pending := .awaited setting }

/-- Takes the next argument. -/
def take (d : Draft) (text : String) : Except Interruption Draft :=
  if d.marked then d.takeFile text
  else match Argument.ofString text with
    | .mark => .ok { d with marked := true }
    | .long name value => d.takeLong name value
    | .short first => if first = 'h' then d.takeHelp else .error .malformed
    | .plain =>
      match d.pending with
      | .awaited setting => .ok { d with pending := .value setting text }
      | _ => d.takeFile text

/-- The task that is asked for. -/
def task (d : Draft) : Task :=
  match d.verb with
  | .run => .run d.stepLimit
  | .check => .check
  | .fmt => .format

/-- What a command line asks for when no argument is left. -/
def finish (d : Draft) : Except Interruption Invocation :=
  match d.settle with
  | .error e => .error e
  | .ok d =>
    match d.path <|> d.verb.defaultPath? with
    | none => .error .malformed
    | some path => .ok { task := d.task, path, separator := d.separator.getD .semicolon }

end Draft

/-- What follows the word `help`: nothing, or the word for one task. -/
def Interruption.ofTopic : List String → Interruption
  | [] | ["help"] => .help none
  | [word] =>
    match Verb.ofWord? word with
    | some v => .help (some v)
    | none => .malformed
  | _ => .malformed

/-- What a command line asks for that does not start with the word for a task. -/
def Interruption.ofArguments (first : String) (rest : List String) : Interruption :=
  if first = "help" then .ofTopic rest
  else if first = "--help" || "-h".toList.isPrefixOf first.toList then .help none
  else if first = "--version" || "-V".toList.isPrefixOf first.toList then .version
  else .malformed

/-- Reads a command line. -/
def Invocation.ofArguments : List String → Except Interruption Invocation
  | [] => .error .malformed
  | first :: rest =>
    match Verb.ofWord? first with
    | some verb => do
      let d ← rest.foldlM Draft.take { verb }
      d.finish
    | none => .error (.ofArguments first rest)

end PMachine
