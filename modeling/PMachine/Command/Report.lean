import PMachine.Command.Task
import PMachine.Engine.Run
import PMachine.Text.Reader
import PMachine.Text.Writer

/-!
# What a task comes to

A task on a file ends with an exit code, a text for the standard output and a text for the standard error. The exit code is 0
if the task was done, 1 if there is no program to work on and 3 if the program did not come to a result. The log stands in
front of the line that says what went wrong.

What lies outside of the program is given: what is read at a path, which events the log keeps and how it writes them.
-/

namespace PMachine

/-- What a task leaves behind. -/
structure Report where
  code : Nat
  output : String := ""
  errors : String := ""
  deriving DecidableEq, Inhabited, Repr

/-- What a task finds outside of the program. -/
structure Environment where
  /-- The bytes of the file at a path, or why the system cannot read it. -/
  read : String → Except String ByteArray
  filter : Filter
  /-- The line of an event, where it is the one with a number that the log keeps. -/
  line : Nat → Event → String

/-- The text that bytes encode. -/
def decodeText (bytes : ByteArray) : Except String String :=
  match String.fromUTF8? bytes with
  | some text => .ok text
  | none => .error "stream did not contain valid UTF-8"

/-- The text of the file at a path. -/
def Environment.readText (env : Environment) (path : String) : Except String String := (env.read path).bind decodeText

/-- Why a task was not done. -/
inductive Failure where
  | unreadable (path reason : String)
  | unloadable (path : String) (e : LoadError)
  | unbindable (e : Error)
  | unfinished (e : Error)
  deriving DecidableEq, Repr

/-- The exit code of a failure. -/
def Failure.code : Failure → Nat
  | .unreadable .. | .unloadable .. | .unbindable _ => 1
  | .unfinished _ => 3

/-- The wording of a failure. -/
def Failure.message : Failure → String
  | .unreadable path reason => s!"error: cannot read '{path}': {reason}"
  | .unloadable path e => s!"error: {path}: {e.message}"
  | .unbindable e => s!"error: {e.message}"
  | .unfinished e => s!"runtime error: {e.message}"

/-- Runs a program; none if the run takes more than `turns` turns. -/
def Program.runTask (p : Program) (stepLimit : Option Nat) (turns : Nat) (log : Log) : Option (Log × Except Failure String) :=
  match Engine.ofProgram p { stepLimit } with
  | .error e => some (log, .error (.unbindable e))
  | .ok engine =>
    (engine.executeLogged turns log).map fun (log, outcome) =>
      let log := match outcome with
        | .ok h => log.add (.finished h.steps)
        | .error _ => log
      match Engine.resultOf outcome with
      | .ok w => (log, .ok (Numeral.ofWord w ++ "\n"))
      | .error e => (log, .error (.unfinished e))

namespace Invocation

/-- Tells the length of a program that can be bound. -/
def checkTask (i : Invocation) (p : Program) : Except Failure String :=
  match Engine.ofProgram p with
  | .error e => .error (.unbindable e)
  | .ok _ => .ok s!"OK: {i.path} ({p.size} instructions)\n"

/-- Does the task on the program that `text` holds; none if a run takes more than `turns` turns. -/
def work (i : Invocation) (turns : Nat) (text : String) (log : Log) : Option (Log × Except Failure String) :=
  match Program.parseLogged i.separator text log with
  | (log, .error e) => some (log, .error (.unloadable i.path e))
  | (log, .ok p) =>
    match i.task with
    | .run stepLimit => p.runTask stepLimit turns log
    | .check => some (log, i.checkTask p)
    | .format => some (log, .ok (p.render i.separator))

/-- Does the task on a file, whose contents could be read or not; none if a run takes more than `turns` turns. -/
def perform (i : Invocation) (turns : Nat) (contents : Except String String) (log : Log) :
    Option (Log × Except Failure String) :=
  let log := log.add (.reading i.path i.separator.char)
  match contents with
  | .error reason => some (log, .error (.unreadable i.path reason))
  | .ok text => i.work turns text log

end Invocation

/-- The report of a task that ended. -/
def Report.ofOutcome (line : Nat → Event → String) (log : Log) : Except Failure String → Report
  | .ok output => { code := 0, output, errors := log.render line }
  | .error f => { code := f.code, errors := log.render line ++ f.message ++ "\n" }

/-- The report of a task; none if a run takes more than `turns` turns. -/
def Invocation.report (i : Invocation) (turns : Nat) (env : Environment) : Option Report :=
  (i.perform turns (env.readText i.path) { filter := env.filter }).map fun r => Report.ofOutcome env.line r.1 r.2

end PMachine
