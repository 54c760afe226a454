import PMachine.Shell.Arguments
import PMachine.Shell.Directive

/-!
# The program

Reads the command line, the file it names and the variable `RUST_LOG`, which sets the filter of the log, and prints the answer.
A run is carried on in ever larger numbers of turns until it returns. The log is written in its plain form.
-/

namespace PMachine

/-- The bytes of a file, or why the system cannot read it. -/
def readBytes (path : String) : IO (Except String ByteArray) := do
  match ← (IO.FS.readBinFile path).toBaseIO with
  | .error (.noFileOrDirectory ..) => return .error "No such file or directory (os error 2)"
  | .error (.inappropriateType _ 20 _) => return .error "Not a directory (os error 20)"
  | .error (.inappropriateType _ 21 _) => return .error "Is a directory (os error 21)"
  | .error (.invalidArgument _ 36 _) => return .error "File name too long (os error 36)"
  | .error e => return .error e.toString
  | .ok bytes => return .ok bytes

/-- The report of a task, however many turns it takes. -/
partial def await (i : Invocation) (env : Environment) (turns : Nat) : Report :=
  match i.report turns env with
  | some r => r
  | none => await i env (2 * turns)

/-- Prints a report and gives its exit code. -/
def Report.print (r : Report) : IO UInt32 := do
  IO.print r.output
  IO.eprint r.errors
  return r.code.toUInt32

end PMachine

open PMachine in
/-- Answers the command line. -/
def main (args : List String) : IO UInt32 := do
  match Invocation.ofArguments args with
  | .error interruption => interruption.report.print
  | .ok i =>
    let contents ← readBytes i.path
    let filter := Filter.ofSetting (← IO.getEnv "RUST_LOG")
    (await i { read := fun _ => contents, filter, line := fun _ e => e.render } 1000000).print
