import PMachine.Text.Separator

/-!
# Tasks

What the program is asked to do with a file.
-/

namespace PMachine

/-- What is done with a program. -/
inductive Task where
  /-- Run it and print its result; a run may be given a limit of steps. -/
  | run (stepLimit : Option Nat)
  /-- Tell its length. -/
  | check
  /-- Print its canonical text. -/
  | format
  deriving DecidableEq, Repr

/-- A task on the program in a file, whose fields `separator` divides. -/
structure Invocation where
  task : Task
  path : String
  separator : Separator
  deriving DecidableEq

end PMachine
