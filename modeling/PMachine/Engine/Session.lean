import PMachine.Engine.Run

/-!
# Engines in use

A session is an engine on which calls are made one after the other. It holds its instructions in an array to which binding
appends, with a mark that tells whether a program is bound. A run only looks at them.
-/

namespace PMachine

/-- An engine that calls are made on: its sizes, the instructions it holds, and whether a program is bound. -/
structure Session where
  config : Config
  instructions : Array Instruction := #[]
  isBound : Bool := false
  deriving DecidableEq, Repr

namespace Session

/-- The engine that a run is made on. What the session holds runs only if it is bound. -/
def engine (s : Session) : Engine :=
  { config := s.config, bound := if s.isBound then some ⟨s.instructions⟩ else none }

/-- An unbound session that is meant for a program of `length` instructions. Room for them is not allocated, so memory does not
run out here, however large the length and the address space are. -/
def withRoom (length : Nat) (config : Config := {}) : Except Error Session :=
  (Engine.checkLength config length).map fun _ => { config }

/-- Binds a program. That one is bound already is found before the length is looked at. -/
def bind (p : Program) : EStateM Error Session Unit := do
  if (← get).isBound then throw .alreadyBound
  MonadExcept.ofExcept (Engine.checkLength (← get).config p.size)
  modify fun s => { s with instructions := s.instructions ++ p.instructions, isBound := true }

/-- A session with a program bound from the start. -/
def ofProgram (p : Program) (config : Config := {}) : Except Error Session := do
  let s ← withRoom p.size config
  match (bind p).run s with
  | .ok _ s => return s
  | .error e _ => throw e

/-- What is asked of a session. A run is given the turns that it may take. -/
inductive Call where
  | bind (p : Program)
  | execute (turns : Nat)
  | run (turns : Nat)
  deriving DecidableEq, Repr

/-- What a session answers. -/
inductive Answer where
  | bound (result : Except Error Unit)
  | executed (outcome : Option (Except Error Halted))
  | ran (result : Option (Except Error Word))

/-- The answer to a call, and the session after it. -/
def serve (s : Session) : Call → Answer × Session
  | .bind p =>
    match (bind p).run s with
    | .ok _ s => (.bound (.ok ()), s)
    | .error e s => (.bound (.error e), s)
  | .execute turns => (.executed (s.engine.execute turns), s)
  | .run turns => (.ran (s.engine.run turns), s)

end Session

end PMachine
