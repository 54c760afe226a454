import PMachine.Log.Filter

/-!
# The log

A log keeps the events that its filter lets through, in the order in which they happened.
-/

namespace PMachine

/-- The events told so far that a filter lets through. -/
structure Log where
  filter : Filter := .off
  events : Array Event := #[]

namespace Log

/-- Tells one more event. -/
def add (log : Log) (e : Event) : Log :=
  if log.filter.keeps e then { log with events := log.events.push e } else log

/-- The lines of the log; `line n e` is the line of event `e` where it is the one with number `n` that was kept, so that the time
may stand in it. -/
def render (line : Nat → Event → String) (log : Log) : String :=
  String.join ((log.events.toList.mapIdx line).map (· ++ "\n"))

@[simp]
theorem add_filter (log : Log) (e : Event) : (log.add e).filter = log.filter := by
  simp only [add]
  split <;> rfl

/-- Telling an event adds it at the end or not at all. -/
theorem add_events (log : Log) (e : Event) :
    (log.add e).events = if log.filter.keeps e then log.events.push e else log.events := by
  simp only [add]
  split <;> rfl

end Log

end PMachine
