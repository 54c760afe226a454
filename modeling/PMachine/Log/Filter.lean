import PMachine.Log.Event

/-!
# Which events are kept

A filter says of every event whether it is kept. The usual ones set a threshold: an event passes if it is at least as severe.
-/

namespace PMachine

/-- The least severe level that passes; without one, nothing does. -/
abbrev Threshold := Option Level

/-- Whether events of a level pass. -/
def Threshold.admits (t : Threshold) (l : Level) : Bool := t.any fun least => l.rank ≤ least.rank

/-- What decides which events are kept. -/
structure Filter where
  keeps : Event → Bool

namespace Filter

/-- The filter with one threshold for all events. -/
def ofThreshold (threshold : Threshold) : Filter := ⟨fun e => threshold.admits e.level⟩

/-- The filter that drops every event. -/
def off : Filter := ofThreshold none

/-- The filter that keeps every event. -/
def everything : Filter := ofThreshold (some .trace)

/-- The filter of a program that is not told what to keep: warnings, and what is more severe. -/
def warnings : Filter := ofThreshold (some .warn)

@[simp]
theorem keeps_everything (e : Event) : everything.keeps e = true := by
  cases h : e.level <;> simp [everything, ofThreshold, Threshold.admits, h, Level.rank]

end Filter

end PMachine
