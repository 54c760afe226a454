import PMachine.Proofs.Engine.Turn

/-!
# The log of a run

A run tells in its log that it starts, which instructions it fetches and with which registers, and how it ends. `Dispatch` is
what is told of one instruction, and `Machine.replay` executes dispatches again, checking the registers of each: the log of a
run replays on a fresh machine, up to the machine that the run leaves. `Engine.Told` carries this from turn to turn, and
`Engine.EndsWith` says for every way in which a run ends how many dispatches it made and what it tells last.
-/

namespace PMachine

/-- A run without its log. -/
def Progress.mute : Progress → Progress
  | .running r => .running { r with log := {} }
  | .returned _ outcome => .returned {} outcome

/-! ## Events in a row -/

namespace Log

/-- Tells events one after the other. -/
def tell (log : Log) (es : List Event) : Log := es.foldl add log

theorem tell_append (log : Log) (es fs : List Event) : log.tell (es ++ fs) = (log.tell es).tell fs := by
  simp [tell]

/-- A log holds the events that it held, and then those told that its filter keeps, in their order. -/
theorem tell_events (log : Log) (es : List Event) :
    (log.tell es).events.toList = log.events.toList ++ es.filter log.filter.keeps := by
  induction es generalizing log with
  | nil => simp [tell]
  | cons ev es ih =>
    have hrest : (log.tell (ev :: es)) = (log.add ev).tell es := rfl
    rw [hrest, ih, add_filter, add_events]
    by_cases hk : log.filter.keeps ev = true
    · simp [hk]
    · simp [hk]

end Log

/-! ## Dispatches -/

/-- What is told of an instruction that a run fetches: the registers before it, and the instruction. -/
structure Dispatch where
  pc : Word
  bp : Word
  sp : Word
  instruction : Instruction
  deriving DecidableEq, Repr

/-- The events that tell a dispatch. An `opr` with a number from 0 to 12 is told twice, the second time with the operation that
has this number among all of them. -/
def Dispatch.events (d : Dispatch) : List Event :=
  let id := d.instruction.address.toInt
  .dispatched d.pc d.bp d.sp d.instruction ::
    if d.instruction.opcode = .opr ∧ 0 ≤ id ∧ id ≤ 12 then
      (Operation.all[id.toNat]?).toList.map fun op => .operating op d.pc
    else []

/-- An operation stands in its place among all of them. -/
theorem Operation.getElem?_all (op : Operation) : Operation.all[op.id.toInt.toNat]? = some op := by
  rcases op with _ | op | op
  · decide
  · cases op <;> decide
  · cases op <;> decide

namespace Machine

/-- The dispatch of an instruction on a machine. -/
def dispatch (m : Machine) (i : Instruction) : Dispatch := ⟨m.pc, m.bp, m.sp, i⟩

/-- Executes the instructions of dispatches one after the other; none if one of them faults, or finds other registers than
those of its dispatch. -/
def replay (m : Machine) : List Dispatch → Option Machine
  | [] => some m
  | d :: ds =>
    if d = m.dispatch d.instruction then
      match m.execute d.instruction with
      | .ok _ m' => m'.replay ds
      | .error _ _ => none
    else none

/-- One more dispatch replays if its instruction is executed on the machine that those before it leave. -/
theorem replay_concat {m m' m'' : Machine} {ds : List Dispatch} {i : Instruction} (h : m.replay ds = some m')
    (hi : m'.execute i = .ok () m'') : m.replay (ds ++ [m'.dispatch i]) = some m'' := by
  induction ds generalizing m with
  | nil =>
    cases h
    simp [replay, dispatch, hi]
  | cons d ds ih =>
    simp only [replay] at h
    simp only [List.cons_append, replay]
    split at h
    · rename_i hd
      rw [if_pos hd]
      split at h
      · exact ih h
      · cases h
    · cases h

end Machine

/-- What a run tells before it executes an instruction are the events of its dispatch. -/
theorem Log.dispatch_eq_tell (log : Log) (m : Machine) (i : Instruction) :
    log.dispatch m i = log.tell (m.dispatch i).events := by
  obtain ⟨opcode, level, address⟩ := i
  by_cases hop : opcode = .opr
  · subst hop
    cases ho : Operation.ofId? address with
    | none =>
      have hout := Operation.ofId?_eq_none_iff.mp ho
      have hin : ¬(0 ≤ address.toInt ∧ address.toInt ≤ 12) := by omega
      simp [Log.dispatch, Instruction.operation?, ho, Dispatch.events, Machine.dispatch, hin, Log.tell]
    | some op =>
      obtain rfl := Operation.ofId?_eq_some_iff.mp ho
      have hin := op.toInt_id
      have hget := op.getElem?_all
      simp only [Log.dispatch, Instruction.operation?, ho, Machine.dispatch, Dispatch.events, hin, hget, and_self, if_true]
      rfl
  · cases opcode <;> simp [Log.dispatch, Dispatch.events, Machine.dispatch, hop, Log.tell] at hop ⊢

namespace Engine

variable {e : Engine} {log : Log}

/-- Replays dispatches on a fresh machine of the engine. -/
def replay (e : Engine) (ds : List Dispatch) : Option Machine := (Machine.initial e.config.stackSize).replay ds

/-- What is told in the first turns of a run: that it starts, and its dispatches. -/
def opening (e : Engine) (ds : List Dispatch) : List Event :=
  .started e.program.size e.config.stackSize :: ds.flatMap Dispatch.events

theorem opening_concat (e : Engine) (ds : List Dispatch) (d : Dispatch) :
    e.opening (ds ++ [d]) = e.opening ds ++ d.events := by
  simp [opening]

/-! ## Turn by turn -/

/-- Dispatches that a run can make: each instruction is the one at its position, and the first alone is at position 0. -/
structure IsTrace (e : Engine) (ds : List Dispatch) : Prop where
  fetched : ∀ d ∈ ds, e.program.get? d.pc.toInt = some d.instruction
  zero_iff : ∀ k (hk : k < ds.length), ds[k].pc = 0 ↔ k = 0

/-- The run that has come to `r` has made the dispatches `ds`, and has told them in the log that was `log` at first. -/
structure Told (e : Engine) (log : Log) (r : Run) (ds : List Dispatch) : Prop where
  isTrace : e.IsTrace ds
  replays : e.replay ds = some r.machine
  log_eq : r.log = log.tell (e.opening ds)
  length_eq : ds.length = r.steps
  pc_eq_zero_iff : r.machine.pc = 0 ↔ ds.length = 0
  steps_lt : ∀ limit, e.config.stepLimit = some limit → r.steps < max limit 1

/-- The next dispatch of a run continues those that it has made. -/
theorem Told.isTrace_concat {r : Run} {ds : List Dispatch} {i : Instruction} (h : e.Told log r ds)
    (hfetch : r.machine.fetch? e.program = some i) : e.IsTrace (ds ++ [r.machine.dispatch i]) := by
  constructor
  · intro d hd
    rcases List.mem_append.mp hd with hd | hd
    · exact h.isTrace.fetched d hd
    · rw [List.mem_singleton.mp hd]
      exact hfetch
  · intro k hk
    rw [List.getElem_append]
    split
    · exact h.isTrace.zero_iff k _
    · have hlast : k = ds.length := by
        rw [List.length_append, List.length_singleton] at hk
        omega
      rw [List.getElem_singleton, hlast]
      exact h.pc_eq_zero_iff

/-- The next dispatch of a run is told after those that it has made. -/
theorem Told.dispatch_log {r : Run} {ds : List Dispatch} (h : e.Told log r ds) (i : Instruction) :
    r.log.dispatch r.machine i = log.tell (e.opening (ds ++ [r.machine.dispatch i])) := by
  rw [Log.dispatch_eq_tell, h.log_eq, opening_concat, Log.tell_append]

/-- A turn that the run goes on after adds one dispatch. -/
theorem Told.turn {r r' : Run} {ds : List Dispatch} (h : e.Told log r ds) (ht : e.turn r = .running r') :
    ∃ i, e.Told log r' (ds ++ [r.machine.dispatch i]) := by
  rcases e.turn_cases r with ⟨-, hr⟩ | ⟨i, f, m, -, -, hr⟩ | ⟨i, m, hfetch, hexec, hr⟩
  · cases hr.symm.trans ht
  · cases hr.symm.trans ht
  · obtain ⟨hpc, hlt, rfl⟩ := settle_eq_running_iff.mp (hr.symm.trans ht)
    refine ⟨i, h.isTrace_concat hfetch, Machine.replay_concat h.replays hexec, h.dispatch_log i, ?_, ?_, ?_⟩
    · simp [h.length_eq]
    · simp [hpc]
    · intro limit hlimit
      exact Nat.lt_of_lt_of_le (hlt limit hlimit) (Nat.le_max_left limit 1)

/-- A run that goes on has made one dispatch in every turn. -/
theorem exists_told {turns : Nat} {r : Run} (h : e.advance turns (e.start log) = .running r) : ∃ ds, e.Told log r ds := by
  induction turns generalizing r with
  | zero =>
    have hstart : e.start log = .running r := h
    unfold start at hstart
    split at hstart
    · cases hstart
    · cases hstart
      exact ⟨[], ⟨by simp, by simp⟩, rfl, rfl, rfl, by simp [Machine.initial], fun limit _ => Nat.le_max_right limit 1⟩
  | succ turns ih =>
    obtain ⟨s, hs, hturn⟩ := exists_running_of_succ h
    obtain ⟨ds, hds⟩ := ih hs
    obtain ⟨i, hi⟩ := hds.turn hturn
    exact ⟨_, hi⟩

/-! ## The end of a run -/

/-- A run of a program with instructions that has returned did so in one of its turns. -/
theorem exists_turn_of_returned {turns : Nat} {log' : Log} {outcome : Except Error Halted}
    (hne : e.program.isEmpty = false) (h : e.advance turns (e.start log) = .returned log' outcome) :
    ∃ n r, e.advance n (e.start log) = .running r ∧ e.turn r = .returned log' outcome := by
  induction turns with
  | zero =>
    have hstart : e.start log = .running _ := if_neg (by simp [hne])
    cases hstart.symm.trans h
  | succ turns ih =>
    cases hp : e.advance turns (e.start log) with
    | running r => exact ⟨turns, r, hp, (advance_succ_of_running hp).symm.trans h⟩
    | returned log'' outcome' =>
      rw [advance_add, hp, advance_returned] at h
      exact ih (hp.trans h)

/-- How a run ends that has made the dispatches `ds`, and what it tells last. It has executed as many instructions as it made
dispatches, but for the instruction that a fault stops. -/
def EndsWith (e : Engine) (log : Log) (ds : List Dispatch) : Except Error Halted → List Event → Prop
  | .ok h, ending =>
    ds.length = h.steps ∧ e.replay ds = some h.machine ∧ ending = [.halted h.steps h.resultIndex]
  | .error (.stepLimitExceeded limit), ending =>
    ds.length = max limit 1 ∧ ∃ m, e.replay ds = some m ∧ ending = [.exhausted limit m.pc]
  | .error (.fault f), ending =>
    (∃ front r i m, ds = front ++ [r.machine.dispatch i] ∧ e.replay front = some r.machine ∧
      r.machine.execute i = .error f m ∧ e.advance r.steps (e.start log) = .running r ∧ ds.length = r.steps + 1) ∧
    ending = []
  | .error (.pcOutOfRange pc), ending =>
    (∃ r, e.replay ds = some r.machine ∧ r.machine.pc = pc ∧ e.program.get? pc.toInt = none ∧
      e.advance r.steps (e.start log) = .running r ∧ ds.length = r.steps) ∧
    ending = []
  | .error _, _ => False

/-- The turn that a run returns in makes one more dispatch, if it finds an instruction, and the run ends as its outcome says. -/
theorem Told.endsWith {n : Nat} {r : Run} {ds : List Dispatch} {log' : Log} {outcome : Except Error Halted}
    (h : e.Told log r ds) (hr : e.advance n (e.start log) = .running r) (ht : e.turn r = .returned log' outcome) :
    ∃ ds' ending, e.IsTrace ds' ∧ log' = log.tell (e.opening ds' ++ ending) ∧ e.EndsWith log ds' outcome ending := by
  have hsteps : e.advance r.steps (e.start log) = .running r := by rw [steps_of_running hr, hr]
  rcases e.turn_cases r with ⟨hfetch, hturn⟩ | ⟨i, f, m, hfetch, hexec, hturn⟩ | ⟨i, m, hfetch, hexec, hturn⟩
  · cases hturn.symm.trans ht
    refine ⟨ds, [], h.isTrace, ?_, ⟨r, h.replays, rfl, hfetch, hsteps, h.length_eq⟩, rfl⟩
    rw [List.append_nil, h.log_eq]
  · cases hturn.symm.trans ht
    refine ⟨ds ++ [r.machine.dispatch i], [], h.isTrace_concat hfetch, ?_,
      ⟨ds, r, i, m, rfl, h.replays, hexec, hsteps, ?_⟩, rfl⟩
    · rw [List.append_nil, h.dispatch_log]
    · simp [h.length_eq]
  · have hlength : (ds ++ [r.machine.dispatch i]).length = r.steps + 1 := by simp [h.length_eq]
    have hreplay : e.replay (ds ++ [r.machine.dispatch i]) = some m := Machine.replay_concat h.replays hexec
    have hlog := h.dispatch_log i
    have hsettle := hturn.symm.trans ht
    cases outcome with
    | ok halted =>
      obtain ⟨-, rfl, rfl⟩ := settle_eq_halted_iff.mp hsettle
      refine ⟨_, [.halted (r.steps + 1) _], h.isTrace_concat hfetch, ?_, hlength, hreplay, rfl⟩
      rw [hlog, Log.tell_append]
      rfl
    | error err =>
      obtain ⟨limit, hlimit, -, hle, rfl, rfl⟩ := settle_eq_error_iff.mp hsettle
      have hlt := h.steps_lt limit hlimit
      refine ⟨_, [.exhausted limit m.pc], h.isTrace_concat hfetch, ?_, by omega, m, hreplay, rfl⟩
      rw [hlog, Log.tell_append]
      rfl

/-! ## A run does not depend on its log -/

/-- Two logs do not make a difference to what follows an instruction. -/
theorem mute_settle (i : Instruction) (m : Machine) (steps : Nat) (log log' : Log) :
    (e.settle i m steps log).mute = (e.settle i m steps log').mute := by
  unfold settle
  by_cases hpc : m.pc = 0
  · simp [hpc, Progress.mute]
  · cases e.config.stepLimit with
    | none => simp [hpc, Progress.mute]
    | some limit => by_cases hle : limit ≤ steps <;> simp [hpc, hle, Progress.mute]

/-- Two logs do not make a difference to a turn. -/
theorem mute_turn (m : Machine) (steps : Nat) (log log' : Log) :
    (e.turn ⟨m, steps, log⟩).mute = (e.turn ⟨m, steps, log'⟩).mute := by
  unfold turn
  cases m.fetch? e.program with
  | none => rfl
  | some i =>
    cases hm : m.execute i with
    | ok u m' => simp only [hm, mute_settle i m' (steps + 1) (log.dispatch m i) (log'.dispatch m i)]
    | error f m' => simp only [hm, Progress.mute]

/-- Two logs do not make a difference to a run. -/
theorem mute_advance {p q : Progress} (h : p.mute = q.mute) (turns : Nat) :
    (e.advance turns p).mute = (e.advance turns q).mute := by
  induction turns generalizing p q with
  | zero => exact h
  | succ turns ih =>
    cases p with
    | returned log outcome =>
      cases q with
      | returned log' outcome' =>
        rw [advance_returned, advance_returned]
        exact h
      | running r => cases h
    | running r =>
      cases q with
      | returned log' outcome' => cases h
      | running r' =>
        obtain ⟨m, steps, log⟩ := r
        obtain ⟨m', steps', log'⟩ := r'
        cases h
        exact ih (mute_turn m steps log log')

theorem mute_start (e : Engine) (log log' : Log) : (e.start log).mute = (e.start log').mute := by
  unfold start
  split <;> rfl

/-- A run comes to the same outcome whatever log it is told in. -/
theorem exists_executeLogged {turns : Nat} {outcome : Except Error Halted} (h : e.execute turns = some outcome) (log : Log) :
    ∃ log', e.executeLogged turns log = some (log', outcome) := by
  have hmute := mute_advance (e := e) (e.mute_start {} log) turns
  obtain ⟨log₀, hp⟩ := execute_eq_some_iff.mp h
  rw [hp] at hmute
  cases hq : e.advance turns (e.start log) with
  | running r =>
    rw [hq] at hmute
    cases hmute
  | returned log₁ outcome₁ =>
    rw [hq] at hmute
    cases hmute
    exact ⟨log₁, executeLogged_eq_some_iff.mpr hq⟩

/-- A run that is told in a log comes to the outcome that it comes to without one. -/
theorem execute_of_executeLogged {turns : Nat} {log' : Log} {outcome : Except Error Halted}
    (h : e.executeLogged turns log = some (log', outcome)) : e.execute turns = some outcome := by
  cases he : e.execute turns with
  | some outcome' =>
    obtain ⟨log'', hlog⟩ := exists_executeLogged he log
    rw [h] at hlog
    cases hlog
    rfl
  | none =>
    obtain ⟨r, hr⟩ := exists_running_of_execute_eq_none he
    have hmute := mute_advance (e := e) (e.mute_start {} log) turns
    rw [hr, executeLogged_eq_some_iff.mp h] at hmute
    cases hmute

/-- All that a run does to a log is to tell events. -/
theorem exists_tell_of_executeLogged {turns : Nat} {log' : Log} {outcome : Except Error Halted}
    (h : e.executeLogged turns log = some (log', outcome)) : ∃ es, log' = log.tell es := by
  have hret := executeLogged_eq_some_iff.mp h
  cases hempty : e.program.isEmpty with
  | true =>
    have hstart : e.start log = .returned log (.error .emptyProgram) := if_pos hempty
    rw [hstart, advance_returned] at hret
    cases hret
    exact ⟨[], rfl⟩
  | false =>
    obtain ⟨n, r, hr, hturn⟩ := exists_turn_of_returned hempty hret
    obtain ⟨ds₀, htold⟩ := exists_told hr
    obtain ⟨ds, ending, -, htell, -⟩ := htold.endsWith hr hturn
    exact ⟨e.opening ds ++ ending, htell⟩

/-- The log of a run of a program with instructions that returns, in whatever log it is told. After the events that the log held
it holds those of the run that its filter keeps: that the run starts, a dispatch for each instruction that is fetched, and how
the run ends. The instructions are those at their positions, and the first alone is at position 0. Replayed on a fresh machine,
the dispatches lead with the registers that they tell to where the run has ended, as `EndsWith` says for each outcome. -/
theorem log_replays_run {p : Program} (hp : e.bound = some p) (hne : p.isEmpty = false) {turns : Nat}
    {outcome : Except Error Halted} (h : e.execute turns = some outcome) (log : Log) :
    ∃ log', e.executeLogged turns log = some (log', outcome) ∧ ∃ ds ending,
      log'.events.toList = log.events.toList ++
        (.started p.size e.config.stackSize :: (ds.flatMap Dispatch.events ++ ending)).filter log.filter.keeps ∧
      (∀ d ∈ ds, p.get? d.pc.toInt = some d.instruction) ∧
      (∀ k (hk : k < ds.length), ds[k].pc = 0 ↔ k = 0) ∧
      e.EndsWith log ds outcome ending := by
  have hprogram : e.program = p := by rw [program, hp]; rfl
  obtain ⟨log', hlog⟩ := exists_executeLogged h log
  refine ⟨log', hlog, ?_⟩
  obtain ⟨n, r, hr, hturn⟩ := exists_turn_of_returned (hprogram ▸ hne) (executeLogged_eq_some_iff.mp hlog)
  obtain ⟨ds₀, htold⟩ := exists_told hr
  obtain ⟨ds, ending, htrace, rfl, hends⟩ := htold.endsWith hr hturn
  refine ⟨ds, ending, ?_, ?_, htrace.zero_iff, hends⟩
  · rw [Log.tell_events, opening, hprogram, List.cons_append]
  · rw [← hprogram]
    exact htrace.fetched

/-- Three runs told in a log that keeps every event: one that negates 3 and halts, one that divides by zero, and one that a limit
of 0 stops at position 1. The last instruction of the second is dispatched and not executed. -/
theorem log_replays_run_endings :
    let halts : Engine :=
      { config := { stackSize := 4 }, bound := some (.ofList [⟨.lit, 0, 3⟩, ⟨.opr, 0, 1⟩, ⟨.opr, -3, 0⟩]) }
    let divides : Engine :=
      { config := { stackSize := 4 }, bound := some (.ofList [⟨.lit, 0, 7⟩, ⟨.lit, 0, 0⟩, ⟨.opr, 0, 5⟩]) }
    let stopped : Engine :=
      { config := { stackSize := 4, stepLimit := some 0 }, bound := some (.ofList [⟨.jmp, 0, 1⟩, ⟨.jmp, 0, 1⟩]) }
    let h : Halted :=
      { machine := { stack := #[-3, 0, 0, 0], site := 2 }, last := ⟨.opr, -3, 0⟩, steps := 3, maxLevel := 3 }
    let f : Fault := ⟨2, .divisionByZero⟩
    (halts.execute 3 = some (.ok h) ∧
      ∃ log' ds, halts.executeLogged 3 { filter := .everything } = some (log', .ok h) ∧
        log'.events.toList = .started 3 4 :: (ds.flatMap Dispatch.events ++ [.halted 3 0]) ∧ ds.length = 3 ∧
        halts.replay ds = some h.machine) ∧
    (divides.execute 3 = some (.error (.fault f)) ∧
      ∃ log' ds i, ∃ m m' : Machine, divides.executeLogged 3 { filter := .everything } = some (log', .error (.fault f)) ∧
        log'.events.toList = .started 3 4 :: (ds ++ [m.dispatch i]).flatMap Dispatch.events ∧
        divides.replay ds = some m ∧ m.execute i = .error f m') ∧
    stopped.execute 1 = some (.error (.stepLimitExceeded 0)) ∧
      ∃ log' ds m, stopped.executeLogged 1 { filter := .everything } = some (log', .error (.stepLimitExceeded 0)) ∧
        log'.events.toList = .started 2 4 :: (ds.flatMap Dispatch.events ++ [.exhausted 0 m.pc]) ∧ ds.length = 1 ∧
        stopped.replay ds = some m := by
  intro halts divides stopped h f
  have hkeeps : ∀ es : List Event, es.filter Filter.everything.keeps = es := by
    intro es
    rw [List.filter_eq_self]
    intro ev _
    exact Filter.keeps_everything ev
  have hhalts : halts.execute 3 = some (.ok h) := by
    dsimp only [halts, h]
    rfl
  have hdivides : divides.execute 3 = some (.error (.fault f)) := by
    dsimp only [divides, f]
    rfl
  have hstopped : stopped.execute 1 = some (.error (.stepLimitExceeded 0)) := by
    dsimp only [stopped]
    rfl
  refine ⟨⟨hhalts, ?_⟩, ⟨hdivides, ?_⟩, hstopped, ?_⟩
  · obtain ⟨log', hlog, ds, ending, hevents, -, -, hlength, hreplay, rfl⟩ :=
      log_replays_run (e := halts) rfl rfl hhalts { filter := .everything }
    rw [hkeeps] at hevents
    exact ⟨log', ds, hlog, hevents, hlength, hreplay⟩
  · obtain ⟨log', hlog, ds, ending, hevents, -, -, ⟨front, r, i, m, rfl, hreplay, hexec, -, -⟩, rfl⟩ :=
      log_replays_run (e := divides) rfl rfl hdivides { filter := .everything }
    rw [hkeeps, List.append_nil] at hevents
    exact ⟨log', front, i, r.machine, m, hlog, hevents, hreplay, hexec⟩
  · obtain ⟨log', hlog, ds, ending, hevents, -, -, hlength, m, hreplay, rfl⟩ :=
      log_replays_run (e := stopped) rfl rfl hstopped { filter := .everything }
    rw [hkeeps] at hevents
    exact ⟨log', ds, m, hlog, hevents, hlength, hreplay⟩

end Engine

end PMachine
