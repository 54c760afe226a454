import PMachine.Proofs.Command.Format
import PMachine.Proofs.Engine.Binding
import PMachine.Proofs.Engine.Replay

/-!
# What a task comes to

`Invocation.ComesTo` lists what a task on a text can come to, with the reason for each: every statement about an exit code, an
output or an error is read off this list. A run and a check refuse the same texts, and formatting refuses fewer, since it does
not ask whether a program can be bound.
-/

namespace PMachine

/-- A task has room for 2046 instructions. -/
theorem Engine.ofProgram_of_2046_lt {p : Program} (h : 2046 < p.size) (limit : Option Nat) :
    Engine.ofProgram p { stepLimit := limit } = .error (.addressSpaceExceeded p.size 2046) := by
  rw [Engine.ofProgram, Engine.withRoom, Engine.checkLength_of_lt h]
  rfl

/-- A run comes to a result exactly if it halts and the slot that its last instruction names holds the result. -/
theorem Engine.run_eq_ok_iff {e : Engine} {turns : Nat} {w : Word} :
    e.run turns = some (.ok w) ↔ ∃ h, e.execute turns = some (.ok h) ∧ h.result = .ok w := by
  rw [run, Option.map_eq_some_iff]
  constructor
  · rintro ⟨err | h, hexec, hresult⟩
    · cases hresult
    · refine ⟨h, hexec, ?_⟩
      cases hw : h.result with
      | error f => simp [resultOf, Except.bind, Except.mapError, hw] at hresult
      | ok w' => simpa [resultOf, Except.bind, Except.mapError, hw] using hresult
  · rintro ⟨h, hexec, hresult⟩
    exact ⟨.ok h, hexec, by simp only [resultOf, Except.bind, Except.mapError, hresult]⟩

/-! ## What a task comes to -/

namespace Invocation

/-- What a task on a text comes to: what it prints, or why it is not done. -/
inductive ComesTo (i : Invocation) (turns : Nat) (text : String) : Except Failure String → Prop where
  /-- The text cannot be read. -/
  | unloadable {e : LoadError} (hparse : Program.parse i.separator text = .error e) :
      ComesTo i turns text (.error (.unloadable i.path e))
  /-- The program is too long to be bound. -/
  | unbindable {p : Program} (htask : i.task ≠ .format) (hparse : Program.parse i.separator text = .ok p)
      (hsize : 2046 < p.size) : ComesTo i turns text (.error (.unbindable (.addressSpaceExceeded p.size 2046)))
  /-- The program can be bound. -/
  | checked {p : Program} (htask : i.task = .check) (hparse : Program.parse i.separator text = .ok p)
      (hsize : p.size ≤ 2046) : ComesTo i turns text (.ok s!"OK: {i.path} ({p.size} instructions)\n")
  /-- The program is written. -/
  | formatted {p : Program} (htask : i.task = .format) (hparse : Program.parse i.separator text = .ok p) :
      ComesTo i turns text (.ok (p.render i.separator))
  /-- The run halts with a result. -/
  | finished {p : Program} {e : Engine} {w : Word} {stepLimit : Option Nat} (htask : i.task = .run stepLimit)
      (hparse : Program.parse i.separator text = .ok p) (he : Engine.ofProgram p { stepLimit } = .ok e)
      (hrun : e.run turns = some (.ok w)) : ComesTo i turns text (.ok (Numeral.ofWord w ++ "\n"))
  /-- The run does not halt, or the slot of its result lies outside the stack. -/
  | failed {p : Program} {e : Engine} {err : Error} {stepLimit : Option Nat} (htask : i.task = .run stepLimit)
      (hparse : Program.parse i.separator text = .ok p) (he : Engine.ofProgram p { stepLimit } = .ok e)
      (hrun : e.run turns = some (.error err)) : ComesTo i turns text (.error (.unfinished err))

variable {i : Invocation} {turns : Nat} {text : String} {log log' : Log} {outcome : Except Failure String}

/-- A run of a program that was read comes to one of the outcomes of a run. -/
theorem comesTo_of_runTask {p : Program} {stepLimit : Option Nat} (htask : i.task = .run stepLimit)
    (hparse : Program.parse i.separator text = .ok p) (h : p.runTask stepLimit turns log = some (log', outcome)) :
    i.ComesTo turns text outcome ∧ ∃ es, log' = log.tell es := by
  rw [Program.runTask] at h
  by_cases hsize : p.size ≤ 2046
  · have he : Engine.ofProgram p { stepLimit } = .ok ⟨{ stepLimit }, some p⟩ :=
      Engine.ofProgram_eq_ok_iff.mpr ⟨hsize, rfl⟩
    rw [he] at h
    obtain ⟨⟨log₁, ended⟩, hlogged, hout⟩ := Option.map_eq_some_iff.mp h
    have hrun := congrArg (Option.map Engine.resultOf) (Engine.execute_of_executeLogged hlogged)
    obtain ⟨es, rfl⟩ := Engine.exists_tell_of_executeLogged hlogged
    cases ended with
    | error err =>
      cases hout
      exact ⟨.failed htask hparse he hrun, es, rfl⟩
    | ok halted =>
      -- A run that halts tells one event more, whether or not its result can be read.
      have hlog : (log.tell es).add (.finished halted.steps) = log.tell (es ++ [Event.finished halted.steps]) :=
        (Log.tell_append log es [Event.finished halted.steps]).symm
      rw [Option.map_some] at hrun
      cases hresult : Engine.resultOf (.ok halted) with
      | ok w =>
        rw [hresult] at hrun
        simp only [hresult, hlog] at hout
        cases hout
        exact ⟨.finished htask hparse he hrun, _, rfl⟩
      | error err =>
        rw [hresult] at hrun
        simp only [hresult, hlog] at hout
        cases hout
        exact ⟨.failed htask hparse he hrun, _, rfl⟩
  · have hlt : 2046 < p.size := by omega
    rw [Engine.ofProgram_of_2046_lt hlt] at h
    cases h
    exact ⟨.unbindable (by simp [htask]) hparse hlt, [], rfl⟩

/-- A check of a program that was read comes to one of the outcomes of a check. -/
theorem comesTo_checkTask {p : Program} (htask : i.task = .check) (hparse : Program.parse i.separator text = .ok p) :
    i.ComesTo turns text (i.checkTask p) := by
  rw [checkTask]
  by_cases hsize : p.size ≤ 2046
  · rw [Engine.ofProgram_eq_ok_iff.mpr ⟨hsize, rfl⟩]
    exact .checked htask hparse hsize
  · have hlt : 2046 < p.size := by omega
    rw [Engine.ofProgram_of_2046_lt hlt]
    exact .unbindable (by simp [htask]) hparse hlt

/-- Whatever a task on a text comes to is on the list. -/
theorem comesTo_of_perform (h : i.perform turns (.ok text) log = some (log', outcome)) :
    i.ComesTo turns text outcome ∧ ∃ es, log' = log.tell es := by
  simp only [perform, work, Program.parseLogged] at h
  cases hparse : Program.parse i.separator text with
  | error e =>
    rw [hparse] at h
    cases h
    exact ⟨.unloadable hparse, [_], rfl⟩
  | ok p =>
    rw [hparse] at h
    cases htask : i.task with
    | run stepLimit =>
      simp only [htask] at h
      obtain ⟨hcomes, es, rfl⟩ := comesTo_of_runTask htask hparse h
      exact ⟨hcomes, [_, _] ++ es, (Log.tell_append log [_, _] es).symm⟩
    | check =>
      simp only [htask] at h
      cases h
      exact ⟨comesTo_checkTask htask hparse, [_, _], rfl⟩
    | format =>
      simp only [htask] at h
      cases h
      exact ⟨.formatted htask hparse, [_, _], rfl⟩

/-- A report tells what the task came to, behind the events that the task told. -/
theorem comesTo_of_report {env : Environment} {r : Report} (hread : env.readText i.path = .ok text)
    (h : i.report turns env = some r) :
    ∃ es outcome, i.ComesTo turns text outcome ∧
      r = .ofOutcome env.line (({ filter := env.filter } : Log).tell es) outcome := by
  rw [report, hread] at h
  obtain ⟨⟨log, outcome⟩, hperform, rfl⟩ := Option.map_eq_some_iff.mp h
  obtain ⟨hcomes, es, rfl⟩ := comesTo_of_perform hperform
  exact ⟨es, outcome, hcomes, rfl⟩

/-- A task that does not run a program is done at once. -/
theorem exists_report_of_ne_run (htask : ∀ stepLimit, i.task ≠ .run stepLimit) (env : Environment) :
    ∃ r, ∀ turns, i.report turns env = some r := by
  unfold report
  cases env.readText i.path with
  | error reason => exact ⟨_, fun _ => rfl⟩
  | ok text =>
    simp only [perform, work, Program.parseLogged]
    cases Program.parse i.separator text with
    | error e => exact ⟨_, fun _ => rfl⟩
    | ok p =>
      cases ht : i.task with
      | run stepLimit => exact absurd ht (htask stepLimit)
      | check => exact ⟨_, fun _ => rfl⟩
      | format => exact ⟨_, fun _ => rfl⟩

/-- Whether a text holds no program that can be bound: it cannot be read, or its program has more than 2046 instructions. -/
def Unusable (s : Separator) (text : String) : Prop :=
  (∃ e, Program.parse s text = .error e) ∨ ∃ p, Program.parse s text = .ok p ∧ 2046 < p.size

theorem exists_parse_of_not_unusable {s : Separator} (h : ¬ Unusable s text) :
    ∃ p, Program.parse s text = .ok p ∧ p.size ≤ 2046 := by
  cases hparse : Program.parse s text with
  | error e => exact absurd (.inl ⟨e, hparse⟩) h
  | ok p => exact ⟨p, rfl, Nat.le_of_not_lt fun hlong => h (.inr ⟨p, hparse, hlong⟩)⟩

/-- On a text without a program that can be bound a run and a check do the same. -/
theorem perform_eq_of_unusable {j : Invocation} (hi : i.task ≠ .format) (hj : j.task ≠ .format) (hpath : j.path = i.path)
    (hsep : j.separator = i.separator) (h : Unusable i.separator text) (turns turns' : Nat) (log : Log) :
    i.perform turns (.ok text) log = j.perform turns' (.ok text) log := by
  rcases h with ⟨e, he⟩ | ⟨p, hp, hsize⟩
  · simp only [perform, work, Program.parseLogged, hpath, hsep, he]
  · have hlong : ∀ (k : Invocation) (n : Nat) (log : Log), k.task ≠ .format → k.separator = i.separator →
        k.work n text log = some (log.add (.loaded p.size), .error (.unbindable (.addressSpaceExceeded p.size 2046))) := by
      intro k n log htask hk
      simp only [work, Program.parseLogged, hk, hp]
      cases ht : k.task with
      | run stepLimit => simp only [Program.runTask, Engine.ofProgram_of_2046_lt hsize]
      | check => simp only [checkTask, Engine.ofProgram_of_2046_lt hsize]
      | format => exact absurd ht htask
    simp only [perform, hlong i _ _ hi rfl, hlong j _ _ hj hsep, hpath, hsep]

theorem report_eq_of_unusable {j : Invocation} {env : Environment} (hread : env.readText i.path = .ok text)
    (hi : i.task ≠ .format) (hj : j.task ≠ .format) (hpath : j.path = i.path) (hsep : j.separator = i.separator)
    (h : Unusable i.separator text) (turns turns' : Nat) : i.report turns env = j.report turns' env := by
  rw [report, report, hpath, hread, perform_eq_of_unusable hi hj hpath hsep h turns turns']

/-- What a task prints is not empty. -/
theorem ComesTo.output_ne_empty {output : String} (h : i.ComesTo turns text (.ok output)) : output ≠ "" := by
  cases h with
  | checked => simp [String.append_eq_empty_iff]
  | formatted =>
    rw [Ne, ← String.toList_eq_nil_iff, Text.toList_program_render]
    simp [Program.canonicalLines]
  | finished => simp [String.append_eq_empty_iff]

/-- A run or a check finds no program to work on exactly if the text holds none that can be bound. -/
theorem ComesTo.code_eq_one_iff (h : i.ComesTo turns text outcome) (htask : i.task ≠ .format) (line : Nat → Event → String)
    (log : Log) : (Report.ofOutcome line log outcome).code = 1 ↔ Unusable i.separator text := by
  have husable : ∀ {p}, Program.parse i.separator text = .ok p → p.size ≤ 2046 → ¬ Unusable i.separator text := by
    rintro p hparse hsize (⟨e, he⟩ | ⟨p', hparse', hlong⟩)
    · cases hparse.symm.trans he
    · cases hparse.symm.trans hparse'
      omega
  cases h with
  | unloadable hparse => exact iff_of_true rfl (.inl ⟨_, hparse⟩)
  | unbindable _ hparse hlong => exact iff_of_true rfl (.inr ⟨_, hparse, hlong⟩)
  | checked _ hparse hsize => exact iff_of_false Nat.zero_ne_one (husable hparse hsize)
  | formatted hformat => exact absurd hformat htask
  | finished _ hparse he => exact iff_of_false Nat.zero_ne_one (husable hparse (Engine.ofProgram_eq_ok_iff.mp he).1)
  | failed _ hparse he =>
    exact iff_of_false (by simp [Report.ofOutcome, Failure.code]) (husable hparse (Engine.ofProgram_eq_ok_iff.mp he).1)

/-- A check of a program that can be bound is done. -/
theorem ComesTo.code_of_check {p : Program} (h : i.ComesTo turns text outcome) (htask : i.task = .check)
    (hparse : Program.parse i.separator text = .ok p) (hsize : p.size ≤ 2046)
    (line : Nat → Event → String) (log : Log) : (Report.ofOutcome line log outcome).code = 0 := by
  cases h with
  | unloadable hparse' => cases hparse.symm.trans hparse'
  | unbindable _ hparse' hlong =>
    cases hparse.symm.trans hparse'
    omega
  | checked => rfl
  | formatted htask' => cases htask.symm.trans htask'
  | finished htask' => cases htask.symm.trans htask'
  | failed htask' => cases htask.symm.trans htask'

/-- Formatting finds no program to work on exactly if the text cannot be read, and is done otherwise. -/
theorem ComesTo.code_of_format (h : i.ComesTo turns text outcome) (htask : i.task = .format)
    (line : Nat → Event → String) (log : Log) :
    ((Report.ofOutcome line log outcome).code = 1 ↔ ∃ e, Program.parse i.separator text = .error e) ∧
      ((Report.ofOutcome line log outcome).code ≠ 1 → (Report.ofOutcome line log outcome).code = 0) := by
  cases h with
  | unloadable hparse => exact ⟨iff_of_true rfl ⟨_, hparse⟩, fun hne => absurd rfl hne⟩
  | unbindable htask' => exact absurd htask htask'
  | checked htask' => cases htask.symm.trans htask'
  | formatted _ hparse =>
    refine ⟨iff_of_false Nat.zero_ne_one ?_, fun _ => rfl⟩
    rintro ⟨e, he⟩
    cases hparse.symm.trans he
  | finished htask' => cases htask.symm.trans htask'
  | failed htask' => cases htask.symm.trans htask'

end Invocation

end PMachine
