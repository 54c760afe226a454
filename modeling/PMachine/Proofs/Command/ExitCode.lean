import PMachine.Proofs.Command.ErrorLine
import PMachine.Proofs.Command.Outcome

/-!
# Exit codes

What the three tasks report on a file that can be read. The exit code says whether a task was done, and if not, whether there
was no program to work on or a run did not come to a result. What is printed and what is told as an error say the same.
-/

namespace PMachine

/-! ## Reports -/

/-- Whether a report says by all that it holds whether the task was done. -/
structure Report.IsCoherent (r : Report) (env : Environment) : Prop where
  /-- Something is printed exactly if it was. -/
  output_iff : r.output = "" ↔ r.code ≠ 0
  /-- Behind the log nothing is told exactly if it was. -/
  errors_iff : ∃ es message, r.errors = env.logText es ++ message ∧ (message = "" ↔ r.code = 0)
  /-- Without a log nothing is told as an error exactly if it was. -/
  errors_iff_of_isSilent : env.filter.IsSilent → (r.errors = "" ↔ r.code = 0)

theorem Failure.code_ne_zero (f : Failure) : f.code ≠ 0 := by
  cases f <;> simp [code]

namespace Invocation

variable {i : Invocation} {turns : Nat} {text : String} {outcome : Except Failure String} {env : Environment}

/-- The report of any task on a text is coherent. -/
theorem ComesTo.isCoherent (h : i.ComesTo turns text outcome) (env : Environment) (es : List Event) :
    (Report.ofOutcome env.line (({ filter := env.filter } : Log).tell es) outcome).IsCoherent env := by
  cases outcome with
  | ok output =>
    refine ⟨?_, ⟨es, "", (String.append_empty).symm, iff_of_true rfl rfl⟩, fun hsilent => iff_of_true ?_ rfl⟩
    · simp [Report.ofOutcome, h.output_ne_empty]
    · exact Environment.logText_of_isSilent hsilent es
  | error f =>
    have hcode := f.code_ne_zero
    have hmessage : f.message ++ "\n" ≠ "" := by simp [String.append_eq_empty_iff]
    refine ⟨iff_of_true rfl hcode, ⟨es, f.message ++ "\n", String.append_assoc .., iff_of_false hmessage hcode⟩,
      fun _ => iff_of_false ?_ hcode⟩
    simp [Report.ofOutcome, String.append_eq_empty_iff]

/-- The report of a run of a program that can be bound tells what the engine comes to. -/
theorem ComesTo.report_of_run {p : Program} {e : Engine} {stepLimit : Option Nat} (h : i.ComesTo turns text outcome)
    (htask : i.task = .run stepLimit) (hparse : Program.parse i.separator text = .ok p)
    (he : Engine.ofProgram p { stepLimit } = .ok e) (env : Environment) (es : List Event) :
    let r := Report.ofOutcome env.line (({ filter := env.filter } : Log).tell es) outcome
    (∃ w, e.run turns = some (.ok w) ∧ r.code = 0 ∧ r.output = Numeral.ofWord w ++ "\n") ∨
      ∃ err, e.run turns = some (.error err) ∧ r.code = 3 ∧
        r.errors = env.logText es ++ (Failure.unfinished err).message ++ "\n" := by
  intro r
  cases h with
  | unloadable hparse' => cases hparse.symm.trans hparse'
  | unbindable _ hparse' hlong =>
    cases hparse.symm.trans hparse'
    have hsize : p.size ≤ 2046 := (Engine.ofProgram_eq_ok_iff.mp he).1
    omega
  | checked htask' => cases htask.symm.trans htask'
  | formatted htask' => cases htask.symm.trans htask'
  | finished htask' hparse' he' hrun =>
    cases htask.symm.trans htask'
    cases hparse.symm.trans hparse'
    cases he.symm.trans he'
    exact .inl ⟨_, hrun, rfl, rfl⟩
  | failed htask' hparse' he' hrun =>
    cases htask.symm.trans htask'
    cases hparse.symm.trans hparse'
    cases he.symm.trans he'
    exact .inr ⟨_, hrun, rfl, rfl⟩

/-! ## A run that can be bound -/

/-- What the standard error of a run holds that does not come to a result: the log, and behind it one runtime error, which stands
on a line of its own and is the only one unless the log passes for another. -/
structure TellsRuntimeError (env : Environment) (err : Error) (errors : String) : Prop where
  eq : ∃ es, errors = env.logText es ++ "runtime error: " ++ err.message ++ "\n"
  newline_not_mem : '\n' ∉ err.message.toList
  eq_of_isSilent : env.filter.IsSilent → errors = "runtime error: " ++ err.message ++ "\n"
  runtimeErrors_eq_one : env.IsUnmistakable → runtimeErrors errors = 1

/-- Behind whatever log a run that does not come to a result tells its runtime error. -/
theorem tellsRuntimeError (env : Environment) (es : List Event) (err : Error) :
    TellsRuntimeError env err (env.logText es ++ (Failure.unfinished err).message ++ "\n") := by
  have hmessage : (Failure.unfinished err).message = "runtime error: " ++ err.message := rfl
  refine ⟨⟨es, ?_⟩, err.newline_not_mem_message, fun hsilent => ?_, fun h => Environment.runtimeErrors_eq_one h es err⟩
  · rw [hmessage, ← String.append_assoc]
  · rw [Environment.logText_of_isSilent hsilent, String.empty_append, hmessage]

/-- The report of a run of a program that can be bound. The run is done, and prints the result, exactly if the engine halts and its
result can be read; else it tells one runtime error, as it does for a program without instructions. -/
theorem ComesTo.run_report {p : Program} {e : Engine} {stepLimit : Option Nat} (h : i.ComesTo turns text outcome)
    (htask : i.task = .run stepLimit) (hparse : Program.parse i.separator text = .ok p)
    (he : Engine.ofProgram p { stepLimit } = .ok e) (env : Environment) (es : List Event) :
    let r := Report.ofOutcome env.line (({ filter := env.filter } : Log).tell es) outcome
    (r.code = 0 ↔ ∃ h w, e.execute turns = some (.ok h) ∧ h.result = .ok w) ∧
      (∀ h w, e.execute turns = some (.ok h) → h.result = .ok w → r.output = Numeral.ofWord w ++ "\n") ∧
      (r.code ≠ 0 → r.code = 3 ∧ ∃ err, e.run turns = some (.error err) ∧ TellsRuntimeError env err r.errors) ∧
      (p.isEmpty = true → r.code = 3) := by
  intro r
  rcases h.report_of_run htask hparse he env es with ⟨w, hw, hcode, hout⟩ | ⟨err, herr, hcode, herrors⟩
  · obtain ⟨h, hexec, hhalt⟩ := Engine.run_eq_ok_iff.mp hw
    refine ⟨iff_of_true hcode ⟨h, w, hexec, hhalt⟩, ?_, fun hne => absurd hcode hne, ?_⟩
    · intro h' w' hexec' hhalt'
      cases hw.symm.trans (Engine.run_eq_ok_iff.mpr ⟨h', hexec', hhalt'⟩)
      exact hout
    · intro hempty
      have hprogram : e.program = p := congrArg Engine.program (Engine.ofProgram_eq_ok_iff.mp he).2
      rw [← hprogram] at hempty
      cases hexec.symm.trans (Engine.execute_of_isEmpty hempty turns)
  · have hnone : ∀ h w, e.execute turns = some (.ok h) → h.result ≠ .ok w := by
      intro h w hexec hhalt
      cases herr.symm.trans (Engine.run_eq_ok_iff.mpr ⟨h, hexec, hhalt⟩)
    have hne : r.code ≠ 0 := fun hzero => absurd (hcode.symm.trans hzero) (by decide)
    refine ⟨iff_of_false hne ?_, ?_, fun _ => ⟨hcode, err, herr, ?_⟩, fun _ => hcode⟩
    · rintro ⟨h, w, hexec, hhalt⟩
      exact hnone h w hexec hhalt
    · intro h w hexec hhalt
      exact absurd hhalt (hnone h w hexec)
    · exact herrors ▸ tellsRuntimeError env es err

/-! ## The three tasks on one file -/

/-- The reports of the three tasks on a file that can be read, with one separator, if the run returns. The run and the check find
no program to work on in the same case, that the text cannot be read or its program is too long to be bound, and then they report
the same. Otherwise the check is done; the run is done, and prints the result, exactly if the engine halts and its result can be
read, and else tells one runtime error. Formatting is done exactly if the text can be read. Each of the three prints something
exactly if it is done, and tells an error behind its log exactly if it is not. -/
theorem reports_agree {env : Environment} {path text : String} {s : Separator} {stepLimit : Option Nat} {turns : Nat}
    {r : Report} (hread : env.read path = .ok text.toUTF8)
    (hr : (⟨.run stepLimit, path, s⟩ : Invocation).report turns env = some r) :
    ∃ c u : Report, (∀ n, (⟨.check, path, s⟩ : Invocation).report n env = some c) ∧
      (∀ n, (⟨.format, path, s⟩ : Invocation).report n env = some u) ∧
      (r.code = 1 ↔ c.code = 1) ∧ (c.code = 1 ↔ Unusable s text) ∧ (r.code = 1 → r = c) ∧
      (¬ Unusable s text → ∃ p e, Program.parse s text = .ok p ∧ Engine.ofProgram p { stepLimit } = .ok e ∧
        c.code = 0 ∧
        (r.code = 0 ↔ ∃ h w, e.execute turns = some (.ok h) ∧ h.result = .ok w) ∧
        (∀ h w, e.execute turns = some (.ok h) → h.result = .ok w → r.output = Numeral.ofWord w ++ "\n") ∧
        (r.code ≠ 0 → r.code = 3 ∧ ∃ err, e.run turns = some (.error err) ∧ TellsRuntimeError env err r.errors) ∧
        (p.isEmpty = true → r.code = 3)) ∧
      (u.code = 1 ↔ ∃ e, Program.parse s text = .error e) ∧ (u.code ≠ 1 → u.code = 0) ∧
      r.IsCoherent env ∧ c.IsCoherent env ∧ u.IsCoherent env := by
  have htext := Environment.readText_of_read hread
  obtain ⟨c, hc⟩ := exists_report_of_ne_run (i := ⟨.check, path, s⟩) nofun env
  obtain ⟨u, hu⟩ := exists_report_of_ne_run (i := ⟨.format, path, s⟩) nofun env
  obtain ⟨es, ran, hran, hreport⟩ := comesTo_of_report htext hr
  obtain ⟨es', checked, hchecked, hcreport⟩ := comesTo_of_report htext (hc 0)
  obtain ⟨es'', formatted, hformatted, hureport⟩ := comesTo_of_report htext (hu 0)
  have hr_one : r.code = 1 ↔ Unusable s text := hreport ▸ hran.code_eq_one_iff nofun _ _
  have hc_one : c.code = 1 ↔ Unusable s text := hcreport ▸ hchecked.code_eq_one_iff nofun _ _
  have hu_code := hureport ▸ hformatted.code_of_format rfl env.line (({ filter := env.filter } : Log).tell es'')
  refine ⟨c, u, hc, hu, hr_one.trans hc_one.symm, hc_one, ?_, ?_, hu_code.1, hu_code.2, hreport ▸ hran.isCoherent env es,
    hcreport ▸ hchecked.isCoherent env es', hureport ▸ hformatted.isCoherent env es''⟩
  · intro hcode
    have hsame := report_eq_of_unusable (i := ⟨.run stepLimit, path, s⟩) (j := ⟨.check, path, s⟩) htext nofun nofun rfl rfl
      (hr_one.mp hcode) turns 0
    exact Option.some.inj (hr.symm.trans (hsame.trans (hc 0)))
  · intro husable
    obtain ⟨p, hparse, hsize⟩ := exists_parse_of_not_unusable husable
    have he : Engine.ofProgram p { stepLimit } = .ok ⟨{ stepLimit }, some p⟩ := Engine.ofProgram_eq_ok_iff.mpr ⟨hsize, rfl⟩
    have hc_zero := hcreport ▸ hchecked.code_of_check rfl hparse hsize env.line (({ filter := env.filter } : Log).tell es')
    exact ⟨p, _, hparse, he, hc_zero, hreport ▸ hran.run_report rfl hparse he env es⟩

/-- Three files where warnings are kept and each stands behind the time. A program that pushes 7 and halts on it is checked,
formatted and run, and 7 is printed. One that jumps on the spot is stopped by a limit of 5 steps: a warning says so, and then the
one runtime error. On one with too few lines, without a log, nothing is done; the run and the check say the same. -/
theorem reports_agree_three_files :
    let seven := "2\nLIT|0|7\nOPR|-3|0"
    let idle := "2\nINT|0|0\nJMP|0|1"
    let short := "2\nLIT|0|7"
    let time := "2026-01-01T00:00:00.000000Z "
    let env : Environment :=
      { read := fun path =>
          if path = "/work/seven.pcode" then .ok seven.toUTF8
          else if path = "programs/idle.pcode" then .ok idle.toUTF8
          else if path = "short.pcode" then .ok short.toUTF8
          else .error "No such file or directory (os error 2)"
        filter := .warnings
        line := fun _ e => time ++ e.render }
    let quiet : Environment := { env with filter := .off }
    let bar : Separator := ⟨'|', by decide⟩
    (∃ c u : Report, (⟨.run none, "/work/seven.pcode", bar⟩ : Invocation).report 2 env = some { code := 0, output := "7\n" } ∧
      (∀ n, (⟨.check, "/work/seven.pcode", bar⟩ : Invocation).report n env = some c) ∧
      (∀ n, (⟨.format, "/work/seven.pcode", bar⟩ : Invocation).report n env = some u) ∧
      c.code = 0 ∧ c.output ≠ "" ∧ u.code = 0 ∧ u.output ≠ "") ∧
    (∃ r : Report, (⟨.run (some 5), "programs/idle.pcode", bar⟩ : Invocation).report 5 env = some r ∧ r.code = 3 ∧
      r.output = "" ∧ r.errors = time ++ " WARN step limit exceeded limit=5 pc=1\n" ++
        "runtime error: step limit of 5 exceeded\n" ∧ runtimeErrors r.errors = 1) ∧
    ∃ r u : Report, (⟨.run none, "short.pcode", bar⟩ : Invocation).report 1 quiet = some r ∧ r.code = 1 ∧
      (∀ n, (⟨.check, "short.pcode", bar⟩ : Invocation).report n quiet = some r) ∧
      (∀ n, (⟨.format, "short.pcode", bar⟩ : Invocation).report n quiet = some u) ∧ u.code = 1 ∧ u.output = "" ∧
      u.errors ≠ "" := by
  intro seven idle short time env quiet bar
  have hplain : env.IsUnmistakable :=
    Environment.isUnmistakable_of_plain (fun _ => time) rfl (fun _ _ => rfl) fun _ => by decide
  refine ⟨?_, ?_, ?_⟩
  · have hread : env.read "/work/seven.pcode" = .ok seven.toUTF8 := by with_unfolding_all rfl
    have hr : (⟨.run none, "/work/seven.pcode", bar⟩ : Invocation).report 2 env = some { code := 0, output := "7\n" } := by
      decide +kernel
    obtain ⟨c, u, hc, hu, hone, hiff, -, husable, hu_one, hu_zero, -, hc_coherent, hu_coherent⟩ := reports_agree hread hr
    have hne : c.code ≠ 1 := fun h => absurd (hone.mpr h) Nat.zero_ne_one
    obtain ⟨-, -, -, -, hc_zero, -⟩ := husable (hiff.not.mp hne)
    have hu_zero := hu_zero fun h => hne (hiff.mpr (.inl (hu_one.mp h)))
    exact ⟨c, u, hr, hc, hu, hc_zero, fun h => hc_coherent.output_iff.mp h hc_zero, hu_zero,
      fun h => hu_coherent.output_iff.mp h hu_zero⟩
  · have hread : env.read "programs/idle.pcode" = .ok idle.toUTF8 := by with_unfolding_all rfl
    have hr : (⟨.run (some 5), "programs/idle.pcode", bar⟩ : Invocation).report 5 env =
        some { code := 3, errors := time ++ " WARN step limit exceeded limit=5 pc=1\n" ++
          "runtime error: step limit of 5 exceeded\n" } := by
      decide +kernel
    obtain ⟨c, u, -, -, hone, hiff, -, husable, -⟩ := reports_agree hread hr
    have hne : c.code ≠ 1 := fun h => absurd (hone.mpr h) (by simp)
    obtain ⟨p, e, -, -, -, -, -, hfails, -⟩ := husable (hiff.not.mp hne)
    obtain ⟨hcode, err, -, htells⟩ := hfails (by simp)
    exact ⟨_, hr, hcode, rfl, rfl, htells.runtimeErrors_eq_one hplain⟩
  · have hread : quiet.read "short.pcode" = .ok short.toUTF8 := by with_unfolding_all rfl
    have hr : (⟨.run none, "short.pcode", bar⟩ : Invocation).report 1 quiet =
        some { code := 1, errors := "error: short.pcode: declared 2 instructions but found 1\n" } := by
      decide +kernel
    obtain ⟨c, u, hc, hu, -, -, hsame, -, hu_one, -, -, -, hu_coherent⟩ := reports_agree hread hr
    have hcode : u.code = 1 := hu_one.mpr ⟨.countMismatch 2 1, by decide +kernel⟩
    refine ⟨_, u, hr, rfl, fun n => (hc n).trans (congrArg some (hsame rfl).symm), hu, hcode, ?_, ?_⟩
    · exact hu_coherent.output_iff.mpr (by omega)
    · exact fun h => absurd ((hu_coherent.errors_iff_of_isSilent Filter.isSilent_off).mp h) (by omega)

end Invocation

end PMachine
