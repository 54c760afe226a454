import PMachine.Command.Report
import PMachine.Proofs.Text.RoundTrip

/-!
# A formatted file in place of the file

Of the text of a file a task sees only the program that the text holds, or why it holds none. The text that formatting prints
holds the same program. So it can stand in place of the file: a second formatting prints it again, and every task on it is
reported as on the file.
-/

namespace PMachine

/-- A program that was read is read back from its canonical text: what is too long for that cannot be read in the first
place. -/
theorem Program.parse_render_of_parse {s : Separator} {text : String} {p : Program} (h : Program.parse s text = .ok p) :
    Program.parse s (p.render s) = .ok p :=
  parse_render_of_le (Text.size_le_of_parse h)

/-- A text is read from the file that holds its bytes. -/
theorem Environment.readText_of_read {env : Environment} {path text : String} (h : env.read path = .ok text.toUTF8) :
    env.readText path = .ok text := by
  have hdecode : String.fromUTF8? text.toUTF8 = some text := by
    rw [String.fromUTF8?]
    exact dif_pos text.isValidUTF8
  simp only [readText, h, Except.bind, decodeText, hdecode]

namespace Invocation

/-- A task sees no difference between two texts that are read alike. -/
theorem perform_eq_of_parse_eq {i : Invocation} {t u : String}
    (h : Program.parse i.separator t = Program.parse i.separator u) (turns : Nat) (log : Log) :
    i.perform turns (.ok t) log = i.perform turns (.ok u) log := by
  simp only [perform, work, Program.parseLogged, h]

/-- Formatting is done exactly if the file can be read and holds a program; what is printed is its canonical text. -/
theorem report_format_iff {i : Invocation} (ht : i.task = .format) {turns : Nat} {env : Environment} {u : String} :
    (∃ r, i.report turns env = some r ∧ r.code = 0 ∧ r.output = u) ↔
      ∃ t p, env.readText i.path = .ok t ∧ Program.parse i.separator t = .ok p ∧ p.render i.separator = u := by
  cases hread : env.readText i.path with
  | error reason => simp [report, perform, hread, Report.ofOutcome, Failure.code]
  | ok t =>
    cases hp : Program.parse i.separator t with
    | error e => simp [report, perform, work, Program.parseLogged, hread, hp, Report.ofOutcome, Failure.code]
    | ok p => simp [report, perform, work, Program.parseLogged, hread, hp, ht, Report.ofOutcome]

/-- If formatting a file is done and prints `r.output`, then formatting any file with these bytes, with the same separator, is
done too and prints the same; and if they stand in place of the file, every task with the path and the separator of the first is
reported as before, however its log is kept and written: the exit code, the output and the errors are the same, and a run that
does not return on the one does not return on the other. -/
theorem report_formatted {i : Invocation} {turns : Nat} {env : Environment} {r : Report} (ht : i.task = .format)
    (hr : i.report turns env = some r) (hc : r.code = 0) :
    (∀ (j : Invocation) (env' : Environment), j.task = .format → j.separator = i.separator →
      env'.read j.path = .ok r.output.toUTF8 → ∀ turns' : Nat,
        ∃ r', j.report turns' env' = some r' ∧ r'.code = 0 ∧ r'.output = r.output) ∧
    ∀ (j : Invocation) (env' : Environment), j.path = i.path → j.separator = i.separator →
      env'.read i.path = .ok r.output.toUTF8 → ∀ turns' : Nat,
        j.report turns' env' = j.report turns' { env' with read := env.read } := by
  obtain ⟨t, p, hread, hparse, hprint⟩ := (report_format_iff ht).mp ⟨r, hr, hc, rfl⟩
  have hagain : Program.parse i.separator r.output = .ok p := by
    rw [← hprint]
    exact Program.parse_render_of_parse hparse
  refine ⟨?_, ?_⟩
  · intro j env' htask hsep hread' turns'
    rw [report_format_iff htask, hsep]
    exact ⟨r.output, p, Environment.readText_of_read hread', hagain, hprint⟩
  · intro j env' hpath hsep hread' turns'
    have htext : ({ env' with read := env.read } : Environment).readText j.path = .ok t := by
      rw [hpath]
      exact hread
    have htext' : env'.readText j.path = .ok r.output := by
      rw [hpath]
      exact Environment.readText_of_read hread'
    have hsame : Program.parse j.separator r.output = Program.parse j.separator t := by
      rw [hsep, hagain, hparse]
    rw [report, report, htext, htext', perform_eq_of_parse_eq hsame]

/-- A file with comments, blanks, signs and lower case, whose program asks for an unknown operation: its canonical text is
formatted to itself, and a limited run of either file ends with the same runtime error, at the same instruction. -/
theorem report_formatted_loose :
    let loose := "# loose\n +3\r\n\n j m p | -0 | +01 \n#\nlit|0|00\nopr|0|99"
    let tidy := "3\nJMP|0|1\nLIT|0|0\nOPR|0|99\n"
    let path := "/work/programs/p.pcode"
    let file (text : String) : Environment :=
      { read := fun name => if name = path then .ok text.toUTF8 else .error "No such file or directory (os error 2)"
        filter := .off
        line := fun _ e => e.render }
    let bar : Separator := ⟨'|', by decide⟩
    let format : Invocation := ⟨.format, path, bar⟩
    let run : Invocation := ⟨.run (some 9), path, bar⟩
    format.report 0 (file loose) = some { code := 0, output := tidy } ∧
      (∃ r, format.report 0 (file tidy) = some r ∧ r.code = 0 ∧ r.output = tidy) ∧
      run.report 9 (file tidy) = run.report 9 (file loose) ∧
      run.report 9 (file loose) =
        some { code := 3, errors := "runtime error: unknown OPR sub-operation 99 at instruction 2\n" } := by
  intro loose tidy path file bar format run
  have hformat : format.report 0 (file loose) = some { code := 0, output := tidy } := by decide +kernel
  have htidy : (file tidy).read path = .ok tidy.toUTF8 := by
    dsimp only [file]
    exact if_pos rfl
  obtain ⟨hagain, hsame⟩ := report_formatted (i := format) rfl hformat rfl
  exact ⟨hformat, hagain format (file tidy) rfl rfl htidy 0, hsame run (file tidy) rfl rfl htidy 9, by decide +kernel⟩

end Invocation

end PMachine
