import Semicolons.CommandLine.Session
import Semicolons.Proofs.World.Outcome

/-!
# Sessions that convert

A session that is asked for no listing does what the conversion of files does: it succeeds in the
same cases, and leaves the same world behind (`execute_eq_convertFile`). The two differ in what
they say of a text from the standard input, because only a session has a name for it, which it
puts in front of each entry of the log (`convert_named`).
-/

namespace Semicolons

/-- An entry of the log with the name of the source text in front. -/
def LogEntry.named (name : String) (entry : LogEntry) : LogEntry :=
  { entry with text := name ++ ":" ++ entry.text }

/-- A name only labels the log of a conversion. -/
theorem convert_named (policy : Policy) (name source : String) :
    convert policy (some name) source =
      ⟨(convert policy none source).log.map (LogEntry.named name),
        (convert policy none source).result⟩ := by
  cases policy with
  | ignore => rw [convert_ignore, convert_ignore, List.map_nil]
  | warn =>
    rw [convert_warn, convert_warn, List.map_map]
    rfl
  | fatal =>
    cases hd : (Conversion.ofSource source).diagnostics with
    | nil => rw [convert_fatal_of_nil hd, convert_fatal_of_nil hd, List.map_nil]
    | cons d rest =>
      rw [convert_fatal_of_cons hd, convert_fatal_of_cons hd, List.map_singleton]
      rfl

namespace CommandLine

/-- What a session calls the source text that it converts. -/
def Arguments.sourceName (a : Arguments) : String :=
  a.inputFile?.getD stdinName

section Session

variable {a : Arguments} {w after : World} {source : String} {failure : Failure}
  {error : SystemError} {r : Conversion}

/-- No input and the input `-` are the standard input. -/
theorem inputFile?_eq_none (h : a.input = none ∨ a.input = some "-") : a.inputFile? = none := by
  rcases h with h | h <;> rw [Arguments.inputFile?, h] <;> rfl

theorem source?_of_listed (hlisted : a.listed = none) : a.source? = a.inputFile? := by
  simp [Arguments.source?, hlisted]

theorem target?_of_listed (hlisted : a.listed = none) : a.target? = a.output := by
  simp [Arguments.target?, hlisted]

/-- The name that a session has for its source text does not change the result. -/
theorem result_sourceName (a : Arguments) (source : String) :
    (convert a.policy (some a.sourceName) source).result =
      (convert a.policy a.inputFile? source).result := by
  cases h : a.inputFile? with
  | none => rw [convert_named]
  | some path => rw [Arguments.sourceName, h, Option.getD_some]

theorem log_sourceName_of_some {path : String} (h : a.inputFile? = some path) (source : String) :
    (convert a.policy (some a.sourceName) source).log =
      (convert a.policy a.inputFile? source).log := by
  rw [Arguments.sourceName, h, Option.getD_some]

theorem log_sourceName_of_none (h : a.inputFile? = none) (source : String) :
    (convert a.policy (some a.sourceName) source).log =
      (convert a.policy a.inputFile? source).log.map (LogEntry.named stdinName) := by
  rw [Arguments.sourceName, h, Option.getD_none, convert_named]

section Stages

variable (hlisted : a.listed = none)
include hlisted

theorem execute_unread
    (hread : sourceOfInput a.sourceName (w.read a.inputFile?) = .error failure) :
    execute a w = ⟨w, [], .error (.ofFailure a.sourceName failure)⟩ := by
  rw [Arguments.sourceName] at hread ⊢
  simp only [execute, reply, source?_of_listed hlisted, hread]

theorem reply_failed {found : Except SystemError ByteArray}
    (hread : sourceOfInput a.sourceName found = .ok source)
    (hresult : (convert a.policy (some a.sourceName) source).result = .error failure) :
    reply a found = ((convert a.policy (some a.sourceName) source).log,
      .error (.ofFailure a.sourceName failure)) := by
  rw [Arguments.sourceName] at hread hresult ⊢
  simp only [reply, source?_of_listed hlisted, hlisted, hread, hresult]
  rfl

theorem reply_converted {found : Except SystemError ByteArray}
    (hread : sourceOfInput a.sourceName found = .ok source)
    (hresult : (convert a.policy (some a.sourceName) source).result = .ok r) :
    reply a found = ((convert a.policy (some a.sourceName) source).log, .ok r.output) := by
  rw [Arguments.sourceName] at hread hresult ⊢
  simp only [reply, source?_of_listed hlisted, hlisted, hread, hresult]
  rfl

theorem execute_failed
    (hread : sourceOfInput a.sourceName (w.read a.inputFile?) = .ok source)
    (hresult : (convert a.policy (some a.sourceName) source).result = .error failure) :
    execute a w = ⟨w, (convert a.policy (some a.sourceName) source).log,
      .error (.ofFailure a.sourceName failure)⟩ := by
  simp only [execute, source?_of_listed hlisted, reply_failed hlisted hread hresult]

theorem execute_unwritten
    (hread : sourceOfInput a.sourceName (w.read a.inputFile?) = .ok source)
    (hresult : (convert a.policy (some a.sourceName) source).result = .ok r)
    (hwrite : w.write a.output r.output = .error error) :
    execute a w = ⟨w, (convert a.policy (some a.sourceName) source).log,
      .error (.unwritable a.output error)⟩ := by
  simp only [execute, source?_of_listed hlisted, target?_of_listed hlisted,
    reply_converted hlisted hread hresult, hwrite]

theorem execute_written
    (hread : sourceOfInput a.sourceName (w.read a.inputFile?) = .ok source)
    (hresult : (convert a.policy (some a.sourceName) source).result = .ok r)
    (hwrite : w.write a.output r.output = .ok after) :
    execute a w = ⟨after, (convert a.policy (some a.sourceName) source).log, .ok ()⟩ := by
  simp only [execute, source?_of_listed hlisted, target?_of_listed hlisted,
    reply_converted hlisted hread hresult, hwrite]

/-- A session goes through the stages of the conversion of files, with the same end. -/
theorem execute_follows (w : World) :
    let session := execute a w
    let run := convertFile a.policy a.inputFile? a.output w
    session.world = run.world ∧ (session.result = .ok () ↔ ∃ r, run.result = .ok r) ∧
      ((session.log = [] ∧ run.log = []) ∨ ∃ source,
        session.log = (convert a.policy (some a.sourceName) source).log ∧
          run.log = (convert a.policy a.inputFile? source).log) := by
  intro session run
  rcases convertFile_cases a.policy a.inputFile? a.output w with ⟨failure, hread, heq⟩ |
    ⟨source, failure, hread, hresult, heq⟩ | ⟨source, r, error, hread, hresult, hwrite, heq⟩ |
    ⟨source, r, after, hread, hresult, hwrite, heq⟩
  · have hsession : session = _ := execute_unread hlisted hread
    have hrun : run = _ := heq
    rw [hsession, hrun]
    exact ⟨rfl, by simp, Or.inl ⟨rfl, rfl⟩⟩
  · have hsession : session = _ :=
      execute_failed hlisted hread ((result_sourceName a source).trans hresult)
    have hrun : run = _ := heq
    rw [hsession, hrun]
    exact ⟨rfl, by simp, Or.inr ⟨source, rfl, rfl⟩⟩
  · have hsession : session = _ :=
      execute_unwritten hlisted hread ((result_sourceName a source).trans hresult) hwrite
    have hrun : run = _ := heq
    rw [hsession, hrun]
    exact ⟨rfl, by simp, Or.inr ⟨source, rfl, rfl⟩⟩
  · have hsession : session = _ :=
      execute_written hlisted hread ((result_sourceName a source).trans hresult) hwrite
    have hrun : run = _ := heq
    rw [hsession, hrun]
    exact ⟨rfl, by simp, Or.inr ⟨source, rfl, rfl⟩⟩

end Stages

end Session

theorem exitCode_eq_zero_iff {result : Except Complaint Unit} :
    exitCode result = 0 ↔ result = .ok () := by
  cases result with
  | error complaint => simp [exitCode]
  | ok done => simp [exitCode]

/-- A session that is asked for no listing succeeds where the conversion of files does, leaves the
    same world behind, and logs the same if it reads a file. What it logs about the standard input,
    which is meant by `-` too, has a name in front. -/
theorem execute_eq_convertFile {a : Arguments} (hlisted : a.listed = none) (w : World) :
    let session := execute a w
    let run := convertFile a.policy a.inputFile? a.output w
    (session.result = .ok () ↔ ∃ r, run.result = .ok r) ∧
      (exitCode session.result = 0 ↔ ∃ r, run.result = .ok r) ∧
      session.world = run.world ∧
      (∀ path, a.inputFile? = some path → session.log = run.log) ∧
      (a.inputFile? = none → session.log = run.log.map (LogEntry.named stdinName)) ∧
      (a.input = none ∨ a.input = some "-" → a.inputFile? = none) := by
  obtain ⟨hworld, hresult, hlog⟩ := execute_follows hlisted w
  refine ⟨hresult, exitCode_eq_zero_iff.trans hresult, hworld, ?_, ?_, inputFile?_eq_none⟩
  · intro path hpath
    rcases hlog with ⟨hsession, hrun⟩ | ⟨source, hsession, hrun⟩
    · rw [hsession, hrun]
    · rw [hsession, hrun, log_sourceName_of_some hpath]
  · intro hstdin
    rcases hlog with ⟨hsession, hrun⟩ | ⟨source, hsession, hrun⟩
    · rw [hsession, hrun, List.map_nil]
    · rw [hsession, hrun, log_sourceName_of_none hstdin]

theorem execute_stdin_with_warning :
    let w : World := ⟨⟨[], [], []⟩, "x\n)".toUTF8, .empty⟩
    let session := execute ⟨some "-", some "out", .warn, none⟩ w
    exitCode session.result = 0 ∧
      session.log = [⟨.warning, "<stdin>:2:0 unexpected closing delimiter `)`"⟩] ∧
      session.world.files.contents = [(["out"], "x;\n);".toUTF8)] := by
  intro w session
  have hread : sourceOfInput (none.getD stdinName) (w.read none) = .ok "x\n)" :=
    sourceOfInput_eq_ok_iff.mpr ⟨rfl, by decide⟩
  have hrun : convertFile .warn none (some "out") w =
      ⟨{ w with files := w.files.put ["out"] "x;\n);".toUTF8 },
        [⟨.warning, "2:0 unexpected closing delimiter `)`"⟩],
        .ok (Conversion.ofSource "x\n)")⟩ :=
    convertFile_written hread rfl rfl
  obtain ⟨-, hexit, hworld, -, hlog, -⟩ :=
    execute_eq_convertFile (show (⟨some "-", some "out", .warn, none⟩ : Arguments).listed = none
      from rfl) w
  have hstdin : (⟨some "-", some "out", .warn, none⟩ : Arguments).inputFile? = none := rfl
  have hnamed := congrArg (fun run => run.log.map (LogEntry.named stdinName)) hrun
  have hfiles := congrArg (fun run => run.world.files.contents) hrun
  refine ⟨hexit.mpr ⟨_, congrArg Run.result hrun⟩, ?_, ?_⟩
  · exact (hlog hstdin).trans (hnamed.trans (by decide))
  · exact (congrArg (fun world => world.files.contents) hworld).trans (hfiles.trans rfl)

end CommandLine

end Semicolons
