import Semicolons.Conversion

/-!
# Results of a conversion

A report either lets the next one follow or is the last (`reportAll_cons_of_ok`,
`reportAll_cons_of_error`). So a policy that never gives up makes every report
(`reportAll_of_ne_fatal`), and the fatal one makes the first (`reportAll_fatal_cons`). A policy
decides whether there is a result, never what it is: every result is the conversion of the source
text (`eq_ofSource_of_convert`), and only the fatal policy can withhold it
(`convert_result_of_ne_fatal`), which it does if there is a diagnostic (`convert_fatal_iff`).
-/

namespace Semicolons

@[simp] theorem Conversion.output_ofSource (source : String) :
    (Conversion.ofSource source).output = withSemicolons (tokens source) :=
  rfl

@[simp] theorem Conversion.inserted_ofSource (source : String) :
    (Conversion.ofSource source).inserted = semicolonCount (tokens source) :=
  rfl

theorem Conversion.diagnostics_ofSource (source : String) :
    (Conversion.ofSource source).diagnostics = (problems (tokens source)).map Problem.diagnostic :=
  rfl

variable {policy : Policy} {name : Option String} {source : String} {r : Conversion}

section Report

variable {chars : List Char} {d : Diagnostic} {rest : List Diagnostic} {failure : Failure}

/-- After a report with which the policy does not give up, the others follow. -/
theorem reportAll_cons_of_ok (h : (report policy name chars d).result = .ok ()) :
    reportAll policy name chars (d :: rest) =
      ⟨(report policy name chars d).log ++ (reportAll policy name chars rest).log,
        (reportAll policy name chars rest).result⟩ :=
  Logged.bind_of_ok h

/-- No report follows the one with which the policy gives up. -/
theorem reportAll_cons_of_error (h : (report policy name chars d).result = .error failure) :
    reportAll policy name chars (d :: rest) =
      ⟨(report policy name chars d).log, .error failure⟩ :=
  Logged.bind_of_error h

theorem report_result_of_ne_fatal (hpolicy : policy ≠ .fatal) :
    (report policy name chars d).result = .ok () := by
  cases policy with
  | fatal => exact absurd rfl hpolicy
  | warn => rfl
  | ignore => rfl

/-- A policy that never gives up makes every report. -/
theorem reportAll_of_ne_fatal (hpolicy : policy ≠ .fatal) (diagnostics : List Diagnostic) :
    reportAll policy name chars diagnostics =
      ⟨diagnostics.flatMap fun d => (report policy name chars d).log, .ok ()⟩ := by
  induction diagnostics with
  | nil => rfl
  | cons d rest ih =>
    rw [reportAll_cons_of_ok (report_result_of_ne_fatal hpolicy), ih, List.flatMap_cons]

/-- The fatal policy makes the first report. -/
theorem reportAll_fatal_cons :
    reportAll .fatal name chars (d :: rest) =
      ⟨[⟨.error, d.oneLine name chars⟩], .error (.fatal d)⟩ :=
  reportAll_cons_of_error rfl

end Report

theorem convert_of_reportAll_ok {log : List LogEntry}
    (h : reportAll policy name source.toList (Conversion.ofSource source).diagnostics =
      ⟨log, .ok ()⟩) :
    convert policy name source = ⟨log, .ok (Conversion.ofSource source)⟩ := by
  rw [convert, Logged.bind_of_ok (congrArg Logged.result h), h]
  exact congrArg (Logged.mk · _) (List.append_nil log)

theorem convert_of_reportAll_error {log : List LogEntry} {failure : Failure}
    (h : reportAll policy name source.toList (Conversion.ofSource source).diagnostics =
      ⟨log, .error failure⟩) :
    convert policy name source = ⟨log, .error failure⟩ := by
  rw [convert, Logged.bind_of_error (congrArg Logged.result h), h]

theorem convert_ignore (name : Option String) (source : String) :
    convert .ignore name source = ⟨[], .ok (Conversion.ofSource source)⟩ := by
  apply convert_of_reportAll_ok
  rw [reportAll_of_ne_fatal (by decide)]
  exact congrArg (Logged.mk · _) (List.flatMap_eq_nil_iff.mpr fun _ _ => rfl)

theorem convert_warn (name : Option String) (source : String) :
    convert .warn name source =
      ⟨(Conversion.ofSource source).diagnostics.map fun d =>
          ⟨.warning, d.oneLine name source.toList⟩,
        .ok (Conversion.ofSource source)⟩ := by
  apply convert_of_reportAll_ok
  rw [reportAll_of_ne_fatal (by decide), List.map_eq_flatMap]
  rfl

theorem convert_fatal_of_nil (h : (Conversion.ofSource source).diagnostics = []) :
    convert .fatal name source = ⟨[], .ok (Conversion.ofSource source)⟩ := by
  apply convert_of_reportAll_ok
  rw [h]
  rfl

theorem convert_fatal_of_cons {d : Diagnostic} {rest : List Diagnostic}
    (h : (Conversion.ofSource source).diagnostics = d :: rest) :
    convert .fatal name source =
      ⟨[⟨.error, d.oneLine name source.toList⟩], .error (.fatal d)⟩ := by
  apply convert_of_reportAll_error
  rw [h, reportAll_fatal_cons]

theorem convert_result_of_ne_fatal (hpolicy : policy ≠ .fatal) :
    (convert policy name source).result = .ok (Conversion.ofSource source) := by
  rw [convert_of_reportAll_ok (reportAll_of_ne_fatal hpolicy _)]

theorem eq_ofSource_of_convert (h : (convert policy name source).result = .ok r) :
    r = Conversion.ofSource source := by
  rcases hreports : reportAll policy name source.toList (Conversion.ofSource source).diagnostics
    with ⟨log, result⟩
  cases result with
  | error failure =>
    rw [convert_of_reportAll_error hreports] at h
    cases h
  | ok _ =>
    rw [convert_of_reportAll_ok hreports] at h
    exact (Except.ok.inj h).symm

/-- The fatal policy has a result if there are no diagnostics. -/
theorem convert_fatal_iff :
    (convert .fatal name source).result = .ok r ↔
      r = Conversion.ofSource source ∧ (Conversion.ofSource source).diagnostics = [] := by
  constructor
  · intro h
    refine ⟨eq_ofSource_of_convert h, ?_⟩
    cases hd : (Conversion.ofSource source).diagnostics with
    | nil => rfl
    | cons d rest =>
      rw [convert_fatal_of_cons hd] at h
      cases h
  · rintro ⟨rfl, hnone⟩
    rw [convert_fatal_of_nil hnone]

theorem eq_of_convertedText {output : String} (h : convertedText .fatal source = .ok output) :
    output = withSemicolons (tokens source) ∧ (Conversion.ofSource source).diagnostics = [] := by
  unfold convertedText at h
  cases hresult : (convert .fatal none source).result with
  | error failure =>
    rw [hresult] at h
    cases h
  | ok r =>
    rw [hresult] at h
    obtain ⟨rfl, hnone⟩ := convert_fatal_iff.mp hresult
    exact ⟨(Except.ok.inj h).symm, hnone⟩

/-- A text without diagnostics is explicit if nothing is inserted into it. -/
theorem isExplicit_eq (h : (Conversion.ofSource source).diagnostics = []) :
    isExplicit source = .ok (semicolonCount (tokens source) == 0) := by
  rw [isExplicit, convert_fatal_iff.mpr ⟨rfl, h⟩]
  rfl

end Semicolons
