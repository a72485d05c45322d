import Semicolons.Proofs.Conversion

/-!
# How problems are reported

The problems of a text are listed by their place, and those at one place in the order in which they
were found (`pairwise_sortByPlace`, `filter_sortByPlace`): the list is the only stable sorting of
what was found. All policies go by this one list. They differ in how much of it they log, and in
whether its first problem stands in the way of a result (`convert_policies`).
-/

namespace Semicolons

namespace Problem

/-- A diagnostic is placed where its problem is. -/
@[simp] theorem span_diagnostic (p : Problem) : p.diagnostic.span = p.span := by
  cases p with
  | faulty t fault => rfl
  | signature defect => cases defect <;> rfl
  | nesting defect => cases defect <;> rfl
  | unclosed t => rfl

theorem mem_insertByPlace {p q : Problem} {found : List Problem} :
    q ∈ p.insertByPlace found ↔ q = p ∨ q ∈ found := by
  rw [(p.insertByPlace_perm found).mem_iff, List.mem_cons]

theorem pairwise_insertByPlace {p : Problem} {found : List Problem}
    (h : found.Pairwise fun a b => a.span.start ≤ b.span.start) :
    (p.insertByPlace found).Pairwise fun a b => a.span.start ≤ b.span.start := by
  induction found with
  | nil => simp [insertByPlace]
  | cons q rest ih =>
    obtain ⟨hq, hrest⟩ := List.pairwise_cons.mp h
    unfold insertByPlace
    by_cases hle : p.span.start ≤ q.span.start
    · rw [if_pos hle]
      refine List.pairwise_cons.mpr ⟨?_, h⟩
      intro r hr
      rcases List.mem_cons.mp hr with rfl | hr
      · exact hle
      · exact Nat.le_trans hle (hq r hr)
    · rw [if_neg hle]
      refine List.pairwise_cons.mpr ⟨?_, ih hrest⟩
      intro r hr
      rcases mem_insertByPlace.mp hr with rfl | hr
      · omega
      · exact hq r hr

/-- Sorted problems lie one behind the other. -/
theorem pairwise_sortByPlace (found : List Problem) :
    (sortByPlace found).Pairwise fun a b => a.span.start ≤ b.span.start := by
  induction found with
  | nil => exact List.Pairwise.nil
  | cons p rest ih => exact pairwise_insertByPlace ih

/-- A problem that is inserted comes before all others at its place. -/
theorem filter_insertByPlace (p : Problem) (found : List Problem) (start : Nat) :
    (p.insertByPlace found).filter (·.span.start == start) =
      (p :: found).filter (·.span.start == start) := by
  induction found with
  | nil => rfl
  | cons q rest ih =>
    unfold insertByPlace
    by_cases hle : p.span.start ≤ q.span.start
    · rw [if_pos hle]
    · -- The two change places, which a filter that lets only one of them pass does not see.
      rw [if_neg hle, List.filter_cons, ih]
      by_cases hp : p.span.start = start
      · have hq : q.span.start ≠ start := by omega
        simp [hp, hq]
      · simp [hp, List.filter_cons]

/-- Sorting keeps the order of the problems at one place. -/
theorem filter_sortByPlace (found : List Problem) (start : Nat) :
    (sortByPlace found).filter (·.span.start == start) =
      found.filter (·.span.start == start) := by
  induction found with
  | nil => rfl
  | cons p rest ih =>
    show (p.insertByPlace (sortByPlace rest)).filter _ = _
    rw [filter_insertByPlace, List.filter_cons, List.filter_cons, ih]

end Problem

/-- The problems of a text as they are found: those of single lexemes first, then those of
    signatures and brackets. -/
def foundProblems (stream : List Token) : List Problem :=
  faults stream ++ structuralProblems stream

theorem pairwise_diagnostics (source : String) :
    (Conversion.ofSource source).diagnostics.Pairwise
      fun d e => d.span.start ≤ e.span.start := by
  show ((problems (tokens source)).map Problem.diagnostic).Pairwise _
  rw [List.pairwise_map]
  apply (Problem.pairwise_sortByPlace _).imp
  intro a b h
  simpa using h

theorem filter_diagnostics (source : String) (start : Nat) :
    (Conversion.ofSource source).diagnostics.filter (·.span.start == start) =
      ((foundProblems (tokens source)).map Problem.diagnostic).filter (·.span.start == start) := by
  show ((problems (tokens source)).map Problem.diagnostic).filter _ = _
  rw [List.filter_map, List.filter_map]
  have hplace : ((·.span.start == start) ∘ Problem.diagnostic) =
      fun p : Problem => p.span.start == start := by
    funext p
    simp
  rw [hplace]
  exact congrArg (List.map Problem.diagnostic) (Problem.filter_sortByPlace _ start)

/-- The policies go by one list of diagnostics, which is sorted by place and keeps the order of
    those at one place. Ignoring logs none of them and warning all of them, both with the same
    result; the fatal policy has that result too if there are none, and otherwise logs the first
    one and fails with it. -/
theorem convert_policies (name : Option String) (source : String) :
    ∃ r : Conversion, convert .ignore name source = ⟨[], .ok r⟩ ∧
      r.diagnostics.Pairwise (fun d e => d.span.start ≤ e.span.start) ∧
      (∀ start, r.diagnostics.filter (·.span.start == start) =
        ((foundProblems (tokens source)).map Problem.diagnostic).filter
          (·.span.start == start)) ∧
      convert .warn name source =
        ⟨r.diagnostics.map fun d => ⟨.warning, d.oneLine name source.toList⟩, .ok r⟩ ∧
      (r.diagnostics = [] → convert .fatal name source = ⟨[], .ok r⟩) ∧
      ∀ d rest, r.diagnostics = d :: rest → convert .fatal name source =
        ⟨[⟨.error, d.oneLine name source.toList⟩], .error (.fatal d)⟩ := by
  exact ⟨Conversion.ofSource source, convert_ignore name source, pairwise_diagnostics source,
    filter_diagnostics source, convert_warn name source, convert_fatal_of_nil,
    fun _ _ => convert_fatal_of_cons⟩

theorem convert_policies_two_problems :
    ∃ r : Conversion, convert .ignore (some "a") ")\n\"x" = ⟨[], .ok r⟩ ∧
      convert .warn (some "a") ")\n\"x" =
        ⟨[⟨.warning, "a:1:0 unexpected closing delimiter `)`"⟩,
          ⟨.warning, "a:2:0 string literal not terminated"⟩], .ok r⟩ ∧
      convert .fatal (some "a") ")\n\"x" =
        ⟨[⟨.error, "a:1:0 unexpected closing delimiter `)`"⟩],
          .error (.fatal (.syntactic "unexpected closing delimiter `)`" ⟨0, 1⟩))⟩ := by
  obtain ⟨r, hignore, -, -, hwarn, -, hfatal⟩ := convert_policies (some "a") ")\n\"x"
  have hr : r.diagnostics = [.syntactic "unexpected closing delimiter `)`" ⟨0, 1⟩,
      .lexical "string literal not terminated" ⟨2, 4⟩] := by
    obtain rfl : r = Conversion.ofSource ")\n\"x" := eq_ofSource_of_convert (by rw [hignore])
    decide
  rw [hr] at hwarn
  exact ⟨r, hignore, hwarn, hfatal _ _ hr⟩

end Semicolons
