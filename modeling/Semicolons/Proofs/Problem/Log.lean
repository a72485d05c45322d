import Semicolons.Proofs.Position.Order
import Semicolons.Proofs.Problem.Placement

/-!
# Positions in the log

A line of the log begins with the position of what it is about. Since diagnostics are placed at
tokens, these positions do not decrease along the log, and lines that have one position are one line
(`convert_orders_positions`).
-/

namespace Semicolons

/-- How a line of the log begins: with the name of the file, if it is known, and a position. -/
def Position.heading (name : Option String) (p : Position) : String :=
  (name.map (· ++ ":")).getD "" ++ toString p.line ++ ":" ++ toString p.column ++ " "

theorem Diagnostic.oneLine_eq (d : Diagnostic) (name : Option String) (source : List Char) :
    d.oneLine name source =
      (Position.ofOffset source d.span.start).heading name ++ d.message := by
  cases name with
  | none => simp [oneLine, Position.heading]
  | some name => simp [oneLine, Position.heading, String.append_assoc]

/-- Diagnostics that begin further behind have later positions, and those that begin at one place
    have one position. -/
theorem pairwise_position_diagnostics (source : String) :
    (Conversion.ofSource source).diagnostics.Pairwise fun d e =>
      Position.ofOffset source.toList d.span.start ≤
        Position.ofOffset source.toList e.span.start := by
  refine (pairwise_diagnostics source).imp_of_mem ?_
  intro d e hd he hle
  exact (strictMonoOn_ofOffset source).monotoneOn (isPlacedIn_of_mem_diagnostics hd).boundary.1
    (isPlacedIn_of_mem_diagnostics he).boundary.1 hle

/-- A diagnostic is known from its position. -/
theorem diagnostic_eq_of_position_eq {source : String} {d e : Diagnostic}
    (hd : d ∈ (Conversion.ofSource source).diagnostics)
    (he : e ∈ (Conversion.ofSource source).diagnostics)
    (h : Position.ofOffset source.toList d.span.start =
      Position.ofOffset source.toList e.span.start) : d = e := by
  have hstart := (strictMonoOn_ofOffset source).injOn
    (isPlacedIn_of_mem_diagnostics hd).boundary.1 (isPlacedIn_of_mem_diagnostics he).boundary.1 h
  obtain ⟨p, hp, rfl⟩ := List.mem_map.mp hd
  obtain ⟨q, hq, rfl⟩ := List.mem_map.mp he
  rw [Problem.span_diagnostic, Problem.span_diagnostic] at hstart
  rw [problem_eq_of_start_eq hp hq hstart]

/-- Between two characters of a text positions grow with the bytes in front of them. So the tokens
    of a text are told apart by their positions, which grow from each to the next. The positions in
    the lines of the log do not decrease, and each tells what its line is about. -/
theorem convert_orders_positions (name : Option String) (source : String) :
    StrictMonoOn (Position.ofOffset source.toList)
        {offset | (⟨offset⟩ : String.Pos.Raw).IsValid source} ∧
      (tokens source).Pairwise (fun t t' =>
        Position.ofOffset source.toList t.span.start <
          Position.ofOffset source.toList t'.span.start) ∧
      ∃ r : Conversion,
        convert .warn name source =
          ⟨r.diagnostics.map fun d => ⟨.warning,
            (Position.ofOffset source.toList d.span.start).heading name ++ d.message⟩, .ok r⟩ ∧
        r.diagnostics.Pairwise (fun d e =>
          Position.ofOffset source.toList d.span.start ≤
            Position.ofOffset source.toList e.span.start) ∧
        ∀ d ∈ r.diagnostics, ∀ e ∈ r.diagnostics,
          Position.ofOffset source.toList d.span.start =
            Position.ofOffset source.toList e.span.start → d = e := by
  refine ⟨strictMonoOn_ofOffset source, pairwise_position_tokens source,
    Conversion.ofSource source, ?_, pairwise_position_diagnostics source,
    fun d hd e he => diagnostic_eq_of_position_eq hd he⟩
  simp only [← Diagnostic.oneLine_eq]
  exact convert_warn name source

end Semicolons
