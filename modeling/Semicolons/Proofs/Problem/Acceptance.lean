import Semicolons.Proofs.Conversion
import Semicolons.Proofs.Nesting.Word
import Semicolons.Proofs.Problem.Lexical
import Semicolons.Proofs.Problem.Report
import Semicolons.Proofs.Problem.Structural
import Semicolons.Proofs.Signature.Defect
import Semicolons.Proofs.Site.Sequence

/-!
# What it means that a text is accepted

A text without problems has lexemes without faults, and its brackets nest. The other way round,
where that is so every opening bracket has its group (`inside_ne_none_of_nested`), and all that can
be wrong with the text is a function body that begins behind a line feed
(`convert_accepts_nested`).
-/

namespace Semicolons

/-- Where brackets nest, each of them opens a group that is closed. -/
theorem inside_ne_none_of_nested {stream : List Token} {s : Site} {b : Bracket}
    (h : Nested (brackets (visibleTokens stream))) (hs : s ∈ sites stream)
    (hopener : s.kind.bracket? = some (.opening, b)) : s.inside ≠ none := by
  obtain ⟨before, behind, hsplit⟩ := List.append_of_mem hs
  have hpaired : s.inside = inside? s.kind (behind.map Site.kind) := by
    have hall := paired_sites stream
    rw [hsplit] at hall
    exact hall.of_append.1
  rw [← map_token_sites, hsplit, List.map_append, List.map_cons] at h
  obtain ⟨inner, closer, after, hbehind, hinner, hcloser⟩ :=
    Nesting.exists_closer_of_nested h hopener
  have hkinds : behind.map Site.kind = inner.map (·.kind) ++ closer.kind :: after.map (·.kind) := by
    calc
      behind.map Site.kind = (behind.map Site.token).map (·.kind) := by
        rw [List.map_map]
        rfl
      _ = inner.map (·.kind) ++ closer.kind :: after.map (·.kind) := by
        rw [hbehind, List.map_append, List.map_cons]
  have hinside : inside? s.kind (behind.map Site.kind) = some inner.length := by
    rw [hkinds]
    exact inside?_of_nested hinner hopener hcloser _
  rw [hpaired, hinside]
  exact Option.some_ne_none _

/-- Where brackets nest, a signature can only have a body that is detached from it. -/
theorem exists_detachedBody_of_nested {stream : List Token} {d : Signature.Defect}
    (h : Nested (brackets (visibleTokens stream))) (hd : d ∈ Signature.defects (sites stream)) :
    ∃ s ∈ sites stream, d = .detachedBody s.token ∧ s.isMark .lBrace = true ∧
      s.followsLineFeed = true := by
  obtain ⟨before, func, rest, hsplit, -, hdefect⟩ := Signature.mem_defects.mp hd
  obtain ⟨s, hs, hcases⟩ := Signature.defect?_cases hdefect
  have hmem : s ∈ sites stream := by
    rw [hsplit]
    exact List.mem_append_right _ (List.mem_cons_of_mem _ hs)
  rcases hcases with ⟨-, hmark, hinside⟩ | hbody
  · have hopener : s.kind.bracket? = some (.opening, .round) :=
      isMark_opening_iff.mp hmark
    exact absurd hinside (inside_ne_none_of_nested h hmem hopener)
  · exact ⟨s, hmem, hbody⟩

theorem faults_eq_nil_iff {stream : List Token} :
    faults stream = [] ↔ lexicalDiagnostics stream = [] := by
  rw [lexicalDiagnostics, List.map_eq_nil_iff]

/-- An accepted text has no lexical problems, and its brackets nest. The problems of a text of
    which that is true are all of one kind: a function body begins behind a line feed. -/
theorem convert_accepts_nested (name : Option String) (source : String) :
    (∀ r, (convert .fatal name source).result = .ok r →
      lexicalDiagnostics (tokens source) = [] ∧
        Nested (brackets (visibleTokens (tokens source)))) ∧
    (lexicalDiagnostics (tokens source) = [] →
      Nested (brackets (visibleTokens (tokens source))) →
        ∃ r, (convert .ignore name source).result = .ok r ∧ ∀ d ∈ r.diagnostics,
          d.message = "unexpected newline before function body" ∧
            ∃ before gap brace after, tokens source = before ++ (gap ++ brace :: after) ∧
              (∀ g ∈ gap, g.channel = .hidden) ∧ (∃ g ∈ gap, '\n' ∈ g.chars) ∧
              brace.kind = .punctuation .lBrace ∧ d.span = brace.span) := by
  constructor
  · intro r h
    have hnone : problems (tokens source) = [] :=
      List.map_eq_nil_iff.mp (convert_fatal_iff.mp h).2
    obtain ⟨hfaults, hstructural⟩ := problems_eq_nil_iff.mp hnone
    exact ⟨faults_eq_nil_iff.mp hfaults,
      Nesting.read_eq_nil_iff.mp (read_eq_nil_of_structural hstructural)⟩
  · intro hlexical hnested
    refine ⟨_, convert_result_of_ne_fatal (by decide), ?_⟩
    intro d hd
    obtain ⟨p, hp, rfl⟩ := List.mem_map.mp hd
    have hstructural : p ∈ structuralProblems (tokens source) := by
      rcases mem_problems.mp hp with hp | hp
      · rw [faults_eq_nil_iff.mpr hlexical] at hp
        cases hp
      · exact hp
    obtain ⟨defect, hdefect, rfl⟩ :=
      structural_of_read_eq_nil (Nesting.read_eq_nil_iff.mpr hnested) hstructural
    obtain ⟨s, hs, rfl, hmark, hfeed⟩ := exists_detachedBody_of_nested hnested hdefect
    obtain ⟨before, gap, after, hsplit, hgap, hline⟩ := exists_gap_of_mem_sites hs
    rw [hfeed] at hline
    obtain ⟨g, hg, hgline⟩ := List.any_eq_true.mp hline.symm
    refine ⟨rfl, before, gap, s.token, after, hsplit, ?_, ⟨g, hg, ?_⟩, ?_, rfl⟩
    · intro g hg
      simpa [Token.isHidden] using hgap g hg
    · simpa [Lexeme.hasLineFeed] using hgline
    · simpa [Site.isMark, Token.isMark] using hmark

theorem convert_accepts_nested_detached :
    (convert .fatal none "f(x)").result = .ok ⟨"f(x);", 1, []⟩ ∧
      Nested (brackets (visibleTokens (tokens "f(x)"))) ∧
      ∃ r, (convert .ignore none "func f()\n\x7b\x7d").result = .ok r ∧
        r.diagnostics.map Diagnostic.span = [⟨9, 10⟩] ∧
        ∀ d ∈ r.diagnostics, d.message = "unexpected newline before function body" := by
  have hcall : (convert .fatal none "f(x)").result = .ok ⟨"f(x);", 1, []⟩ := rfl
  obtain ⟨-, hnested⟩ := (convert_accepts_nested none "f(x)").1 _ hcall
  refine ⟨hcall, hnested, ?_⟩
  have hlexical : lexicalDiagnostics (tokens "func f()\n\x7b\x7d") = [] := by decide
  have hword : brackets (visibleTokens (tokens "func f()\n\x7b\x7d")) =
      [(.opening, .round), (.closing, .round), (.opening, .curly), (.closing, .curly)] := by
    decide
  have hbody : Nested (brackets (visibleTokens (tokens "func f()\n\x7b\x7d"))) := by
    rw [hword]
    exact .group .nil (.group .nil .nil)
  obtain ⟨r, hr, hmessages⟩ :=
    (convert_accepts_nested none "func f()\n\x7b\x7d").2 hlexical hbody
  refine ⟨r, hr, ?_, fun d hd => (hmessages d hd).1⟩
  rw [eq_ofSource_of_convert hr]
  decide

end Semicolons
