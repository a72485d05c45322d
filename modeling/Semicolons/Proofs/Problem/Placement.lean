import Semicolons.Proofs.Problem.DetachedBody
import Semicolons.Proofs.Problem.Lexical
import Semicolons.Proofs.Token.Position
import Semicolons.Proofs.Token.Tiling

/-!
# Where diagnostics are placed

Every diagnostic is placed at one token of the text (`Diagnostic.IsPlacedIn`), so that it covers
some characters whole, and its position is the one after the characters in front of that token.
Those of the lexical stage are the faults of the tokens, in the order of the tokens, and all others
are at brackets (`convert_places_diagnostics`).
-/

namespace Semicolons

/-- A diagnostic covers just what one token of a text does. -/
structure Diagnostic.IsPlacedIn (source : String) (d : Diagnostic) : Prop where
  token : ∃! t, t ∈ tokens source ∧ t.isEnd = false ∧ t.span = d.span
  nonempty : d.span.start < d.span.stop
  boundary : (⟨d.span.start⟩ : String.Pos.Raw).IsValid source ∧
    (⟨d.span.stop⟩ : String.Pos.Raw).IsValid source
  /-- Its position is found in the text, and is not the end that stands for offsets inside a
      character. -/
  position : ∃ before after, source.toList = before ++ after ∧
    byteLength before = d.span.start ∧
    Position.origin.locate? d.span.start source.toList = some (Position.origin.after before)
  bracket : d.stage = .syntactic →
    ∃ t ∈ tokens source, t.kind.bracket? ≠ none ∧ t.span = d.span
  /-- A parenthesis that is said to be never closed is one. -/
  parenthesis : d = .unclosedParenthesis d.span →
    ∃ t ∈ tokens source, t.isMark .lParen = true ∧ t.span = d.span

namespace Problem

variable {p : Problem}

theorem stage_eq_lexical_iff : p.diagnostic.stage = .lexical ↔ ∃ t f, p = .faulty t f := by
  constructor
  · intro h
    cases p with
    | faulty t f => exact ⟨t, f, rfl⟩
    | signature d => cases d <;> cases h
    | nesting d => cases d <;> cases h
    | unclosed t => cases h
  · rintro ⟨t, f, rfl⟩
    rfl

/-- Only a parenthesis of a signature is said to be unclosed in these words. -/
theorem exists_of_diagnostic_eq {opener : Span}
    (h : p.diagnostic = .unclosedParenthesis opener) :
    ∃ t, p = .signature (.unclosedParenthesis t) := by
  have hhints : p.diagnostic.hints = ["add the missing `)`"] := congrArg Diagnostic.hints h
  cases p with
  | faulty t f => cases hhints
  | signature d =>
    cases d with
    | unclosedParenthesis t => exact ⟨t, rfl⟩
    | detachedBody t =>
      have hne : "put the opening `\x7b` on the same line as the signature" ≠
          "add the missing `)`" := by decide
      exact absurd (List.cons.inj hhints).1 hne
  | nesting d =>
    cases d with
    | mismatched t o =>
      have hchars := congrArg String.toList (List.cons.inj hhints).1
      simp only [String.toList_append] at hchars
      cases hchars
    | unexpected t => cases hhints
  | unclosed t =>
    have hne : "add the matching closing delimiter" ≠ "add the missing `)`" := by decide
    exact absurd (List.cons.inj hhints).1 hne

end Problem

theorem isMark_of_unclosedParenthesis {stream : List Token} {t : Token}
    (h : .signature (.unclosedParenthesis t) ∈ problems stream) : t.isMark .lParen = true := by
  obtain ⟨f, rest, -, -, hd⟩ :=
    Signature.mem_defects_iff_suffix.mp (signature_mem_problems_iff.mp h)
  obtain ⟨s, -, ⟨heq, hmark, -⟩ | ⟨heq, -, -⟩⟩ := Signature.defect?_cases hd
  · obtain rfl := Signature.Defect.unclosedParenthesis.inj heq
    exact hmark
  · cases heq

/-- Of the problems as they are found, those of the lexical stage are the faults of the tokens. -/
theorem filter_lexical_found (stream : List Token) :
    (foundProblems stream).filter (·.diagnostic.stage == .lexical) = faults stream := by
  have hfaults : (faults stream).filter (·.diagnostic.stage == .lexical) = faults stream := by
    rw [List.filter_eq_self]
    intro p hp
    obtain ⟨t, -, f, -, rfl⟩ := mem_faults.mp hp
    rfl
  have hstructural : (structuralProblems stream).filter (·.diagnostic.stage == .lexical) = [] := by
    rw [List.filter_eq_nil_iff]
    intro p hp hlexical
    obtain ⟨t, f, rfl⟩ := Problem.stage_eq_lexical_iff.mp (beq_iff_eq.mp hlexical)
    rcases mem_structuralProblems.mp hp with hp | ⟨_, _, _, heq⟩
    · rcases mem_reportedProblems.mp hp with ⟨_, _, heq⟩ | ⟨_, _, heq⟩ <;> cases heq
    · cases heq
  rw [foundProblems, List.filter_append, hfaults, hstructural, List.append_nil]

section Source

variable {source : String} {p : Problem}

/-- Sorting all problems by their places leaves those of the lexical stage in the order of the
    tokens. -/
theorem filter_lexical_problems (source : String) :
    (problems (tokens source)).filter (·.diagnostic.stage == .lexical) =
      faults (tokens source) := by
  have hsorted : (problems (tokens source)).Pairwise fun p q => p.span.start ≤ q.span.start :=
    Problem.pairwise_sortByPlace _
  have hstarts : (tokens source).Pairwise fun t t' => t.span.start ≤ t'.span.start :=
    (pairwise_start_tokens source).imp Nat.le_of_lt
  have hfaults := List.pairwise_map.mp (hstarts.sublist (sublist_faults (tokens source)))
  have hperm : ((problems (tokens source)).filter (·.diagnostic.stage == .lexical)).Perm
      (faults (tokens source)) := by
    have hfilter := (Problem.sortByPlace_perm (foundProblems (tokens source))).filter
      (·.diagnostic.stage == .lexical)
    rwa [filter_lexical_found] at hfilter
  refine hperm.eq_of_pairwise ?_ (hsorted.filter _) hfaults
  intro p q hp hq hle hge
  exact problem_eq_of_start_eq (List.mem_filter.mp hp).1 (mem_problems.mpr (Or.inl hq))
    (Nat.le_antisymm hle hge)

theorem Problem.isPlacedIn (hp : p ∈ problems (tokens source)) :
    p.diagnostic.IsPlacedIn source := by
  obtain ⟨hmem, hend⟩ := token_of_problem hp
  have hlt := span_lt_of_mem_tokens hmem hend
  have hspan : p.token.span = p.diagnostic.span := p.span_diagnostic.symm
  obtain ⟨before, after, hsource, hstart⟩ := exists_split_of_mem_tokens hmem
  constructor
  case token =>
    refine ⟨p.token, ⟨hmem, ?_, hspan⟩, ?_⟩
    · exact beq_eq_false_iff_ne.mpr
        ((cuts_lexemes source).kind_ne_endOfInput (mem_lexemes_of_mem_tokens hmem hend))
    · rintro t ⟨ht, -, hplace⟩
      exact (eq_of_span_eq hmem ht (hspan.trans hplace.symm) hlt).symm
  case nonempty =>
    rw [← hspan]
    exact hlt
  case boundary =>
    rw [← hspan]
    exact isValid_span hmem
  case position =>
    refine ⟨before, p.token.chars ++ after, hsource, ?_, ?_⟩
    · rw [← hspan, hstart]
    · rw [← hspan, ← hstart, hsource, Position.locate?_eq, textBefore?_append]
      rfl
  case bracket =>
    intro hstage
    rcases mem_problems.mp hp with hfault | hstructural
    · obtain ⟨t, -, f, -, rfl⟩ := mem_faults.mp hfault
      cases hstage
    · obtain ⟨-, x, hx⟩ := token_of_structural hstructural
      exact ⟨p.token, hmem, by simp [hx], hspan⟩
  case parenthesis =>
    intro hunclosed
    obtain ⟨t, rfl⟩ := Problem.exists_of_diagnostic_eq hunclosed
    exact ⟨t, hmem, isMark_of_unclosedParenthesis hp, hspan⟩

theorem isPlacedIn_of_mem_diagnostics {d : Diagnostic}
    (hd : d ∈ (Conversion.ofSource source).diagnostics) : d.IsPlacedIn source := by
  rw [Conversion.diagnostics_ofSource] at hd
  obtain ⟨p, hp, rfl⟩ := List.mem_map.mp hd
  exact Problem.isPlacedIn hp

end Source

/-- Every diagnostic of a text is placed at one token of it, and one that is not about a single
    token at a bracket. The faults of single tokens are told in the order of the tokens. -/
theorem convert_places_diagnostics (name : Option String) (source : String) :
    ∃ r : Conversion, convert .ignore name source = ⟨[], .ok r⟩ ∧
      (∀ d ∈ r.diagnostics, d.IsPlacedIn source) ∧
      r.diagnostics.filter (·.stage == .lexical) = lexicalDiagnostics (tokens source) := by
  refine ⟨Conversion.ofSource source, convert_ignore name source,
    fun d hd => isPlacedIn_of_mem_diagnostics hd, ?_⟩
  rw [Conversion.diagnostics_ofSource, List.filter_map]
  exact congrArg (List.map Problem.diagnostic) (filter_lexical_problems source)

example : (Conversion.ofSource "é)\"x").diagnostics.map (fun d => (d.stage, d.span)) =
    [(.syntactic, ⟨2, 3⟩), (.lexical, ⟨3, 5⟩)] := by
  decide

end Semicolons
