import Semicolons.Proofs.Problem.Mapped
import Semicolons.Proofs.Problem.Tokens

/-!
# What is reported of tokens

Apart from its hints, a diagnostic tells the fault of a token or the text of a bracket, and where it
begins. The outline of a token keeps that, and nothing that problems are found by is lost with the
rest. So where the tokens of two texts have the same outlines, the same is reported of both texts
(`reports_of_outline`).
-/

namespace Semicolons

/-- What a token is read by and reported by, `n` bytes further on. The end of the input, of which
    nothing is reported, stands nowhere. -/
def Token.outline (n : Nat) (t : Token) : Token :=
  { t with
    text := if t.fault.isSome then "" else t.text
    index := 0
    span := if t.kind = .endOfInput then ⟨0, 0⟩ else ⟨t.span.start + n, 0⟩ }

/-- A site with the outline of its token. Where the end of the input stands makes no difference. -/
def Site.outline (n : Nat) (s : Site) : Site :=
  { s with
    token := s.token.outline n
    followsLineFeed := s.followsLineFeed && !s.token.isEnd }

theorem keepsSignatures_outline (n : Nat) : KeepsSignatures (Token.outline n) (Site.outline n) where
  token _ := rfl
  kind _ := rfl
  inside _ := rfl
  followsLineFeed s hs := by
    have hend : s.token.isEnd = false := beq_eq_false_iff_ne.mpr hs
    show (s.followsLineFeed && !s.token.isEnd) = s.followsLineFeed
    rw [hend, Bool.not_false, Bool.and_true]

/-- Outlines of sites tell the defects of signatures, with outlines in the place of tokens. -/
theorem map_defects_outline (n : Nat) (ss : List Site) :
    (Signature.defects ss).map (Signature.Defect.map (Token.outline n)) =
      Signature.defects (ss.map (Site.outline n)) :=
  (Signature.defects_map (keepsSignatures_outline n) ss).symm

section Source

variable {source source' : String} {n : Nat}

theorem kind_ne_of_mem_tokens {t : Token} (ht : t ∈ tokens source)
    (hend : t.toLexeme ≠ .endOfInput) : t.kind ≠ .endOfInput :=
  (cuts_lexemes source).kind_ne_endOfInput (mem_lexemes_of_mem_tokens ht hend)

theorem span_outline {t : Token} (ht : t ∈ tokens source) (hend : t.toLexeme ≠ .endOfInput) :
    (t.outline n).span = ⟨t.span.start + n, 0⟩ :=
  if_neg (kind_ne_of_mem_tokens ht hend)

/-- Outlines keep problems apart and in order. -/
theorem keepsPlaces_outline (n : Nat) (source : String) :
    KeepsPlaces (Token.outline n) (tokens source) where
  span := by
    intro p hp t ht
    obtain ⟨hmem, hend⟩ := token_of_found hp
    obtain ⟨hvisible, b, hb⟩ := token_of_left ht
    have hmem' := (List.mem_filter.mp hvisible).1
    have hend' := ne_endOfInput_of_bracket hb
    rw [span_outline hmem hend, span_outline hmem' hend']
    constructor
    · intro hspan
      have hstart : p.token.span.start = t.span.start :=
        Nat.add_right_cancel (congrArg Span.start hspan)
      rw [eq_of_start_eq hmem hmem' hstart (span_lt_of_mem_tokens hmem hend)
        (span_lt_of_mem_tokens hmem' hend')]
    · intro hspan
      rw [hspan]
  start := by
    intro p hp q hq
    obtain ⟨hmem, hend⟩ := token_of_found hp
    obtain ⟨hmem', hend'⟩ := token_of_found hq
    rw [span_outline hmem hend, span_outline hmem' hend']
    exact Nat.add_le_add_iff_right

/-- Of the outline, the same is reported as of the token. -/
theorem report_outline {p : Problem} (hp : p ∈ problems (tokens source)) :
    let d := (p.map (Token.outline n)).diagnostic
    d.stage = p.diagnostic.stage ∧ d.message = p.diagnostic.message ∧
      d.span.start = p.diagnostic.span.start + n := by
  have hfound : p ∈ foundProblems (tokens source) := (Problem.sortByPlace_perm _).mem_iff.mp hp
  have hwords : (∃ t fault, p = .faulty t fault) ∨
      (p.token.outline n).text = p.token.text := by
    rcases List.mem_append.mp hfound with hfault | hstructural
    · obtain ⟨t, -, fault, -, rfl⟩ := mem_faults.mp hfault
      exact Or.inl ⟨t, fault, rfl⟩
    · right
      obtain ⟨hvisible, x, hx⟩ := token_of_structural hstructural
      have hmem := (List.mem_filter.mp hvisible).1
      have hnone : p.token.fault = none := by
        cases hf : p.token.fault with
        | none => rfl
        | some fault =>
          obtain ⟨-, -, hbracket⟩ := token_of_fault (mem_faults.mpr ⟨_, hmem, fault, hf, rfl⟩)
          rw [show (Problem.faulty p.token fault).token = p.token from rfl, hx] at hbracket
          cases hbracket
      simp [Token.outline, hnone]
  obtain ⟨hstage, hmessage⟩ := Problem.wording_map hwords
  obtain ⟨hmem, hend⟩ := token_of_found hfound
  refine ⟨hstage, hmessage, ?_⟩
  rw [Problem.span_diagnostic, Problem.span_diagnostic, Problem.span, Problem.span,
    Problem.token_map, span_outline hmem hend]

theorem reports_eq (n : Nat) (source : String) :
    ((Conversion.ofSource source).diagnostics.map fun d =>
        (d.stage, d.message, d.span.start + n)) =
      ((problems (tokens source)).map (Problem.map (Token.outline n))).map fun p =>
        (p.diagnostic.stage, p.diagnostic.message, p.diagnostic.span.start) := by
  rw [Conversion.diagnostics_ofSource, List.map_map, List.map_map]
  apply List.map_congr_left
  intro p hp
  obtain ⟨hstage, hmessage, hstart⟩ := report_outline (n := n) hp
  simp only [Function.comp_apply, hstage, hmessage, hstart]

/-- Of texts whose tokens have the same outlines, with those of one text `n` bytes further on, the
    same is reported, `n` bytes further on. -/
theorem reports_of_outline
    (hfaults : (faults (tokens source')).map (Problem.map (Token.outline 0)) =
      (faults (tokens source)).map (Problem.map (Token.outline n)))
    (hdefects : (Signature.defects (sites (tokens source'))).map
        (Signature.Defect.map (Token.outline 0)) =
      (Signature.defects (sites (tokens source))).map (Signature.Defect.map (Token.outline n)))
    (hvisible : (visibleTokens (tokens source')).map (Token.outline 0) =
      (visibleTokens (tokens source)).map (Token.outline n)) :
    ((Conversion.ofSource source').diagnostics.map fun d => (d.stage, d.message, d.span.start)) =
      (Conversion.ofSource source).diagnostics.map fun d =>
        (d.stage, d.message, d.span.start + n) := by
  have hkind : ∀ n t, (Token.outline n t).kind = t.kind := fun _ _ => rfl
  have hproblems := problems_alike (hkind n) (hkind 0) hfaults hdefects hvisible
    (keepsPlaces_outline n source) (keepsPlaces_outline 0 source')
  rw [reports_eq n source, ← hproblems]
  exact reports_eq 0 source'

end Source

end Semicolons
