import Semicolons.Proofs.Nesting.Reading
import Semicolons.Proofs.Problem.Report
import Semicolons.Proofs.Problem.Structural
import Semicolons.Proofs.Signature.Backward
import Semicolons.Proofs.Token.Layout

/-!
# The tokens that problems are about

Each problem is about one token of the text, and its place tells which (`token_eq_of_span_eq`). The
fault of a token is never about a bracket (`token_of_fault`), while all structural problems are:
those of signatures and of groups that are left open are about brackets that open, those of nesting
about brackets that close.
-/

namespace Semicolons

section Stream

variable {stream : List Token} {p : Problem}

theorem mem_faults : p ∈ faults stream ↔ ∃ t ∈ stream, ∃ f, t.fault = some f ∧ p = .faulty t f := by
  simp only [faults, List.mem_filterMap, Option.map_eq_some_iff, @eq_comm _ p]

/-- The problems of signatures are their defects. -/
theorem signature_mem_problems_iff {d : Signature.Defect} :
    .signature d ∈ problems stream ↔ d ∈ Signature.defects (sites stream) := by
  constructor
  · intro h
    rcases mem_problems.mp h with h | h
    · obtain ⟨_, _, _, _, heq⟩ := mem_faults.mp h
      cases heq
    rcases mem_structuralProblems.mp h with h | ⟨_, _, _, heq⟩
    · rcases mem_reportedProblems.mp h with ⟨d, hd, heq⟩ | ⟨_, _, heq⟩
      · obtain rfl := Problem.signature.inj heq
        exact hd
      · cases heq
    · cases heq
  · intro hd
    have hreported := mem_reportedProblems.mpr (Or.inl ⟨d, hd, rfl⟩)
    exact mem_problems.mpr (Or.inr (mem_structuralProblems.mpr (Or.inl hreported)))

theorem sublist_faults (stream : List Token) :
    ((faults stream).map Problem.token).Sublist stream := by
  induction stream with
  | nil => exact List.Sublist.refl []
  | cons t stream ih =>
    cases hf : t.fault with
    | none =>
      have hnone : faults (t :: stream) = faults stream := by simp [faults, hf]
      rw [hnone]
      exact ih.cons t
    | some f =>
      have hsome : faults (t :: stream) = .faulty t f :: faults stream := by simp [faults, hf]
      rw [hsome]
      exact ih.cons_cons t

theorem ne_endOfInput_of_bracket {t : Token} {x : Side × Bracket}
    (hx : t.kind.bracket? = some x) : t.toLexeme ≠ .endOfInput := by
  intro hend
  have hkind : t.kind = .endOfInput := congrArg Lexeme.kind hend
  rw [hkind] at hx
  cases hx

theorem token_of_signature {d : Signature.Defect} (h : d ∈ Signature.defects (sites stream)) :
    (Problem.signature d).token ∈ visibleTokens stream ∧
      ∃ b, (Problem.signature d).token.kind.bracket? = some (.opening, b) := by
  obtain ⟨f, rest, hsuffix, -, hd⟩ := Signature.mem_defects_iff_suffix.mp h
  obtain ⟨s, hs, hcase⟩ := Signature.defect?_cases hd
  have hmem : s.token ∈ visibleTokens stream :=
    token_mem_visibleTokens (hsuffix.subset (List.mem_cons_of_mem f hs))
  rcases hcase with ⟨rfl, hmark, -⟩ | ⟨rfl, hmark, -⟩
  · exact ⟨hmem, .round, Signature.bracket?_of_lParen hmark⟩
  · refine ⟨hmem, .curly, ?_⟩
    show s.kind.bracket? = _
    rw [Signature.kind_eq_of_isMark hmark]
    rfl

/-- A defect of nesting is about the bracket that closes. -/
theorem token_nesting (d : Nesting.Defect) : (Problem.nesting d).token = d.closer := by
  cases d <;> rfl

theorem token_of_nesting {d : Nesting.Defect} (h : d ∈ (Nesting.read [] (visibleTokens stream)).1) :
    (Problem.nesting d).token ∈ visibleTokens stream ∧
      ∃ b, (Problem.nesting d).token.kind.bracket? = some (.closing, b) := by
  rw [token_nesting]
  exact ⟨(Nesting.sublist_closers [] _).subset (List.mem_map_of_mem h),
    Nesting.bracket?_of_mem_closers h⟩

theorem token_of_left {t : Token} (h : t ∈ leftOpenGroups stream) :
    t ∈ visibleTokens stream ∧ ∃ b, t.kind.bracket? = some (.opening, b) := by
  refine ⟨?_, Nesting.bracket?_of_mem_left h (by simp)⟩
  have hsublist := Nesting.sublist_left [] (visibleTokens stream)
  exact hsublist.subset (List.mem_reverse.mpr h)

/-- A structural problem is about a bracket. -/
theorem token_of_structural (h : p ∈ structuralProblems stream) :
    p.token ∈ visibleTokens stream ∧ ∃ x, p.token.kind.bracket? = some x := by
  rcases mem_structuralProblems.mp h with h | ⟨t, ht, -, rfl⟩
  · rcases mem_reportedProblems.mp h with ⟨d, hd, rfl⟩ | ⟨d, hd, rfl⟩
    · obtain ⟨hmem, b, hb⟩ := token_of_signature hd
      exact ⟨hmem, _, hb⟩
    · obtain ⟨hmem, b, hb⟩ := token_of_nesting hd
      exact ⟨hmem, _, hb⟩
  · obtain ⟨hmem, b, hb⟩ := token_of_left ht
    exact ⟨hmem, _, hb⟩

end Stream

section Source

variable {source : String} {p q : Problem}

/-- A faulty token is no bracket. -/
theorem token_of_fault (h : p ∈ faults (tokens source)) :
    p.token ∈ tokens source ∧ p.token.toLexeme ≠ .endOfInput ∧ p.token.kind.bracket? = none := by
  obtain ⟨t, ht, f, hf, rfl⟩ := mem_faults.mp h
  have hend : t.toLexeme ≠ .endOfInput := Lexeme.ne_endOfInput_of_fault hf
  refine ⟨ht, hend, ?_⟩
  obtain ⟨phase, c, taken, hfinish⟩ :=
    (cuts_lexemes source).exists_finish (mem_lexemes_of_mem_tokens ht hend)
  have hfault : (Lexeme.finish phase (c :: taken).reverse).fault = some f := by
    rw [← hfinish]
    exact hf
  show t.toLexeme.kind.bracket? = none
  rw [hfinish]
  cases phase with
  | quoted quote => cases quote <;> rfl
  | escape quote => cases quote <;> rfl
  | commentSlash | comment | commentStar | raw | stray => rfl
  | _ => cases hfault

/-- A problem is about a token of the text, and not about its end. -/
theorem token_of_found (h : p ∈ foundProblems (tokens source)) :
    p.token ∈ tokens source ∧ p.token.toLexeme ≠ .endOfInput := by
  rcases List.mem_append.mp h with h | h
  · obtain ⟨hmem, hend, -⟩ := token_of_fault h
    exact ⟨hmem, hend⟩
  · obtain ⟨hmem, x, hx⟩ := token_of_structural h
    exact ⟨(List.mem_filter.mp hmem).1, ne_endOfInput_of_bracket hx⟩

theorem token_of_problem (h : p ∈ problems (tokens source)) :
    p.token ∈ tokens source ∧ p.token.toLexeme ≠ .endOfInput :=
  token_of_found ((Problem.sortByPlace_perm _).mem_iff.mp h)

/-- The place of a problem tells which token it is about. -/
theorem token_eq_of_span_eq (hp : p ∈ foundProblems (tokens source))
    (hq : q ∈ foundProblems (tokens source)) (hspan : p.span = q.span) : p.token = q.token := by
  obtain ⟨hpmem, hpend⟩ := token_of_found hp
  obtain ⟨hqmem, -⟩ := token_of_found hq
  exact eq_of_span_eq hpmem hqmem hspan (span_lt_of_mem_tokens hpmem hpend)

end Source

end Semicolons
