import Semicolons.Problem

/-!
# Where problems come from

A problem of a text is the fault of a token, the defect of a signature or of a closing bracket, or
a group that is left open. A group that is left open may go without a problem of its own, but only
where another structural problem is reported at the same place (`exists_structural_of_left`).
-/

namespace Semicolons

/-- The problems that are reported at signatures and closing brackets. -/
def reportedProblems (stream : List Token) : List Problem :=
  (Signature.defects (sites stream)).map .signature ++
    (Nesting.read [] (visibleTokens stream)).1.map .nesting

/-- The groups that are left open. -/
def leftOpenGroups (stream : List Token) : List Token :=
  (Nesting.read [] (visibleTokens stream)).2

section Stream

variable {stream : List Token} {p : Problem}

theorem structuralProblems_eq (stream : List Token) :
    structuralProblems stream = reportedProblems stream ++
      ((leftOpenGroups stream).reverse.filter
        fun t => !((reportedProblems stream).map Problem.span).contains t.span).map .unclosed :=
  rfl

theorem mem_reportedProblems :
    p ∈ reportedProblems stream ↔
      (∃ d ∈ Signature.defects (sites stream), p = .signature d) ∨
        ∃ d ∈ (Nesting.read [] (visibleTokens stream)).1, p = .nesting d := by
  simp [reportedProblems, eq_comm]

theorem mem_structuralProblems :
    p ∈ structuralProblems stream ↔ p ∈ reportedProblems stream ∨
      ∃ t ∈ leftOpenGroups stream,
        (∀ q ∈ reportedProblems stream, q.span ≠ t.span) ∧ p = .unclosed t := by
  have hfilter : ∀ t : Token, (!((reportedProblems stream).map Problem.span).contains t.span) = true ↔
      ∀ q ∈ reportedProblems stream, q.span ≠ t.span := by
    intro t
    simp
  rw [structuralProblems_eq, List.mem_append, List.mem_map]
  constructor
  · rintro (hp | ⟨t, ht, rfl⟩)
    · exact Or.inl hp
    · obtain ⟨hleft, hspan⟩ := List.mem_filter.mp ht
      exact Or.inr ⟨t, List.mem_reverse.mp hleft, (hfilter t).mp hspan, rfl⟩
  · rintro (hp | ⟨t, ht, hspan, rfl⟩)
    · exact Or.inl hp
    · exact Or.inr ⟨t, List.mem_filter.mpr ⟨List.mem_reverse.mpr ht, (hfilter t).mpr hspan⟩, rfl⟩

theorem mem_problems :
    p ∈ problems stream ↔ p ∈ faults stream ∨ p ∈ structuralProblems stream := by
  rw [problems, (Problem.sortByPlace_perm _).mem_iff, List.mem_append]

theorem problems_eq_nil_iff :
    problems stream = [] ↔ faults stream = [] ∧ structuralProblems stream = [] := by
  simp only [List.eq_nil_iff_forall_not_mem, mem_problems, not_or, forall_and]

/-- Where there are no structural problems, signatures have no defects. -/
theorem defects_eq_nil_of_structural (h : structuralProblems stream = []) :
    Signature.defects (sites stream) = [] := by
  rw [structuralProblems_eq, List.append_eq_nil_iff, reportedProblems, List.append_eq_nil_iff] at h
  exact List.map_eq_nil_iff.mp h.1.1

/-- At each group that is left open, a structural problem is reported. -/
theorem exists_structural_of_left {t : Token} (h : t ∈ leftOpenGroups stream) :
    ∃ p ∈ structuralProblems stream, p.span = t.span := by
  by_cases hreported : ∃ q ∈ reportedProblems stream, q.span = t.span
  · obtain ⟨q, hq, hspan⟩ := hreported
    exact ⟨q, mem_structuralProblems.mpr (Or.inl hq), hspan⟩
  · refine ⟨.unclosed t, mem_structuralProblems.mpr (Or.inr ⟨t, h, ?_, rfl⟩), rfl⟩
    intro q hq hspan
    exact hreported ⟨q, hq, hspan⟩

/-- Where there are no structural problems, brackets are read without defects and no group is left
    open. -/
theorem read_eq_nil_of_structural (h : structuralProblems stream = []) :
    Nesting.read [] (visibleTokens stream) = ([], []) := by
  have hnone : ∀ p, p ∉ structuralProblems stream := by simp [h]
  apply Prod.ext
  · apply List.eq_nil_iff_forall_not_mem.mpr
    intro d hd
    apply hnone (.nesting d)
    exact mem_structuralProblems.mpr (Or.inl (mem_reportedProblems.mpr (Or.inr ⟨d, hd, rfl⟩)))
  · apply List.eq_nil_iff_forall_not_mem.mpr
    intro t ht
    obtain ⟨p, hp, -⟩ := exists_structural_of_left ht
    exact hnone p hp

/-- Where brackets are read without defects and no group is left open, every structural problem
    is a defect of a signature. -/
theorem structural_of_read_eq_nil (h : Nesting.read [] (visibleTokens stream) = ([], []))
    (hp : p ∈ structuralProblems stream) :
    ∃ d ∈ Signature.defects (sites stream), p = .signature d := by
  rcases mem_structuralProblems.mp hp with hp | ⟨t, ht, -⟩
  · rcases mem_reportedProblems.mp hp with hd | ⟨d, hd, -⟩
    · exact hd
    · rw [h] at hd
      cases hd
  · rw [leftOpenGroups, h] at ht
    cases ht

end Stream

end Semicolons
