import Semicolons.Proofs.Problem.DetachedBody

/-!
# Groups that are left open

A group that nothing closes is reported at the bracket that opens it, in the words for a parenthesis
of a signature or in those for any bracket, and nothing else is reported there. Only the brace of a
detached body keeps this from being said: it has been reported already, so that it is passed over,
but what is said of it is that it is on a line of its own (`convert_reports_left_open`).
-/

namespace Semicolons

/-- Whether a diagnostic says of a bracket that nothing closes it. -/
def Diagnostic.saysUnclosed (d : Diagnostic) (opener : Token) : Bool :=
  d.message == "unclosed delimiter `" ++ opener.text ++ "`" ||
    d.message == Diagnostic.unclosedParenthesisMessage

section Words

variable (t : Token)

theorem saysUnclosed_unclosed : (Problem.unclosed t).diagnostic.saysUnclosed t = true :=
  Bool.or_eq_true_iff.mpr (Or.inl (beq_self_eq_true _))

theorem saysUnclosed_unclosedParenthesis :
    (Problem.signature (.unclosedParenthesis t)).diagnostic.saysUnclosed t = true :=
  Bool.or_eq_true_iff.mpr (Or.inr (beq_self_eq_true _))

theorem saysUnclosed_detachedBody :
    (Problem.signature (.detachedBody t)).diagnostic.saysUnclosed t = false := by
  have hbrace : "unclosed delimiter `" ++ t.text ++ "`" ≠ Problem.detachedMessage := by
    rw [String.append_assoc]
    exact Problem.append_ne_detachedMessage _ (by decide) (by decide)
  have hparenthesis : Diagnostic.unclosedParenthesisMessage ≠ Problem.detachedMessage := by decide
  exact Bool.or_eq_false_iff.mpr
    ⟨beq_eq_false_iff_ne.mpr hbrace.symm, beq_eq_false_iff_ne.mpr hparenthesis.symm⟩

end Words

section Source

variable {source : String} {t : Token} {p : Problem}

/-- What a problem at a group that is left open can be. -/
theorem cases_of_left (ht : t ∈ leftOpenGroups (tokens source)) (hp : p ∈ problems (tokens source))
    (hspan : p.span = t.span) :
    p = .signature (.unclosedParenthesis t) ∨ p = .unclosed t ∨
      p = .signature (.detachedBody t) := by
  obtain ⟨hvisible, b, hb⟩ := token_of_left ht
  obtain rfl : p.token = t := token_eq_of_place (List.mem_filter.mp hvisible).1 hp hspan
  rcases mem_problems.mp hp with hp | hp
  · obtain ⟨-, -, hnone⟩ := token_of_fault hp
    rw [hnone] at hb
    cases hb
  rcases mem_structuralProblems.mp hp with hp | ⟨t, -, -, rfl⟩
  · rcases mem_reportedProblems.mp hp with ⟨d, hd, rfl⟩ | ⟨d, hd, rfl⟩
    · cases d with
      | unclosedParenthesis t => exact Or.inl rfl
      | detachedBody t => exact Or.inr (Or.inr rfl)
    · obtain ⟨-, b', hb'⟩ := token_of_nesting hd
      rw [hb'] at hb
      cases hb
  · exact Or.inr (Or.inl rfl)

/-- At a group that is left open, one problem is reported, unless its bracket is the brace of a
    detached body. -/
theorem exists_filter_problems (ht : t ∈ leftOpenGroups (tokens source))
    (hbody : ¬ ∃ func, DetachesBody (tokens source) func t) :
    ∃ p, (problems (tokens source)).filter (·.span == t.span) = [p] ∧
      p.diagnostic.saysUnclosed t = true := by
  obtain ⟨p, hp, hspan⟩ := exists_structural_of_left ht
  have hmem : p ∈ problems (tokens source) := mem_problems.mpr (Or.inr hp)
  rw [← hspan]
  rcases cases_of_left ht hmem hspan with rfl | rfl | rfl
  · exact ⟨_, filter_problems_eq_singleton hmem (by simp), saysUnclosed_unclosedParenthesis t⟩
  · exact ⟨_, filter_problems_eq_singleton hmem (by simp), saysUnclosed_unclosed t⟩
  · exact absurd (detachedBody_mem_problems_iff.mp hmem) hbody

end Source

/-- A group that is left open is reported at its bracket once, and nothing else is reported there.
    If the bracket is the brace of a detached body, nothing that is reported there says that it is
    left open. -/
theorem convert_reports_left_open (name : Option String) (source : String) :
    ∃ r : Conversion, convert .ignore name source = ⟨[], .ok r⟩ ∧
      ∀ t ∈ leftOpenGroups (tokens source),
        (¬ (∃ func, DetachesBody (tokens source) func t) ∧
          ∃ d, r.diagnostics.filter (·.span == t.span) = [d] ∧ d.saysUnclosed t = true) ∨
        (∃ func, DetachesBody (tokens source) func t) ∧
          (∃ d ∈ r.diagnostics, d.span = t.span) ∧
          ∀ d ∈ r.diagnostics, d.span = t.span → d.saysUnclosed t = false := by
  refine ⟨Conversion.ofSource source, convert_ignore name source, ?_⟩
  intro t ht
  rw [Conversion.diagnostics_ofSource]
  by_cases hbody : ∃ func, DetachesBody (tokens source) func t
  · refine Or.inr ⟨hbody, ?_, ?_⟩
    · exact ⟨_, List.mem_map_of_mem (detachedBody_mem_problems_iff.mpr hbody), rfl⟩
    · intro d hd hspan
      obtain ⟨func, hfunc⟩ := hbody
      obtain ⟨p, hp, rfl⟩ := List.mem_map.mp hd
      rw [Problem.span_diagnostic] at hspan
      rw [eq_detachedBody_of_place hfunc hp hspan]
      exact saysUnclosed_detachedBody t
  · refine Or.inl ⟨hbody, ?_⟩
    obtain ⟨p, hfilter, hsays⟩ := exists_filter_problems ht hbody
    refine ⟨p.diagnostic, ?_, hsays⟩
    have hplace : ((·.span == t.span) ∘ Problem.diagnostic) =
        fun p : Problem => p.span == t.span := by
      funext p
      rw [Function.comp_apply, Problem.span_diagnostic]
    rw [List.filter_map, hplace, hfilter]
    rfl

/-- The parenthesis of a signature is left open, and so are the brackets behind it. -/
theorem convert_reports_left_open_parenthesis :
    ∃ r : Conversion, convert .ignore none "func f(\n\x7b[" = ⟨[], .ok r⟩ ∧
      ∃ d, r.diagnostics.filter (·.span == ⟨6, 7⟩) = [d] ∧
        d.message = Diagnostic.unclosedParenthesisMessage := by
  obtain ⟨r, hr, hleft⟩ := convert_reports_left_open none "func f(\n\x7b["
  obtain rfl : r = Conversion.ofSource _ := eq_ofSource_of_convert (by rw [hr])
  have ht : (⟨⟨.punctuation .lParen, "(", none⟩, .visible, 3, ⟨6, 7⟩⟩ : Token) ∈
      leftOpenGroups (tokens "func f(\n\x7b[") := by decide
  have hmem : Diagnostic.unclosedParenthesis ⟨6, 7⟩ ∈
      (Conversion.ofSource "func f(\n\x7b[").diagnostics := by decide
  refine ⟨_, hr, ?_⟩
  rcases hleft _ ht with ⟨-, d, hfilter, -⟩ | ⟨-, -, hnone⟩
  · refine ⟨d, hfilter, ?_⟩
    have hd : Diagnostic.unclosedParenthesis ⟨6, 7⟩ ∈ [d] := by
      rw [← hfilter]
      exact List.mem_filter.mpr ⟨hmem, rfl⟩
    rw [← List.mem_singleton.mp hd]
    rfl
  · exact absurd (hnone _ hmem rfl) (by decide)

/-- The brace of a detached body is left open, and the report does not say so. -/
theorem convert_conceals_left_open :
    ¬ ∀ (source : String) (r : Conversion), convert .ignore none source = ⟨[], .ok r⟩ →
      ∀ t ∈ leftOpenGroups (tokens source),
        r.diagnostics.countP (fun d => d.span == t.span && d.saysUnclosed t) = 1 := by
  intro h
  have hcount := h "func f()\n\x7b" _ (convert_ignore none _)
    ⟨⟨.punctuation .lBrace, "\x7b", none⟩, .visible, 6, ⟨9, 10⟩⟩ (by decide)
  revert hcount
  decide

end Semicolons
