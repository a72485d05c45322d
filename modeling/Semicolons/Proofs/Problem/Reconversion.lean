import Semicolons.Proofs.Insertion.Confluence
import Semicolons.Proofs.Problem.Report
import Semicolons.Proofs.Problem.Structural
import Semicolons.Proofs.Signature.Punctuated

/-!
# Problems of a converted text

The written semicolons move the problems of a text and may hide some of them, but they make no new
one: each problem of a converted text lies where a problem of its source lies
(`exists_problem_of_converted`). A text that is accepted is therefore accepted again after its
conversion, and then all of its semicolons are written out (`convert_again_invents_nothing`).
-/

namespace Semicolons

/-- In lists whose items correspond, each item of the second one has its counterpart. -/
theorem exists_of_mem_forall₂ {α β : Type} {R : α → β → Prop} {l : List α} {l' : List β} {b : β}
    (h : List.Forall₂ R l l') (hb : b ∈ l') : ∃ a ∈ l, R a b := by
  induction h with
  | nil => cases hb
  | @cons a _ _ _ hab _ ih =>
    rcases List.mem_cons.mp hb with rfl | hb
    · exact ⟨a, List.mem_cons_self, hab⟩
    · obtain ⟨a', ha', hab⟩ := ih hb
      exact ⟨a', List.mem_cons_of_mem a ha', hab⟩

variable {source : String} {p' : Problem}

/-- The lexemes of a converted text have the faults that they had. -/
theorem exists_fault_of_converted (h : p' ∈ faults (tokens (withSemicolons (tokens source)))) :
    ∃ p ∈ faults (tokens source), p'.span.start = placeInOutput source p.span.start := by
  have hd : p'.diagnostic ∈ lexicalDiagnostics (tokens (withSemicolons (tokens source))) :=
    List.mem_map_of_mem h
  rw [lexicalDiagnostics_withSemicolons] at hd
  obtain ⟨d, hd, hmoved⟩ := List.mem_map.mp hd
  obtain ⟨p, hp, rfl⟩ := List.mem_map.mp hd
  refine ⟨p, hp, ?_⟩
  have hstart := congrArg (fun d : Diagnostic => d.span.start) hmoved
  simp only [Diagnostic.moved, Problem.span_diagnostic] at hstart
  rw [placeInOutput, card_filter_insertionPoints, ← card_filter_receivers, hstart]

/-- What is reported at signatures and closing brackets of a converted text is reported in its
    source. -/
theorem exists_reported_of_converted
    (h : p' ∈ reportedProblems (tokens (withSemicolons (tokens source)))) :
    ∃ p ∈ reportedProblems (tokens source), p.token.MovedTo (placeInOutput source) p'.token := by
  have hsites := punctuates_sites source
  rcases mem_reportedProblems.mp h with ⟨d', hd', rfl⟩ | ⟨d', hd', rfl⟩
  · obtain ⟨d, hd, hmoved⟩ := hsites.exists_defect hd'
    exact ⟨.signature d, mem_reportedProblems.mpr (Or.inl ⟨d, hd, rfl⟩), hmoved⟩
  · have hread := (hsites.read .nil).1
    rw [map_token_sites, map_token_sites] at hread
    obtain ⟨d, hd, hmoved⟩ := exists_of_mem_forall₂ hread hd'
    exact ⟨.nesting d, mem_reportedProblems.mpr (Or.inr ⟨d, hd, rfl⟩), hmoved⟩

/-- A group that a converted text leaves open is left open by its source. -/
theorem exists_leftOpen_of_converted {t' : Token}
    (h : t' ∈ leftOpenGroups (tokens (withSemicolons (tokens source)))) :
    ∃ t ∈ leftOpenGroups (tokens source), t.MovedTo (placeInOutput source) t' := by
  have hleft := ((punctuates_sites source).read .nil).2
  rw [map_token_sites, map_token_sites] at hleft
  exact exists_of_mem_forall₂ hleft h

/-- Each problem of a converted text lies where a problem of its source lies. A group that is left
    open may have been reported under another name there. -/
theorem exists_problem_of_converted
    (h : p' ∈ problems (tokens (withSemicolons (tokens source)))) :
    ∃ p ∈ problems (tokens source), p'.span.start = placeInOutput source p.span.start := by
  rcases mem_problems.mp h with hfault | hstructural
  · obtain ⟨p, hp, hstart⟩ := exists_fault_of_converted hfault
    exact ⟨p, mem_problems.mpr (Or.inl hp), hstart⟩
  · rcases mem_structuralProblems.mp hstructural with hreported | ⟨t', ht', -, rfl⟩
    · obtain ⟨p, hp, hmoved⟩ := exists_reported_of_converted hreported
      exact ⟨p, mem_problems.mpr (Or.inr (mem_structuralProblems.mpr (Or.inl hp))), hmoved.2⟩
    · obtain ⟨t, ht, hmoved⟩ := exists_leftOpen_of_converted ht'
      obtain ⟨p, hp, hspan⟩ := exists_structural_of_left ht
      refine ⟨p, mem_problems.mpr (Or.inr hp), ?_⟩
      rw [hspan]
      exact hmoved.2

/-- The conversion of a text without problems has none either. -/
theorem diagnostics_withSemicolons (h : (Conversion.ofSource source).diagnostics = []) :
    (Conversion.ofSource (withSemicolons (tokens source))).diagnostics = [] := by
  rw [Conversion.diagnostics_ofSource, List.map_eq_nil_iff] at h ⊢
  apply List.eq_nil_iff_forall_not_mem.mpr
  intro p' hp'
  obtain ⟨p, hp, -⟩ := exists_problem_of_converted hp'
  rw [h] at hp
  cases hp

/-- Nothing more is to be inserted into a converted text. -/
theorem semicolonCount_withSemicolons (source : String) :
    semicolonCount (tokens (withSemicolons (tokens source))) = 0 := by
  rw [withSemicolons_eq_insertSemicolons,
    semicolonCount_insertSemicolons (Finset.Subset.refl _), Nat.sub_self]

/-- Converting a converted text reports only what was reported of its source, at the places to
    which the written semicolons have moved it. So what has been converted without a problem has
    all of its semicolons written out. -/
theorem convert_again_invents_nothing (name : Option String) (source : String) :
    (∃ r r', (convert .ignore name source).result = .ok r ∧
      r.output = insertSemicolons (insertionPoints (tokens source)) source ∧
      (convert .ignore name r.output).result = .ok r' ∧
      ∀ d' ∈ r'.diagnostics, ∃ d ∈ r.diagnostics,
        d'.span.start = placeInOutput source d.span.start) ∧
    ∀ output, convertedText .fatal source = .ok output → isExplicit output = .ok true := by
  have houtput : (Conversion.ofSource source).output = withSemicolons (tokens source) := rfl
  constructor
  · refine ⟨Conversion.ofSource source, Conversion.ofSource (withSemicolons (tokens source)),
      convert_result_of_ne_fatal (by decide), withSemicolons_eq_insertSemicolons source, ?_, ?_⟩
    · rw [houtput]
      exact convert_result_of_ne_fatal (by decide)
    · intro d' hd'
      rw [Conversion.diagnostics_ofSource] at hd'
      obtain ⟨p', hp', rfl⟩ := List.mem_map.mp hd'
      obtain ⟨p, hp, hstart⟩ := exists_problem_of_converted hp'
      refine ⟨p.diagnostic, List.mem_map_of_mem hp, ?_⟩
      rw [Problem.span_diagnostic, Problem.span_diagnostic, hstart]
  · intro output h
    obtain ⟨rfl, hnone⟩ := eq_of_convertedText h
    rw [isExplicit_eq (diagnostics_withSemicolons hnone), semicolonCount_withSemicolons]
    rfl

theorem convert_again_stray_closer :
    (∃ r', (convert .ignore none "x;\n);").result = .ok r' ∧
      r'.diagnostics.map (·.span) = [⟨3, 4⟩] ∧
      ∀ d' ∈ r'.diagnostics, d'.span.start = placeInOutput "x\n)" 2) ∧
    convertedText .fatal "x\n" = .ok "x;\n" ∧ isExplicit "x;\n" = .ok true := by
  have hpoints : insertionPoints (tokens "x\n)") = {1, 3} := by decide
  have houtput : insertSemicolons {1, 3} "x\n)" = "x;\n);" := by decide
  have hspans : (Conversion.ofSource "x\n)").diagnostics.map (·.span) = [⟨2, 3⟩] := by decide
  obtain ⟨⟨r, r', hr, hr', hagain, hmoved⟩, -⟩ := convert_again_invents_nothing none "x\n)"
  rw [hpoints, houtput] at hr'
  rw [hr'] at hagain
  rw [eq_ofSource_of_convert hr] at hmoved
  refine ⟨⟨r', hagain, ?_, ?_⟩, rfl, ?_⟩
  · rw [eq_ofSource_of_convert hagain]
    decide
  · intro d' hd'
    obtain ⟨d, hd, hstart⟩ := hmoved d' hd'
    have hspan : d.span ∈ (Conversion.ofSource "x\n)").diagnostics.map (·.span) :=
      List.mem_map_of_mem hd
    rw [hspans, List.mem_singleton] at hspan
    rw [hstart, hspan]
  · exact (convert_again_invents_nothing none "x\n").2 "x;\n" rfl

end Semicolons
