import Semicolons.Proofs.Problem.Tokens

/-!
# Repeated problems

Problems are about tokens, and hardly ever are two of them about one token: a token has one fault, a
closing bracket is read once, a group that is left open is passed over where its bracket has been
reported already, and a parenthesis belongs to one signature. The brace of a body is the exception.
The result of a signature may end with another signature, and the body is behind both of them; if it
is on a line of its own, both are reported, in the same words. So a diagnostic is repeated exactly
where two `func`s share a detached body (`convert_repeats_shared_bodies`).
-/

namespace Semicolons

/-- The brace begins the body of the `func`, on a line of its own. -/
def DetachesBody (stream : List Token) (func brace : Token) : Prop :=
  ∃ f rest, f :: rest <:+ sites stream ∧ f.kind = .keyword .func ∧ f.token = func ∧
    Signature.defect? rest = some (.detachedBody brace)

/-- Two `func`s have their body detached by one brace. -/
def SharesBody (stream : List Token) (brace : Token) : Prop :=
  ∃ func func', func ≠ func' ∧ DetachesBody stream func brace ∧ DetachesBody stream func' brace

/-- At one token there is at most one problem, unless two `func`s have their body detached there. -/
def RepeatsBody (stream : List Token) (p q : Problem) : Prop :=
  p.token = q.token →
    p = q ∧ ∃ brace, p = .signature (.detachedBody brace) ∧ SharesBody stream brace

section Stream

variable {stream : List Token} {p q : Problem}

theorem repeatsBody_of_ne (h : p.token ≠ q.token) : RepeatsBody stream p q :=
  fun htoken => absurd htoken h

theorem repeatsBody_of_bracket?_ne (h : p.token.kind.bracket? ≠ q.token.kind.bracket?) :
    RepeatsBody stream p q :=
  repeatsBody_of_ne fun htoken => h (by rw [htoken])

theorem pairwise_of_nodup {found : List Problem} (h : (found.map Problem.token).Nodup) :
    found.Pairwise (RepeatsBody stream) :=
  (List.pairwise_map.mp h).imp repeatsBody_of_ne

/-- Where no token occurs twice, signatures of different `func`s have defects at different tokens,
    unless they share a detached body. -/
theorem pairwise_signature (hnodup : stream.Nodup) :
    ((Signature.defects (sites stream)).map Problem.signature).Pairwise (RepeatsBody stream) := by
  have hsites : ((sites stream).map Site.token).Nodup := nodup_map_token_sites hnodup
  rw [List.pairwise_map, Signature.pairwise_defects_iff]
  intro f rest f' rest' d d' hf hin hkind hkind' hd hd' htoken
  have hf' : f' :: rest' <:+ sites stream := hin.trans ((List.suffix_cons f rest).trans hf)
  rcases Signature.kind_of_defect? hd with ⟨t, rfl, ht⟩ | ⟨t, rfl, ht⟩ <;>
    rcases Signature.kind_of_defect? hd' with ⟨t', rfl, ht'⟩ | ⟨t', rfl, ht'⟩ <;>
    obtain rfl : t = t' := htoken
  · have heq := Signature.eq_of_unclosed_eq (paired_sites stream) hsites hkind hkind' hf hf' hd hd'
    obtain ⟨-, rfl⟩ := List.cons.inj heq
    have hle := hin.length_le
    rw [List.length_cons] at hle
    omega
  · rw [ht] at ht'
    cases ht'
  · rw [ht] at ht'
    cases ht'
  · have hne : f.token ≠ f'.token := Signature.token_ne_of_inside hsites hf hin
    exact ⟨rfl, t, rfl, f.token, f'.token, hne, ⟨f, rest, hf, hkind, rfl, hd⟩,
      ⟨f', rest', hf', hkind', rfl, hd'⟩⟩

theorem pairwise_reported (hnodup : stream.Nodup) :
    (reportedProblems stream).Pairwise (RepeatsBody stream) := by
  have hvisible : (visibleTokens stream).Nodup := hnodup.filter _
  refine List.pairwise_append.mpr ⟨pairwise_signature hnodup, ?_, ?_⟩
  · apply pairwise_of_nodup
    have hclosers : ((Nesting.read [] (visibleTokens stream)).1.map Problem.nesting).map
        Problem.token = (Nesting.read [] (visibleTokens stream)).1.map Nesting.Defect.closer := by
      rw [List.map_map]
      exact List.map_congr_left fun d _ => token_nesting d
    rw [hclosers]
    exact (Nesting.sublist_closers [] _).nodup hvisible
  · intro p hp q hq
    obtain ⟨d, hd, rfl⟩ := List.mem_map.mp hp
    obtain ⟨d', hd', rfl⟩ := List.mem_map.mp hq
    obtain ⟨-, b, hb⟩ := token_of_signature hd
    obtain ⟨-, b', hb'⟩ := token_of_nesting hd'
    apply repeatsBody_of_bracket?_ne
    rw [hb, hb']
    simp

theorem pairwise_structural (hnodup : stream.Nodup) :
    (structuralProblems stream).Pairwise (RepeatsBody stream) := by
  have hvisible : (visibleTokens stream).Nodup := hnodup.filter _
  rw [structuralProblems_eq]
  refine List.pairwise_append.mpr ⟨pairwise_reported hnodup, ?_, ?_⟩
  · apply pairwise_of_nodup
    have htokens : ∀ ts : List Token, (ts.map Problem.unclosed).map Problem.token = ts := by
      intro ts
      rw [List.map_map]
      exact List.map_id ts
    rw [htokens]
    have hleft : (leftOpenGroups stream).reverse.Nodup :=
      (Nesting.sublist_left [] (visibleTokens stream)).nodup hvisible
    exact hleft.filter _
  · intro p hp q hq
    obtain ⟨t, ht, rfl⟩ := List.mem_map.mp hq
    have hspan : p.span ≠ t.span := by
      have hfilter := (List.mem_filter.mp ht).2
      simp only [Bool.not_eq_true', List.contains_eq_mem, decide_eq_false_iff_not, List.mem_map,
        not_exists, not_and] at hfilter
      exact hfilter p hp
    apply repeatsBody_of_ne
    intro htoken
    exact hspan (congrArg Token.span htoken)

end Stream

section Source

variable {source : String} {p q : Problem}

theorem pairwise_found (source : String) :
    (foundProblems (tokens source)).Pairwise (RepeatsBody (tokens source)) := by
  have hnodup := nodup_tokens source
  refine List.pairwise_append.mpr ⟨?_, pairwise_structural hnodup, ?_⟩
  · exact pairwise_of_nodup ((sublist_faults _).nodup hnodup)
  · intro p hp q hq
    obtain ⟨-, -, hp⟩ := token_of_fault hp
    obtain ⟨-, x, hq⟩ := token_of_structural hq
    apply repeatsBody_of_bracket?_ne
    rw [hp, hq]
    simp

/-- Two problems at one place are the same problem, a body that two `func`s share. -/
theorem pairwise_problems (source : String) :
    (problems (tokens source)).Pairwise fun p q => p.span = q.span →
      p = q ∧ ∃ brace, p = .signature (.detachedBody brace) ∧ SharesBody (tokens source) brace := by
  refine (Problem.sortByPlace_perm _).symm.pairwise ((pairwise_found source).imp_of_mem ?_) ?_
  · intro p q hp hq h hspan
    exact h (token_eq_of_span_eq hp hq hspan)
  · intro p q h hspan
    obtain ⟨rfl, hbody⟩ := h hspan.symm
    exact ⟨rfl, hbody⟩

/-- A problem is known from its place. -/
theorem problem_eq_of_span_eq (hp : p ∈ problems (tokens source)) (hq : q ∈ problems (tokens source))
    (hspan : p.span = q.span) : p = q := by
  have hpairs : (problems (tokens source)).Pairwise fun p q => p.span = q.span → p = q :=
    (pairwise_problems source).imp fun h hspan => (h hspan).1
  exact List.Pairwise.forall_of_forall_of_flip (fun _ _ _ => rfl) hpairs
    (hpairs.imp fun h hspan => (h hspan.symm).symm) hp hq hspan

/-- It is known from where it begins, too. -/
theorem problem_eq_of_start_eq (hp : p ∈ problems (tokens source))
    (hq : q ∈ problems (tokens source)) (hstart : p.span.start = q.span.start) : p = q := by
  obtain ⟨hpmem, hpend⟩ := token_of_problem hp
  obtain ⟨hqmem, hqend⟩ := token_of_problem hq
  have htoken := eq_of_start_eq hpmem hqmem hstart (span_lt_of_mem_tokens hpmem hpend)
    (span_lt_of_mem_tokens hqmem hqend)
  exact problem_eq_of_span_eq hp hq (congrArg Token.span htoken)

/-- At the place of a problem that is no detached body, it is reported once and nothing else is. -/
theorem filter_problems_eq_singleton (hp : p ∈ problems (tokens source))
    (hbody : ∀ brace, p ≠ .signature (.detachedBody brace)) :
    (problems (tokens source)).filter (·.span == p.span) = [p] := by
  have heq : ∀ q ∈ (problems (tokens source)).filter (·.span == p.span), q = p := by
    intro q hq
    obtain ⟨hq, hspan⟩ := List.mem_filter.mp hq
    exact problem_eq_of_span_eq hq hp (beq_iff_eq.mp hspan)
  have hpairs : ((problems (tokens source)).filter (·.span == p.span)).Pairwise
      fun _ _ => False := by
    refine ((pairwise_problems source).filter _).imp_of_mem ?_
    intro q q' hq hq' h
    obtain rfl := heq q hq
    obtain rfl := heq q' hq'
    obtain ⟨-, brace, hbrace, -⟩ := h rfl
    exact hbody brace hbrace
  have hmem : p ∈ (problems (tokens source)).filter (·.span == p.span) :=
    List.mem_filter.mpr ⟨hp, beq_self_eq_true _⟩
  match hfilter : (problems (tokens source)).filter (·.span == p.span) with
  | [] =>
    rw [hfilter] at hmem
    cases hmem
  | [q] =>
    rw [hfilter] at hmem
    obtain rfl := List.mem_singleton.mp hmem
    exact hfilter
  | q :: q' :: rest =>
    rw [hfilter] at hpairs
    exact (List.rel_of_pairwise_cons hpairs List.mem_cons_self).elim

/-- If no diagnostic is repeated, no two signatures have the same defect. -/
theorem not_sharesBody_of_nodup
    (h : ((foundProblems (tokens source)).map Problem.diagnostic).Nodup) (brace : Token) :
    ¬ SharesBody (tokens source) brace := by
  rintro ⟨_, _, hne, ⟨f, rest, hf, hkind, rfl, hd⟩, ⟨f', rest', hf', hkind', rfl, hd'⟩⟩
  have hsublist : ((Signature.defects (sites (tokens source))).map Problem.signature).Sublist
      (foundProblems (tokens source)) := by
    rw [foundProblems, structuralProblems_eq, reportedProblems, List.append_assoc]
    exact (List.sublist_append_left _ _).trans (List.sublist_append_right _ _)
  have hnodup := hsublist.nodup (List.Nodup.of_map _ h)
  have hpairs := List.pairwise_map.mp hnodup
  rw [Signature.pairwise_defects_iff] at hpairs
  rcases Signature.eq_or_inside hf hf' with heq | hin | hin
  · exact hne (congrArg Site.token (List.cons.inj heq).1)
  · exact hpairs f rest f' rest' _ _ hf hin hkind hkind' hd hd' rfl
  · exact hpairs f' rest' f rest _ _ hf' hin hkind' hkind hd' hd rfl

end Source

/-- Diagnostics are repeated, place and message, exactly where two `func`s share a body that is
    detached from them. All other places have one diagnostic at most. -/
theorem convert_repeats_shared_bodies (name : Option String) (source : String) :
    ∃ r : Conversion, convert .ignore name source = ⟨[], .ok r⟩ ∧
      r.diagnostics.Pairwise (fun d e => d.span = e.span → d = e ∧
        ∃ brace, d = (Problem.signature (.detachedBody brace)).diagnostic ∧
          SharesBody (tokens source) brace) ∧
      ((r.diagnostics.map fun d => (d.span, d.message)).Nodup ↔
        ∀ brace, ¬ SharesBody (tokens source) brace) := by
  have hpairs : (Conversion.ofSource source).diagnostics.Pairwise fun d e => d.span = e.span →
      d = e ∧ ∃ brace, d = (Problem.signature (.detachedBody brace)).diagnostic ∧
        SharesBody (tokens source) brace := by
    rw [Conversion.diagnostics_ofSource, List.pairwise_map]
    apply (pairwise_problems source).imp
    intro p q h hspan
    rw [Problem.span_diagnostic, Problem.span_diagnostic] at hspan
    obtain ⟨rfl, brace, rfl, hbody⟩ := h hspan
    exact ⟨rfl, brace, rfl, hbody⟩
  refine ⟨Conversion.ofSource source, convert_ignore name source, hpairs, ?_, ?_⟩
  · intro hnodup
    apply not_sharesBody_of_nodup
    have hproblems := List.Nodup.of_map _ hnodup
    rw [Conversion.diagnostics_ofSource] at hproblems
    exact ((Problem.sortByPlace_perm _).map Problem.diagnostic).nodup_iff.mp hproblems
  · intro hnone
    rw [List.Nodup, List.pairwise_map]
    apply hpairs.imp
    intro d e h heq
    obtain ⟨-, brace, -, hbody⟩ := h (congrArg Prod.fst heq)
    exact hnone brace hbody

/-- Not every problem is reported once: the two signatures in front of this body both have it
    detached. -/
theorem convert_repeats_body_of_result :
    ¬ ∀ (source : String) (r : Conversion), convert .ignore none source = ⟨[], .ok r⟩ →
      (r.diagnostics.map fun d => (d.span, d.message)).Nodup := by
  intro h
  have hnodup := h "func f() func()\n\x7b\n\x7d" _ (convert_ignore none _)
  revert hnodup
  decide

end Semicolons
