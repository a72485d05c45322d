import Semicolons.Proofs.Problem.Repetition

/-!
# Detached bodies in a report

That a body is detached from its signature is said in words that no other problem has, so that a
diagnostic at a brace tells whether there is a `func` that the brace is detached from
(`reports_detached_iff`). Nothing else is said at such a brace (`eq_detachedBody_of_place`).
-/

namespace Semicolons

namespace Problem

/-- The words for a body that is detached from its signature. -/
def detachedMessage : String :=
  "unexpected newline before function body"

/-- The first twelve characters tell other words apart from these. -/
theorem append_ne_detachedMessage {start : String} (text : String)
    (h : start.toList.take 12 ≠ detachedMessage.toList.take 12)
    (hlength : 12 ≤ start.toList.length) : start ++ text ≠ detachedMessage := by
  rintro heq
  apply h
  rw [← heq, String.toList_append, List.take_append_of_le_length hlength]

/-- No other problem is told of in these words. -/
theorem message_eq_detached_iff {p : Problem} :
    p.diagnostic.message = detachedMessage ↔ ∃ t, p = .signature (.detachedBody t) := by
  constructor
  · intro h
    cases p with
    | faulty t fault =>
      have hmessage : fault.message = detachedMessage := h
      cases fault with
      | strayCharacter c =>
        exact absurd hmessage (append_ne_detachedMessage _ (by decide) (by decide))
      | _ => exact absurd hmessage (by decide)
    | signature defect =>
      cases defect with
      | unclosedParenthesis t =>
        have hne : Diagnostic.unclosedParenthesisMessage ≠ detachedMessage := by decide
        exact absurd h hne
      | detachedBody t => exact ⟨t, rfl⟩
    | nesting defect =>
      cases defect with
      | mismatched t opener =>
        have hmessage : "mismatched closing delimiter `" ++ t.text ++ "`" = detachedMessage := h
        rw [String.append_assoc] at hmessage
        exact absurd hmessage (append_ne_detachedMessage _ (by decide) (by decide))
      | unexpected t =>
        have hmessage : "unexpected closing delimiter `" ++ t.text ++ "`" = detachedMessage := h
        rw [String.append_assoc] at hmessage
        exact absurd hmessage (append_ne_detachedMessage _ (by decide) (by decide))
    | unclosed t =>
      have hmessage : "unclosed delimiter `" ++ t.text ++ "`" = detachedMessage := h
      rw [String.append_assoc] at hmessage
      exact absurd hmessage (append_ne_detachedMessage _ (by decide) (by decide))
  · rintro ⟨t, rfl⟩
    rfl

end Problem

section Source

variable {source : String} {t : Token} {p : Problem}

/-- A problem at the place of a token of the text is about that token. -/
theorem token_eq_of_place (ht : t ∈ tokens source) (hp : p ∈ problems (tokens source))
    (hspan : p.span = t.span) : p.token = t := by
  obtain ⟨hmem, hend⟩ := token_of_problem hp
  exact eq_of_span_eq hmem ht hspan (span_lt_of_mem_tokens hmem hend)

theorem detachedBody_mem_problems_iff {stream : List Token} {brace : Token} :
    .signature (.detachedBody brace) ∈ problems stream ↔
      ∃ func, DetachesBody stream func brace := by
  rw [signature_mem_problems_iff, Signature.mem_defects_iff_suffix]
  constructor
  · rintro ⟨f, rest, hsuffix, hkind, hd⟩
    exact ⟨f.token, f, rest, hsuffix, hkind, rfl, hd⟩
  · rintro ⟨func, f, rest, hsuffix, hkind, -, hd⟩
    exact ⟨f, rest, hsuffix, hkind, hd⟩

/-- At the brace of a detached body nothing else is reported. -/
theorem eq_detachedBody_of_place {func : Token} (h : DetachesBody (tokens source) func t)
    (hp : p ∈ problems (tokens source)) (hspan : p.span = t.span) :
    p = .signature (.detachedBody t) :=
  problem_eq_of_span_eq hp (detachedBody_mem_problems_iff.mpr ⟨func, h⟩) hspan

/-- A diagnostic says at the brace that a body is detached exactly where it is detached from a
    `func`. -/
theorem reports_detached_iff (ht : t ∈ tokens source) :
    (∃ d ∈ (Conversion.ofSource source).diagnostics,
        d.span = t.span ∧ d.message = Problem.detachedMessage) ↔
      ∃ func, DetachesBody (tokens source) func t := by
  rw [← detachedBody_mem_problems_iff, Conversion.diagnostics_ofSource]
  constructor
  · rintro ⟨d, hd, hspan, hmessage⟩
    obtain ⟨p, hp, rfl⟩ := List.mem_map.mp hd
    obtain ⟨brace, rfl⟩ := Problem.message_eq_detached_iff.mp hmessage
    rw [Problem.span_diagnostic] at hspan
    obtain rfl : brace = t := token_eq_of_place ht hp hspan
    exact hp
  · intro hp
    exact ⟨_, List.mem_map_of_mem hp, rfl, rfl⟩

end Source

end Semicolons
