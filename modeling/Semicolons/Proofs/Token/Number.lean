import Semicolons.Proofs.Lexeme.Number
import Semicolons.Proofs.Problem.Lexical

/-!
# Numbers as tokens

A number of the grammar that no letter, digit, underscore or point follows is a single token, and
there is nothing wrong with it (`tokens_number`).
-/

namespace Semicolons

/-- The first token of a text, if the text begins with a number. -/
theorem head?_tokens_of_isReadTo {w r : String} {q : Phase} (hw : IsReadTo w.toList q)
    (hstop : q.StopsBefore r.toList) :
    (tokens (w ++ r)).head? = some ⟨⟨q.kind w, w, q.fault?⟩, (q.kind w).channel, 0,
      ⟨0, w.utf8ByteSize⟩⟩ := by
  have hfinish : Lexeme.finish q w.toList.reverse = ⟨q.kind w, w, q.fault?⟩ := by
    simp [Lexeme.finish]
  have hlexemes : lexemes (w ++ r) = ⟨q.kind w, w, q.fault?⟩ :: lexemesOfChars r.toList := by
    rw [lexemes, String.toList_append, hw.lexemesOfChars_append hstop, hfinish]
  rw [tokens_eq_inPlace, hlexemes, List.cons_append, inPlace_cons, List.head?_cons,
    ← Lexeme.utf8ByteSize_text, Nat.zero_add]

/-- A number in front of nothing that could belong to it is the first token of the text, of the kind
    that the grammar gives it, and without a fault. -/
theorem tokens_number {w r : String} (hw : Number.Literal w.toList)
    (hr : ∀ c ∈ r.toList.head?, c.isAlphanum = false ∧ c ≠ '_' ∧ c ≠ '.') :
    ∃ t, (tokens (w ++ r)).head? = some t ∧ t.text = w ∧
      (w.toList.getLast? = some 'i' → t.kind = .imaginary) ∧
      (w.toList.getLast? ≠ some 'i' → Number.Float w.toList → t.kind = .float) ∧
      (w.toList.getLast? ≠ some 'i' → ¬ Number.Float w.toList → t.kind = .integer) ∧
      ∀ d ∈ lexicalDiagnostics (tokens (w ++ r)), d.span ≠ t.span := by
  obtain ⟨q, k, hread, hends, himaginary, hfloat, hinteger⟩ := hw.isReadTo
  have hhead := head?_tokens_of_isReadTo hread (hends.stopsBefore hr)
  rw [hends.kind_eq, hends.fault?_eq] at hhead
  refine ⟨_, hhead, rfl, himaginary, hfloat, hinteger, ?_⟩
  intro d hd hspan
  obtain ⟨t, ht, f, hf, rfl⟩ := mem_lexicalDiagnostics.mp hd
  have hlt := span_lt_of_mem_tokens ht (Lexeme.ne_endOfInput_of_fault hf)
  -- The faulty token would stand where the number does.
  obtain rfl := eq_of_span_eq ht (List.mem_of_mem_head? hhead) hspan hlt
  cases hf

/-- A hexadecimal fraction in front of an operator. -/
theorem tokens_number_hexadecimal :
    ∃ t, (tokens "0x_1.8p-1+").head? = some t ∧ t.text = "0x_1.8p-1" ∧ t.kind = .float := by
  have hmantissa : Number.Mantissa ['_', '1', '.', '8'] :=
    .point (.setOff (.single (by decide))) (.present (.single (by decide)))
  have hexponent : Number.Exponent ['p', 'P'] ['p', '-', '1'] :=
    .signed (by decide) (by decide) (.single (by decide))
  have hfloat : Number.Float "0x_1.8p-1".toList :=
    .hexadecimal (by decide) hmantissa hexponent
  obtain ⟨t, ht, htext, -, hkind, -, -⟩ := tokens_number (w := "0x_1.8p-1") (r := "+")
    (.float hfloat) (by simp)
  exact ⟨t, ht, htext, hkind (by decide) hfloat⟩

end Semicolons
