import Semicolons.Problem
import Semicolons.Proofs.Token.Layout

/-!
# Problems of single lexemes

What a reader is told about the lexemes of a stream. Each message belongs to one token, which its
span tells apart from all others (`fault_of_mem_lexicalDiagnostics`), and among the lexemes on
which a statement can end only strings, runes and raw strings have messages: that they are never
closed (`Cuts.openLiteral_of_fault`).
-/

namespace Semicolons

/-- The problems of single lexemes of a stream, as a reader is told of them. -/
def lexicalDiagnostics (stream : List Token) : List Diagnostic :=
  (faults stream).map Problem.diagnostic

/-- What a reader is told about a lexeme at the given place. -/
def Lexeme.diagnosticsAt (l : Lexeme) (span : Span) : List Diagnostic :=
  (l.fault.map fun f => Diagnostic.lexical f.message span).toList

theorem lexicalDiagnostics_cons (t : Token) (stream : List Token) :
    lexicalDiagnostics (t :: stream) =
      t.toLexeme.diagnosticsAt t.span ++ lexicalDiagnostics stream := by
  cases hf : t.fault <;>
    simp [lexicalDiagnostics, faults, Lexeme.diagnosticsAt, hf, Problem.diagnostic]

theorem lexicalDiagnostics_append (stream stream' : List Token) :
    lexicalDiagnostics (stream ++ stream') =
      lexicalDiagnostics stream ++ lexicalDiagnostics stream' := by
  rw [lexicalDiagnostics, faults, List.filterMap_append, List.map_append]
  rfl

theorem mem_diagnosticsAt {l : Lexeme} {span : Span} {d : Diagnostic} :
    d ∈ l.diagnosticsAt span ↔
      ∃ f, l.fault = some f ∧ d = Diagnostic.lexical f.message span := by
  cases hf : l.fault <;> simp [Lexeme.diagnosticsAt, hf]

theorem mem_lexicalDiagnostics {stream : List Token} {d : Diagnostic} :
    d ∈ lexicalDiagnostics stream ↔
      ∃ t ∈ stream, ∃ f, t.fault = some f ∧ d = Diagnostic.lexical f.message t.span := by
  induction stream with
  | nil => simp [lexicalDiagnostics, faults]
  | cons t stream ih => simp [lexicalDiagnostics_cons, mem_diagnosticsAt, ih]

/-- A message about the place of a token is about the fault of that token. -/
theorem fault_of_mem_lexicalDiagnostics {source : String} {t : Token} {message : String}
    (ht : t ∈ tokens source) (hlt : t.span.start < t.span.stop)
    (h : Diagnostic.lexical message t.span ∈ lexicalDiagnostics (tokens source)) :
    ∃ f, t.fault = some f ∧ f.message = message := by
  obtain ⟨t', ht', f, hf, hd⟩ := mem_lexicalDiagnostics.mp h
  obtain ⟨hmessage, hspan⟩ : message = f.message ∧ t.span = t'.span := by
    simpa [Diagnostic.lexical] using hd
  obtain rfl : t = t' := eq_of_span_eq ht ht' hspan hlt
  exact ⟨f, hf, hmessage.symm⟩

/-- The faults of literals that are never closed. -/
def openLiterals : List Fault :=
  [.openString, .openRune, .openRawString]

/-- The lexemes on which a statement can end and which have a fault are strings, runes and raw
    strings that are never closed. -/
theorem Cuts.openLiteral_of_fault {text : List Char} {ls : List Lexeme} (h : Cuts text ls)
    {l : Lexeme} (hl : l ∈ ls) (hends : l.kind.endsStatement = true) {f : Fault}
    (hf : l.fault = some f) :
    (l.kind = .string ∨ l.kind = .rune ∨ l.kind = .rawString) ∧ f ∈ openLiterals := by
  obtain ⟨q, c, taken, rfl⟩ := h.exists_finish hl
  cases q with
  | quoted quote =>
    cases quote <;> cases hf <;> simp [Lexeme.finish, Phase.kind, Quote.kind, Quote.fault,
      openLiterals]
  | escape quote =>
    cases quote <;> cases hf <;> simp [Lexeme.finish, Phase.kind, Quote.kind, Quote.fault,
      openLiterals]
  | raw =>
    cases hf
    simp [Lexeme.finish, Phase.kind, openLiterals]
  | commentSlash | comment | commentStar | stray => cases hends
  | _ => cases hf

end Semicolons
