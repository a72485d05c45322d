import Semicolons.Proofs.Conversion
import Semicolons.Proofs.Insertion.Returns
import Semicolons.Proofs.Problem.Mapped
import Semicolons.Proofs.Problem.Tokens
import Semicolons.Proofs.Token.Position

/-!
# Line ends with and without carriage returns

Where every carriage return is followed by a line feed, a text may be written with its carriage
returns or without them: semicolons are written at the same places, and the same problems are found
at the same positions (`convert_withoutReturns`). For the tokens of the one text are those of the
other without their carriage returns, with as many bytes in front of them as there are left
(`tokens_withoutReturns`), and a line feed begins a new line no matter what stands in front of it
(`PairsReturns.after_dropReturns`).
-/

namespace Semicolons

/-- Without its carriage returns, a text leads to the same position. -/
theorem PairsReturns.after_dropReturns {text : List Char} (h : PairsReturns text) :
    ∀ p : Position, p.after (dropReturns text) = p.after text := by
  induction h using PairsReturns.induction with
  | nil => exact fun _ => rfl
  | other c rest hc _ ih =>
    intro p
    rw [dropReturns_cons hc]
    exact ih (p.advance c)
  | pair rest _ ih =>
    intro p
    rw [dropReturns_return, dropReturns_cons (by decide)]
    exact ih (p.advance '\n')

theorem PairsReturns.flatMap {ls : List Lexeme} (h : ∀ l ∈ ls, PairsReturns l.chars) :
    PairsReturns (ls.flatMap Lexeme.chars) := by
  induction ls with
  | nil => trivial
  | cons l ls ih =>
    obtain ⟨hl, hls⟩ := List.forall_mem_cons.mp h
    exact hl.append (ih hls)

/-- Where a place of a text is found in the text without its carriage returns. -/
def placeWithoutReturns (source : List Char) (offset : Nat) : Nat :=
  byteLength (dropReturns ((textBefore? offset source).getD source))

theorem placeWithoutReturns_append (before after : List Char) :
    placeWithoutReturns (before ++ after) (byteLength before) =
      byteLength (dropReturns before) := by
  rw [placeWithoutReturns, textBefore?_append]
  rfl

/-- A token of a text without its carriage returns, in its place in the text without carriage
    returns. -/
def Token.withoutReturns (source : List Char) (t : Token) : Token :=
  { t with
    toLexeme := t.toLexeme.withoutReturns
    span := ⟨placeWithoutReturns source t.span.start, placeWithoutReturns source t.span.stop⟩ }

theorem keepsReading_withoutReturns (source : List Char) :
    KeepsReading (Token.withoutReturns source) where
  kind _ := rfl
  isHidden _ := rfl
  hasLineFeed t := by
    show (t.toLexeme.withoutReturns.chars).any (· == '\n') = t.chars.any (· == '\n')
    rw [Lexeme.chars_withoutReturns, Bool.eq_iff_iff]
    simp [lineFeed_mem_dropReturns]

/-- Lexemes without their carriage returns are laid out where they are without them. -/
theorem inPlace_withoutReturns {source done : List Char} {ls : List Lexeme}
    (h : source = done ++ ls.flatMap Lexeme.chars) (index : Nat) :
    inPlace index (byteLength (dropReturns done)) (ls.map Lexeme.withoutReturns) =
      (inPlace index (byteLength done) ls).map (Token.withoutReturns source) := by
  induction ls generalizing done index with
  | nil => rfl
  | cons l ls ih =>
    have hnext : source = (done ++ l.chars) ++ ls.flatMap Lexeme.chars := by
      rw [h, List.flatMap_cons, List.append_assoc]
    have hstart : placeWithoutReturns source (byteLength done) = byteLength (dropReturns done) := by
      rw [h, placeWithoutReturns_append]
    have hstop : placeWithoutReturns source (byteLength done + byteLength l.chars) =
        byteLength (dropReturns done) + byteLength l.withoutReturns.chars := by
      rw [← byteLength_append, hnext, placeWithoutReturns_append, dropReturns_append,
        byteLength_append, Lexeme.chars_withoutReturns]
    have hrest := ih hnext (index + 1)
    rw [dropReturns_append, byteLength_append, byteLength_append,
      ← Lexeme.chars_withoutReturns] at hrest
    rw [List.map_cons, inPlace_cons, inPlace_cons, List.map_cons, hrest, Token.withoutReturns,
      hstart, hstop]
    rfl

section Source

variable {source : String} {t t' : Token}

/-- The tokens of a text without its carriage returns. -/
theorem tokens_withoutReturns (h : PairsReturns source.toList) :
    tokens (withoutReturns source) =
      (tokens source).map (Token.withoutReturns source.toList) := by
  have hsource : source.toList =
      [] ++ (lexemes source ++ [Lexeme.endOfInput]).flatMap Lexeme.chars := by
    rw [flatMap_chars_lexemes_endOfInput, List.nil_append]
  rw [tokens_eq_inPlace, lexemes_withoutReturns h, ← Lexeme.withoutReturns_endOfInput,
    ← List.map_singleton, ← List.map_append]
  exact inPlace_withoutReturns hsource 0

/-- A bracket is spelled without carriage returns. -/
theorem text_withoutReturns_of_bracket (ht : t ∈ tokens source) {x : Side × Bracket}
    (hx : t.kind.bracket? = some x) : withoutReturns t.text = t.text := by
  obtain ⟨m, hm⟩ : ∃ m, t.kind = .punctuation m := by
    cases hkind : t.kind with
    | punctuation m => exact ⟨m, rfl⟩
    | _ =>
      rw [hkind] at hx
      cases hx
  have hmem := mem_lexemes_of_mem_tokens ht (ne_endOfInput_of_bracket hx)
  have hchars := (cuts_lexemes source).chars_of_punctuation hmem hm
  have hnone : '\r' ∉ t.chars := by
    intro hmem
    rw [hchars] at hmem
    cases Punctuation.isLineBreak_of_mem hmem
  rw [← String.toList_inj, toList_withoutReturns]
  exact dropReturns_of_not_mem hnone

/-- In front of a token, every carriage return is followed by a line feed. -/
theorem exists_pairsReturns_before (h : PairsReturns source.toList) (ht : t ∈ tokens source) :
    ∃ before after, source.toList = before ++ after ∧ t.span.start = byteLength before ∧
      PairsReturns before := by
  obtain ⟨before, after, hlexemes, hstart⟩ := exists_lexemes_of_mem_tokens ht
  refine ⟨before.flatMap Lexeme.chars, (t.toLexeme :: after).flatMap Lexeme.chars, ?_, hstart, ?_⟩
  · rw [← flatMap_chars_lexemes_endOfInput, hlexemes, List.flatMap_append]
  · apply PairsReturns.flatMap
    intro l hl
    have hpairs : ∀ l ∈ lexemes source, PairsReturns l.chars :=
      fun _ => (cuts_lexemes source).pairsReturns_chars h
    apply pairsReturns_of_mem_endOfInput hpairs
    rw [hlexemes]
    exact List.mem_append_left _ hl

/-- A token begins at the same position with and without carriage returns. -/
theorem ofOffset_withoutReturns (h : PairsReturns source.toList) (ht : t ∈ tokens source) :
    Position.ofOffset (withoutReturns source).toList
        (t.withoutReturns source.toList).span.start =
      Position.ofOffset source.toList t.span.start := by
  obtain ⟨before, after, hsource, hstart, hbefore⟩ := exists_pairsReturns_before h ht
  have hplace : (t.withoutReturns source.toList).span.start = byteLength (dropReturns before) := by
    show placeWithoutReturns source.toList t.span.start = _
    rw [hsource, hstart, placeWithoutReturns_append]
  rw [hplace, toList_withoutReturns, hsource, dropReturns_append, Position.ofOffset_append, hstart,
    Position.ofOffset_append, hbefore.after_dropReturns]

/-- A token that covers bytes covers bytes without its carriage returns too. -/
theorem withoutReturns_mem_tokens (h : PairsReturns source.toList) (ht : t ∈ tokens source)
    (hend : t.toLexeme ≠ .endOfInput) :
    t.withoutReturns source.toList ∈ tokens (withoutReturns source) ∧
      (t.withoutReturns source.toList).span.start < (t.withoutReturns source.toList).span.stop := by
  have hmem : t.withoutReturns source.toList ∈ tokens (withoutReturns source) := by
    rw [tokens_withoutReturns h]
    exact List.mem_map_of_mem ht
  refine ⟨hmem, span_lt_of_mem_tokens hmem ?_⟩
  intro hmapped
  have hkind : t.kind = .endOfInput := congrArg Lexeme.kind hmapped
  exact (cuts_lexemes source).kind_ne_endOfInput (mem_lexemes_of_mem_tokens ht hend) hkind

section Places

variable (h : PairsReturns source.toList) (ht : t ∈ tokens source) (ht' : t' ∈ tokens source)
  (hend : t.toLexeme ≠ .endOfInput) (hend' : t'.toLexeme ≠ .endOfInput)
include h ht ht' hend hend'

theorem span_withoutReturns_eq_iff :
    (t.withoutReturns source.toList).span = (t'.withoutReturns source.toList).span ↔
      t.span = t'.span := by
  constructor
  · intro hspan
    obtain ⟨hmem, hlt⟩ := withoutReturns_mem_tokens h ht hend
    obtain ⟨hmem', -⟩ := withoutReturns_mem_tokens h ht' hend'
    have hnodup := nodup_tokens (withoutReturns source)
    rw [tokens_withoutReturns h] at hnodup
    rw [List.inj_on_of_nodup_map hnodup ht ht' (eq_of_span_eq hmem hmem' hspan hlt)]
  · intro hspan
    rw [eq_of_span_eq ht ht' hspan (span_lt_of_mem_tokens ht hend)]

theorem start_withoutReturns_le_iff :
    (t.withoutReturns source.toList).span.start ≤ (t'.withoutReturns source.toList).span.start ↔
      t.span.start ≤ t'.span.start := by
  obtain ⟨hmem, hlt⟩ := withoutReturns_mem_tokens h ht hend
  obtain ⟨hmem', hlt'⟩ := withoutReturns_mem_tokens h ht' hend'
  rw [start_le_iff_index_le hmem hmem' hlt hlt', start_le_iff_index_le ht ht'
    (span_lt_of_mem_tokens ht hend) (span_lt_of_mem_tokens ht' hend')]
  rfl

end Places

/-- The problems of a text without its carriage returns. -/
theorem problems_withoutReturns (h : PairsReturns source.toList) :
    problems (tokens (withoutReturns source)) =
      (problems (tokens source)).map (Problem.map (Token.withoutReturns source.toList)) := by
  rw [tokens_withoutReturns h]
  refine problems_map (keepsReading_withoutReturns _) (fun _ => rfl) ⟨?_, ?_⟩
  · intro p hp t ht
    obtain ⟨hmem, hend⟩ := token_of_found hp
    obtain ⟨hvisible, b, hb⟩ := token_of_left ht
    exact span_withoutReturns_eq_iff h hmem (List.mem_filter.mp hvisible).1 hend
      (ne_endOfInput_of_bracket hb)
  · intro p hp q hq
    obtain ⟨hmem, hend⟩ := token_of_found hp
    obtain ⟨hmem', hend'⟩ := token_of_found hq
    exact start_withoutReturns_le_iff h hmem hmem' hend hend'

/-- What is reported of a problem, with the position of its place. -/
theorem report_withoutReturns (h : PairsReturns source.toList) {p : Problem}
    (hp : p ∈ problems (tokens source)) :
    let d := (p.map (Token.withoutReturns source.toList)).diagnostic
    d.stage = p.diagnostic.stage ∧ d.message = p.diagnostic.message ∧
      Position.ofOffset (withoutReturns source).toList d.span.start =
        Position.ofOffset source.toList p.diagnostic.span.start := by
  have hfound : p ∈ foundProblems (tokens source) :=
    (Problem.sortByPlace_perm _).mem_iff.mp hp
  have hwords : (∃ t fault, p = .faulty t fault) ∨
      (p.token.withoutReturns source.toList).text = p.token.text := by
    rcases List.mem_append.mp hfound with hfault | hstructural
    · obtain ⟨t, -, fault, -, rfl⟩ := mem_faults.mp hfault
      exact Or.inl ⟨t, fault, rfl⟩
    · obtain ⟨hvisible, x, hx⟩ := token_of_structural hstructural
      exact Or.inr (text_withoutReturns_of_bracket (List.mem_filter.mp hvisible).1 hx)
  obtain ⟨hstage, hmessage⟩ := Problem.wording_map hwords
  refine ⟨hstage, hmessage, ?_⟩
  rw [Problem.span_diagnostic, Problem.span_diagnostic, Problem.span, Problem.span,
    Problem.token_map]
  exact ofOffset_withoutReturns h (token_of_found hfound).1

end Source

/-- Where every carriage return is followed by a line feed, the carriage returns make no difference:
    without them the text is converted to the same output, with as many semicolons, and the same
    problems are reported at the same positions. -/
theorem convert_withoutReturns (name : Option String) {source : String}
    (h : PairsReturns source.toList) :
    ∃ r r' : Conversion, convert .ignore name source = ⟨[], .ok r⟩ ∧
      convert .ignore name (withoutReturns source) = ⟨[], .ok r'⟩ ∧
      withoutReturns r.output = r'.output ∧ r'.inserted = r.inserted ∧
      (r'.diagnostics.map fun d => (d.stage, d.message,
          Position.ofOffset (withoutReturns source).toList d.span.start)) =
        r.diagnostics.map fun d => (d.stage, d.message,
          Position.ofOffset source.toList d.span.start) := by
  refine ⟨Conversion.ofSource source, Conversion.ofSource (withoutReturns source),
    convert_ignore name source, convert_ignore name _,
    ?_, ?_, ?_⟩
  · rw [Conversion.output_ofSource, Conversion.output_ofSource, withSemicolons_withoutReturns h]
  · rw [Conversion.inserted_ofSource, Conversion.inserted_ofSource,
      semicolonCount_withoutReturns h]
  · rw [Conversion.diagnostics_ofSource, Conversion.diagnostics_ofSource, problems_withoutReturns h,
      List.map_map, List.map_map, List.map_map]
    apply List.map_congr_left
    intro p hp
    obtain ⟨hstage, hmessage, hposition⟩ := report_withoutReturns h hp
    simp only [Function.comp_apply, hstage, hmessage, hposition]

theorem convert_withoutReturns_open_string :
    ∃ r r' : Conversion, convert .ignore none "a /*\r\n*/ `\r\n` )\r\n\"x" = ⟨[], .ok r⟩ ∧
      convert .ignore none "a /*\n*/ `\n` )\n\"x" = ⟨[], .ok r'⟩ ∧
      r.output = "a; /*\r\n*/ `\r\n` );\r\n\"x" ∧ r'.output = "a; /*\n*/ `\n` );\n\"x" ∧
      r'.inserted = 2 ∧
      r.diagnostics = [.syntactic "unexpected closing delimiter `)`" ⟨14, 15⟩,
        .lexical "string literal not terminated" ⟨17, 19⟩] ∧
      (r'.diagnostics.map fun d => (d.stage, d.message,
          Position.ofOffset "a /*\n*/ `\n` )\n\"x".toList d.span.start)) =
        [(.syntactic, "unexpected closing delimiter `)`", ⟨3, 2⟩),
          (.lexical, "string literal not terminated", ⟨4, 0⟩)] := by
  have hpairs : PairsReturns "a /*\r\n*/ `\r\n` )\r\n\"x".toList := by
    decide
  obtain ⟨r, r', hr, hr', houtput, hinserted, hdiagnostics⟩ := convert_withoutReturns none hpairs
  obtain rfl : r = Conversion.ofSource "a /*\r\n*/ `\r\n` )\r\n\"x" :=
    eq_ofSource_of_convert (by rw [hr])
  refine ⟨_, r', hr, hr', rfl, houtput.symm, hinserted, by decide, ?_⟩
  exact hdiagnostics.trans (by decide)

end Semicolons
