import Semicolons.Proofs.Conversion
import Semicolons.Proofs.Insertion.Points
import Semicolons.Proofs.Problem.Lexical

/-!
# The tokens of a converted text

A converted text is cut into the tokens of its source text, with a semicolon behind each token
that received one, and the same lexemes have the same faults. Only the places differ: a token has
moved by one byte for each semicolon in front of it (`lexicalDiagnostics_punctuated`).
-/

namespace Semicolons

/-- What a token is, wherever it stands. -/
def Token.shape (t : Token) : Kind × Channel × String :=
  (t.kind, t.channel, t.text)

/-- The shape of a semicolon. -/
def semicolonShape : Kind × Channel × String :=
  (.punctuation .semicolon, .visible, ";")

/-- A problem whose place lies `count` bytes further right. -/
def Diagnostic.moved (count : Nat) (d : Diagnostic) : Diagnostic :=
  { d with span := ⟨d.span.start + count, d.span.stop + count⟩ }

/-- The shape that a lexeme has as a token. -/
def Lexeme.shape (l : Lexeme) : Kind × Channel × String :=
  (l.kind, l.kind.channel, l.text)

theorem map_shape_inPlace (index offset : Nat) (ls : List Lexeme) :
    (inPlace index offset ls).map Token.shape = ls.map Lexeme.shape := by
  induction ls generalizing index offset with
  | nil => rfl
  | cons l ls ih =>
    rw [inPlace_cons, List.map_cons, List.map_cons, ih]
    rfl

theorem map_shape_punctuated (choice : List (Lexeme × Bool)) :
    (punctuated choice).map Lexeme.shape =
      choice.flatMap fun x => x.1.shape :: if x.2 then [semicolonShape] else [] := by
  induction choice with
  | nil => rfl
  | cons x rest ih =>
    obtain ⟨l, written⟩ := x
    cases written
    · simp [punctuated, ih]
    · simp only [punctuated, List.map_cons, ih, List.flatMap_cons, if_true]
      rfl

/-- Behind the place where tokens begin, so do their problems. -/
theorem le_start_of_mem_lexicalDiagnostics {index offset : Nat} {ls : List Lexeme} {d : Diagnostic}
    (h : d ∈ lexicalDiagnostics (inPlace index offset ls)) : offset ≤ d.span.start := by
  obtain ⟨t, ht, f, -, rfl⟩ := mem_lexicalDiagnostics.mp h
  exact (bounds_of_mem_inPlace ht).2.1

theorem map_moved_diagnosticsAt (l : Lexeme) (start stop count : Nat) :
    (l.diagnosticsAt ⟨start, stop⟩).map (·.moved count) =
      l.diagnosticsAt ⟨start + count, stop + count⟩ := by
  cases hf : l.fault <;> simp [Lexeme.diagnosticsAt, hf, Diagnostic.moved, Diagnostic.lexical]

theorem countP_pointsOf_cons {offset start : Nat} {l : Lexeme} {chosen : Bool}
    {rest : List (Lexeme × Bool)} (h : offset + byteLength l.chars ≤ start) :
    (pointsOf offset ((l, chosen) :: rest)).countP (· ≤ start) =
      chosen.toNat + (pointsOf (offset + byteLength l.chars) rest).countP (· ≤ start) := by
  cases chosen with
  | false => simp [pointsOf]
  | true => simp [pointsOf, h, Nat.add_comm]

/-- Written semicolons move each problem by as many bytes as there are semicolons in front of it.
    Here all of the lexemes have been moved already, by `before` bytes. -/
theorem lexicalDiagnostics_punctuated {choice : List (Lexeme × Bool)}
    (hne : ∀ x ∈ choice, x.1.chars ≠ []) (index index' offset before : Nat) :
    lexicalDiagnostics (inPlace index' (offset + before) (punctuated choice ++ [.endOfInput])) =
      (lexicalDiagnostics (inPlace index offset (choice.map Prod.fst ++ [.endOfInput]))).map
        fun d => d.moved (before + (pointsOf offset choice).countP (· ≤ d.span.start)) := by
  induction choice generalizing index index' offset before with
  | nil => rfl
  | cons x rest ih =>
    obtain ⟨l, written⟩ := x
    obtain ⟨-, hrest⟩ := List.forall_mem_cons.mp hne
    -- No semicolon stands in front of the first lexeme, and the one that may stand behind it is
    -- in front of all others.
    have hhead : (l.diagnosticsAt ⟨offset, offset + byteLength l.chars⟩).map (fun d =>
          d.moved (before + (pointsOf offset ((l, written) :: rest)).countP (· ≤ d.span.start))) =
        l.diagnosticsAt ⟨offset + before, offset + before + byteLength l.chars⟩ := by
      rw [Nat.add_right_comm offset, ← map_moved_diagnosticsAt]
      apply List.map_congr_left
      intro d hd
      obtain ⟨f, -, rfl⟩ := mem_diagnosticsAt.mp hd
      show Diagnostic.moved (before + (pointsOf offset ((l, written) :: rest)).countP
        (· ≤ offset)) _ = _
      rw [countP_pointsOf_start hne, Nat.add_zero]
    have htail : (lexicalDiagnostics (inPlace (index + 1) (offset + byteLength l.chars)
          (rest.map Prod.fst ++ [.endOfInput]))).map (fun d =>
          d.moved (before + (pointsOf offset ((l, written) :: rest)).countP (· ≤ d.span.start))) =
        lexicalDiagnostics (inPlace (index' + 1 + written.toNat)
          (offset + before + byteLength l.chars + written.toNat)
          (punctuated rest ++ [.endOfInput])) := by
      have hplace : offset + before + byteLength l.chars + written.toNat =
          offset + byteLength l.chars + (before + written.toNat) := by
        omega
      rw [hplace, ih hrest (index + 1)]
      apply List.map_congr_left
      intro d hd
      rw [countP_pointsOf_cons (le_start_of_mem_lexicalDiagnostics hd), Nat.add_assoc]
    rw [List.map_cons, List.cons_append, inPlace_cons, lexicalDiagnostics_cons, List.map_append,
      hhead, htail]
    cases written with
    | false =>
      rw [punctuated, List.cons_append, inPlace_cons, lexicalDiagnostics_cons]
      rfl
    | true =>
      rw [punctuated, List.cons_append, inPlace_cons, lexicalDiagnostics_cons, List.cons_append,
        inPlace_cons, lexicalDiagnostics_cons]
      rfl

section Source

variable {source : String}

theorem mem_receivers_iff_marked {t : Token} {wanted : Bool}
    (h : (t, wanted) ∈ marked (tokens source)) :
    t ∈ receivers (tokens source) ↔ wanted = true := by
  rw [mem_receivers]
  constructor
  · intro htrue
    have hpair := List.inj_on_of_nodup_map (nodup_map_fst_marked source) htrue h rfl
    exact (Prod.mk.inj hpair).2.symm
  · rintro rfl
    exact h

theorem shape_of_mem_tokens {t : Token} (h : t ∈ tokens source) : t.shape = t.toLexeme.shape := by
  rw [Token.shape, channel_of_mem_tokens h]
  rfl

/-- The tokens of a source text, each with the semicolon it receives, have the shapes of its
    punctuated lexemes. -/
theorem flatMap_shape_tokens (source : String) :
    ((tokens source).flatMap fun t =>
        t.shape :: if t ∈ receivers (tokens source) then [semicolonShape] else []) =
      (punctuated (decisions (lexemes source)) ++ [Lexeme.endOfInput]).map Lexeme.shape := by
  have hmark : ∀ x ∈ marked (tokens source),
      (x.1.shape :: if x.1 ∈ receivers (tokens source) then [semicolonShape] else []) =
        x.1.toLexeme.shape :: if x.2 then [semicolonShape] else [] := by
    rintro ⟨t, wanted⟩ hx
    have ht : t ∈ tokens source := by
      rw [← map_fst_marked_tokens source]
      exact List.mem_map_of_mem hx
    rw [shape_of_mem_tokens ht]
    simp only [mem_receivers_iff_marked hx]
  calc
    (tokens source).flatMap (fun t =>
        t.shape :: if t ∈ receivers (tokens source) then [semicolonShape] else [])
      = ((marked (tokens source)).map Prod.fst).flatMap (fun t =>
          t.shape :: if t ∈ receivers (tokens source) then [semicolonShape] else []) := by
        rw [map_fst_marked_tokens]
    _ = ((marked (tokens source)).map fun x => (x.1.toLexeme, x.2)).flatMap (fun x =>
          x.1.shape :: if x.2 then [semicolonShape] else []) := by
        rw [List.flatMap_map, List.flatMap_map]
        exact List.flatMap_congr hmark
    _ = (punctuated (decisions (lexemes source)) ++ [Lexeme.endOfInput]).map Lexeme.shape := by
        rw [map_marked_tokens, List.flatMap_append, ← map_shape_punctuated, List.map_append]
        rfl

/-- The problems of the lexemes of a converted text. -/
theorem lexicalDiagnostics_withSemicolons (source : String) :
    lexicalDiagnostics (tokens (withSemicolons (tokens source))) =
      (lexicalDiagnostics (tokens source)).map fun d =>
        d.moved ((receivers (tokens source)).filter (·.span.stop ≤ d.span.start)).card := by
  have hmoved := lexicalDiagnostics_punctuated
    (fun x (hx : x ∈ decisions (lexemes source)) => chars_ne_nil_of_mem_decisions hx) 0 0 0 0
  simp only [map_fst_decisions, Nat.zero_add, ← card_filter_receivers] at hmoved
  rw [tokens_eq_inPlace (withSemicolons _), lexemes_withSemicolons_tokens]
  exact hmoved

end Source

/-- Cutting a converted text gives the tokens of its source text with a semicolon behind each one
    that received it, and the problems of the same lexemes, moved by the semicolons in front of
    them. -/
theorem convert_relexed {policy : Policy} {name : Option String} {source : String}
    {r : Conversion} (h : (convert policy name source).result = .ok r) :
    ∃ receiving : Finset Token, (∀ t ∈ receiving, t ∈ tokens source) ∧
      r.output = insertSemicolons (receiving.image (·.span.stop)) source ∧
      r.inserted = receiving.card ∧
      (tokens r.output).map Token.shape = (tokens source).flatMap (fun t =>
        t.shape :: if t ∈ receiving then [semicolonShape] else []) ∧
      lexicalDiagnostics (tokens r.output) = (lexicalDiagnostics (tokens source)).map fun d =>
        d.moved (receiving.filter (·.span.stop ≤ d.span.start)).card := by
  rw [eq_ofSource_of_convert h, Conversion.output_ofSource, Conversion.inserted_ofSource]
  refine ⟨receivers (tokens source), ?_, withSemicolons_eq_insertSemicolons source,
    (card_receivers_tokens source).symm, ?_, ?_⟩
  · intro t ht
    rw [← map_fst_marked_tokens source]
    exact List.mem_map_of_mem (mem_receivers.mp ht)
  · rw [flatMap_shape_tokens, tokens_eq_inPlace, map_shape_inPlace,
      lexemes_withSemicolons_tokens]
  · exact lexicalDiagnostics_withSemicolons source

theorem convert_relexed_open_string :
    (convert .ignore none "x\n\"a").result =
        .ok ⟨"x;\n\"a", 1, [.lexical "string literal not terminated" ⟨2, 4⟩]⟩ ∧
      ∃ receiving : Finset Token, receiving.card = 1 ∧
        (tokens "x;\n\"a").map Token.shape = (tokens "x\n\"a").flatMap (fun t =>
          t.shape :: if t ∈ receiving then [semicolonShape] else []) ∧
        lexicalDiagnostics (tokens "x;\n\"a") =
          (lexicalDiagnostics (tokens "x\n\"a")).map fun d =>
            d.moved (receiving.filter (·.span.stop ≤ d.span.start)).card := by
  have hresult : (convert .ignore none "x\n\"a").result =
      .ok ⟨"x;\n\"a", 1, [.lexical "string literal not terminated" ⟨2, 4⟩]⟩ := rfl
  obtain ⟨receiving, -, -, hcard, hshapes, hdiagnostics⟩ := convert_relexed hresult
  exact ⟨hresult, receiving, hcard.symm, hshapes, hdiagnostics⟩

end Semicolons
