import Semicolons.Proofs.Insertion.Relexing
import Semicolons.Proofs.Insertion.Rule
import Semicolons.Proofs.Nesting.Word
import Semicolons.Proofs.Problem.Structural
import Semicolons.Proofs.Signature.Defect
import Semicolons.Proofs.Site.Sequence

/-!
# Declarations of functions

A declaration is a `func` with a name, whose receiver, type parameters and parameters are groups of
nested brackets. Its signature is read to the end of its parameters, so that a brace behind a line
feed is reported there (`defect?_of_declaration`). In a text that is accepted, no line feed parts
the parameters from a brace that comes next.

That does not keep semicolons away from there. A carriage return without a line feed ends a line
as well when semicolons are written, but it is not looked for in front of a body. So a semicolon
cuts off the body of an accepted declaration exactly where a carriage return ends the line in front
of it (`convert_attaches_bodies`), which can happen (`convert_detaches_body_at_return`).
-/

namespace Semicolons

/-- A bracket of the given kind, tokens of which the brackets nest, and the bracket that closes the
    first one. -/
def IsGroup (b : Bracket) (ts : List Token) : Prop :=
  ∃ opener inner closer, ts = opener :: (inner ++ [closer]) ∧
    opener.kind.bracket? = some (.opening, b) ∧ Nested (brackets inner) ∧
    closer.kind.bracket? = some (.closing, b)

/-- The visible tokens of a stream hold a declaration: `func`, perhaps a receiver, a name, perhaps
    type parameters, and parameters that end with `closer`, directly followed by `brace`. -/
def DeclaresBody (stream : List Token) (closer brace : Token) : Prop :=
  ∃ before func receiver name types params after,
    visibleTokens stream =
      before ++ func :: (receiver ++ name :: (types ++ (params ++ closer :: brace :: after))) ∧
    func.kind = .keyword .func ∧ (receiver = [] ∨ IsGroup .round receiver) ∧
    name.kind = .identifier ∧ (types = [] ∨ IsGroup .square types) ∧
    IsGroup .round (params ++ [closer]) ∧ brace.kind = .punctuation .lBrace

/-- Layout in which a carriage return ends a line: it holds a run of line breaks or a block comment
    with one in it, and nothing but blanks stands behind. -/
def EndsInReturn (gap : List Token) : Prop :=
  ∃ before b after, gap = before ++ b :: after ∧ (b.kind = .lineBreaks ∨ b.kind = .blockComment) ∧
    '\r' ∈ b.chars ∧ ∀ w ∈ after, w.kind = .blanks

namespace Signature

section Group

variable {b : Bracket} {g rest : List Site}

/-- A group of tokens is found by its first site. -/
theorem afterGroup?_of_group (h : IsGroup b (g.map Site.token)) (hpaired : Paired (g ++ rest)) :
    afterGroup? (g ++ rest) = some rest := by
  obtain ⟨opener, inner, closer, hsplit, hopener, hnested, hcloser⟩ := h
  obtain ⟨s, behind, rfl, rfl, hbehind⟩ := List.map_eq_cons_iff.mp hsplit
  obtain ⟨i, last, rfl, rfl, hlast⟩ := List.map_eq_append_iff.mp hbehind
  obtain ⟨c, rfl, rfl⟩ := List.map_eq_singleton_iff.mp hlast
  rw [List.cons_append] at hpaired ⊢
  have hkinds : (i ++ [c] ++ rest).map Site.kind =
      (i.map Site.token).map (·.kind) ++ c.token.kind :: rest.map Site.kind := by
    simp [Function.comp_def, Site.kind]
  have hinside : s.inside = some (i.map Site.token).length := by
    rw [hpaired.1, hkinds]
    exact inside?_of_nested hnested hopener hcloser _
  rw [afterGroup?_cons, hinside]
  simp

theorem beginsWith_of_group (h : IsGroup b (g.map Site.token)) :
    beginsWith (g ++ rest) (.opening b) = true := by
  obtain ⟨opener, inner, closer, hsplit, hopener, -⟩ := h
  obtain ⟨s, behind, rfl, rfl, -⟩ := List.map_eq_cons_iff.mp hsplit
  exact isMark_opening_iff.mpr hopener

end Group

section Declaration

variable {receiver types params after : List Site} {name brace : Site}

theorem namedParameters?_of_declaration (hname : name.kind = .identifier)
    (htypes : types = [] ∨ IsGroup .square (types.map Site.token))
    (hparams : IsGroup .round (params.map Site.token))
    (hpaired : Paired (name :: (types ++ (params ++ after)))) :
    namedParameters? (name :: (types ++ (params ++ after))) = some (params ++ after) := by
  refine namedParameters?_eq_some_iff.mpr ⟨name, _, rfl, hname, beginsWith_of_group hparams, ?_⟩
  rcases htypes with rfl | htypes
  · exact Or.inl rfl
  · exact Or.inr ⟨beginsWith_of_group htypes, afterGroup?_of_group htypes hpaired.2⟩

/-- The parameters of a declaration are found, with a receiver or without. -/
theorem parameters?_of_declaration
    (hreceiver : receiver = [] ∨ IsGroup .round (receiver.map Site.token))
    (hname : name.kind = .identifier)
    (htypes : types = [] ∨ IsGroup .square (types.map Site.token))
    (hparams : IsGroup .round (params.map Site.token))
    (hpaired : Paired (receiver ++ name :: (types ++ (params ++ after)))) :
    parameters? (receiver ++ name :: (types ++ (params ++ after))) =
      .ok (some (params ++ after)) := by
  have hnamed := namedParameters?_of_declaration hname htypes hparams hpaired.of_append
  rcases hreceiver with rfl | hreceiver
  · rw [List.nil_append, parameters?_named (isMark_of_kind_eq hname), hnamed]
  · have hfollow : followReceiver (name :: (types ++ (params ++ after))) = true := by
      refine Bool.and_eq_true_iff.mpr ⟨beginsWithName_iff.mpr ⟨name, _, rfl, hname⟩, ?_⟩
      rcases htypes with rfl | htypes
      · exact Bool.or_eq_true_iff.mpr (Or.inl (beginsWith_of_group hparams))
      · exact Bool.or_eq_true_iff.mpr (Or.inr (beginsWith_of_group htypes))
    have hgroup := afterGroup?_of_group hreceiver hpaired
    obtain ⟨s, tail, hsplit, hmark⟩ := beginsWith_iff.mp (beginsWith_of_group hreceiver)
    rw [hsplit] at hgroup ⊢
    rw [parameters?_receiver hmark hgroup hfollow, hnamed]

/-- A declaration is defective if its body begins behind a line feed. -/
theorem defect?_of_declaration
    (hreceiver : receiver = [] ∨ IsGroup .round (receiver.map Site.token))
    (hname : name.kind = .identifier)
    (htypes : types = [] ∨ IsGroup .square (types.map Site.token))
    (hparams : IsGroup .round (params.map Site.token)) (hbrace : brace.isMark .lBrace = true)
    (hfeed : brace.followsLineFeed = true)
    (hpaired : Paired (receiver ++ name :: (types ++ (params ++ brace :: after)))) :
    defect? (receiver ++ name :: (types ++ (params ++ brace :: after))) =
      some (.detachedBody brace.token) := by
  have hbehind : Paired (params ++ brace :: after) := by
    have htail := hpaired.of_append.2
    exact htail.of_append
  refine defect?_eq_some_iff.mpr (Or.inr (Or.inr ⟨params ++ brace :: after, brace :: after, brace,
    after, ?_, ?_, ?_, hbrace, hfeed, rfl⟩))
  · exact parameters?_of_declaration hreceiver hname htypes hparams hpaired
  · exact afterGroup?_of_group hparams hbehind
  · exact afterResult_lineFeed hfeed

end Declaration

end Signature

theorem IsGroup.closing {b : Bracket} {ts : List Token} {closer : Token}
    (h : IsGroup b (ts ++ [closer])) : closer.kind.bracket? = some (.closing, b) := by
  obtain ⟨opener, inner, last, hsplit, -, -, hlast⟩ := h
  rw [← List.cons_append] at hsplit
  obtain ⟨-, hsame⟩ := List.append_inj' hsplit rfl
  rwa [List.singleton_inj.mp hsame]

/-- The body of a declaration is a site, and a defect is reported if a line feed precedes it. -/
theorem exists_site_of_declares {stream : List Token} {closer brace : Token}
    (h : DeclaresBody stream closer brace) :
    ∃ s ∈ sites stream, s.token = brace ∧
      (s.followsLineFeed = true → .detachedBody brace ∈ Signature.defects (sites stream)) := by
  obtain ⟨before, func, receiver, name, types, params, after, hvisible, hfunc, hreceiver, hname,
    htypes, hparams, hbrace⟩ := h
  have hsites : (sites stream).map Site.token = before ++ func :: (receiver ++ name ::
      (types ++ ((params ++ [closer]) ++ brace :: after))) := by
    rw [map_token_sites, hvisible]
    simp
  obtain ⟨sbefore, s₁, hsplit, -, h₁⟩ := List.map_eq_append_iff.mp hsites
  obtain ⟨sfunc, s₂, rfl, rfl, h₂⟩ := List.map_eq_cons_iff.mp h₁
  obtain ⟨sreceiver, s₃, rfl, rfl, h₃⟩ := List.map_eq_append_iff.mp h₂
  obtain ⟨sname, s₄, rfl, rfl, h₄⟩ := List.map_eq_cons_iff.mp h₃
  obtain ⟨stypes, s₅, rfl, rfl, h₅⟩ := List.map_eq_append_iff.mp h₄
  obtain ⟨sparams, s₆, rfl, hparamsTokens, h₆⟩ := List.map_eq_append_iff.mp h₅
  obtain ⟨sbrace, safter, rfl, rfl, -⟩ := List.map_eq_cons_iff.mp h₆
  refine ⟨sbrace, by simp [hsplit], rfl, ?_⟩
  intro hfeed
  have hpaired := paired_sites stream
  rw [hsplit] at hpaired
  have hdefect := Signature.defect?_of_declaration (by simpa using hreceiver) hname
    (by simpa using htypes) (hparamsTokens ▸ hparams) (beq_iff_eq.mpr hbrace) hfeed
    hpaired.of_append.2
  exact Signature.mem_defects.mpr ⟨sbefore, sfunc, _, hsplit, hfunc, hdefect⟩

/-- Where signatures have no defects, only layout without a line feed stands in front of the body of
    a declaration. -/
theorem exists_gap_of_declares {stream : List Token} {closer brace : Token}
    (hnodup : stream.Nodup) (hnone : Signature.defects (sites stream) = [])
    (h : DeclaresBody stream closer brace) :
    ∃ before gap after, stream = before ++ closer :: (gap ++ brace :: after) ∧
      (∀ g ∈ gap, g.isHidden = true) ∧ brace.isHidden = false ∧
      ∀ g ∈ gap, g.hasLineFeed = false := by
  obtain ⟨s, hs, rfl, hdefect⟩ := exists_site_of_declares h
  obtain ⟨first, func, receiver, name, types, params, second, hvisible, -⟩ := h
  have hadjacent : visibleTokens stream =
      (first ++ func :: (receiver ++ name :: (types ++ params))) ++ closer :: s.token :: second := by
    simp [hvisible]
  obtain ⟨before, gap, after, hsplit, hcloser, hgap, hbrace⟩ :=
    exists_gap_of_visibleTokens hadjacent
  refine ⟨before, gap, after, hsplit, hgap, hbrace, ?_⟩
  have hfeed : s.followsLineFeed = false := by
    cases hfeed : s.followsLineFeed with
    | false => rfl
    | true =>
      have hmem := hdefect hfeed
      rw [hnone] at hmem
      cases hmem
  rw [followsLineFeed_of_gap hnodup hs hcloser hgap hbrace hsplit, List.any_eq_false] at hfeed
  intro g hg
  simpa using hfeed g hg

section Source

variable {name : Option String} {source : String} {r : Conversion} {closer brace : Token}

/-- Only a semicolon is spelled as one. -/
theorem text?_ne_semicolon {t : Token} (ht : t ∈ tokens source) {m : Punctuation}
    (hkind : t.kind = .punctuation m) (hm : m ≠ .semicolon) : t.text? ≠ some ";" := by
  have hend : t.toLexeme ≠ Lexeme.endOfInput := by
    intro heq
    rw [heq] at hkind
    cases hkind
  have hchars := (cuts_lexemes source).chars_of_punctuation (mem_lexemes_of_mem_tokens ht hend) hkind
  intro htext
  have hsemi : t.text = ";" := by
    simpa [Lexeme.text?, Lexeme.isEnd, hkind] using htext
  have hmem : ';' ∈ m.spelling.toList := by
    rw [← hchars, Lexeme.chars, hsemi]
    decide
  exact hm (Punctuation.eq_semicolon_of_mem hmem)

/-- Without line feeds, a line ends only with a carriage return. -/
theorem endsLine_iff_endsInReturn {gap : List Token} (hmem : ∀ g ∈ gap, g ∈ tokens source)
    (hnone : ∀ g ∈ gap, '\n' ∉ g.chars) : EndsLine gap ↔ EndsInReturn gap := by
  constructor
  · rintro ⟨before, b, after, rfl, hbreak, hafter⟩
    have hb : b ∈ before ++ b :: after := by simp
    refine ⟨before, b, after, rfl, hbreak.imp_right And.left, ?_, hafter⟩
    have hend : b.toLexeme ≠ Lexeme.endOfInput := by
      intro heq
      rw [Token.IsLineBreak, heq] at hbreak
      simp [Lexeme.endOfInput] at hbreak
    obtain ⟨x, hx, hxbreak⟩ := (cuts_lexemes source).exists_lineBreak
      (mem_lexemes_of_mem_tokens (hmem b hb) hend) (Token.isLineBreak_iff.mp hbreak)
    have hfeed : x ≠ '\n' := by
      rintro rfl
      exact hnone b hb hx
    obtain rfl : x = '\r' := by simpa [isLineBreak, hfeed] using hxbreak
    exact hx
  · rintro ⟨before, b, after, rfl, hkind, hreturn, hafter⟩
    exact ⟨before, b, after, rfl, hkind.imp_right fun hk => ⟨hk, Or.inl hreturn⟩, hafter⟩

/-- The parenthesis in front of a body receives a semicolon if a carriage return ends the line
    between the two. -/
theorem mem_receivers_of_gap {before gap after : List Token}
    (hsplit : tokens source = before ++ closer :: (gap ++ brace :: after))
    (hcloser : closer.kind = .punctuation .rParen) (hgap : ∀ g ∈ gap, g.channel = .hidden)
    (hvisible : brace.channel = .visible) (hbrace : brace.kind = .punctuation .lBrace)
    (hnone : ∀ g ∈ gap, '\n' ∉ g.chars) :
    closer ∈ receivers (tokens source) ↔ EndsInReturn gap := by
  have hbraceMem : brace ∈ tokens source := by simp [hsplit]
  have hgapMem : ∀ g ∈ gap, g ∈ tokens source := fun g hg => by simp [hsplit, hg]
  have hends : closer.kind.endsStatement = true := by
    rw [hcloser]
    rfl
  have hclosed : ¬ LeftOpen (tokens source) closer := by
    rintro ⟨hkind, -⟩
    simp [hcloser] at hkind
  have htext : brace.text? ≠ some ";" := text?_ne_semicolon hbraceMem hbrace (by decide)
  have hnotEnd : brace.kind ≠ .endOfInput := by simp [hbrace]
  have hmarked : (closer, closer.toLexeme.wantsSemicolon
      ((gap ++ brace :: after).map Token.toLexeme)) ∈ marked (tokens source) := by
    rw [marked_eq fun _ => channel_of_mem_tokens]
    exact mem_markedByLexemes.mpr ⟨before, _, hsplit, rfl⟩
  rw [mem_receivers_iff_marked hmarked, wantsSemicolon_iff hsplit hgap hvisible,
    endsLine_iff_endsInReturn hgapMem hnone]
  constructor
  · rintro ⟨-, -, -, hend | hreturn⟩
    · exact absurd hend hnotEnd
    · exact hreturn
  · intro hreturn
    exact ⟨hends, hclosed, htext, Or.inr hreturn⟩

/-- In a text that is accepted, no line feed parts the parameters of a declaration from a brace that
    comes next. A semicolon is written between the two exactly where a carriage return ends the
    line. -/
theorem convert_attaches_bodies (h : (convert .fatal name source).result = .ok r)
    (hdecl : DeclaresBody (tokens source) closer brace) :
    r.output = insertSemicolons (insertionPoints (tokens source)) source ∧
      ∃ before gap after, tokens source = before ++ closer :: (gap ++ brace :: after) ∧
        (∀ g ∈ gap, g.channel = .hidden ∧ '\n' ∉ g.chars) ∧
        ((∃ p ∈ insertionPoints (tokens source),
          closer.span.stop ≤ p ∧ p ≤ brace.span.start) ↔ EndsInReturn gap) := by
  obtain ⟨rfl, hnone⟩ := convert_fatal_iff.mp h
  obtain ⟨-, hstructural⟩ := problems_eq_nil_iff.mp (List.map_eq_nil_iff.mp hnone)
  refine ⟨withSemicolons_eq_insertSemicolons source, ?_⟩
  obtain ⟨before, gap, after, hsplit, hgap, hbrace, hfeed⟩ :=
    exists_gap_of_declares (nodup_tokens source) (defects_eq_nil_of_structural hstructural) hdecl
  obtain ⟨_, _, _, _, _, _, _, _, _, _, _, _, hparams, hkind⟩ := hdecl
  have hcloser := Kind.eq_rParen hparams.closing
  have hhidden : ∀ g ∈ gap, g.channel = .hidden := by
    intro g hg
    simpa [Token.isHidden] using hgap g hg
  have hvisible : brace.channel = .visible := by
    cases hc : brace.channel with
    | visible => rfl
    | hidden => simp [Token.isHidden, hc] at hbrace
  have hlines : ∀ g ∈ gap, '\n' ∉ g.chars := by
    intro g hg hmem
    exact List.any_eq_false.mp (hfeed g hg) '\n' hmem rfl
  have hend : closer.toLexeme ≠ Lexeme.endOfInput := by
    intro heq
    rw [heq] at hcloser
    cases hcloser
  refine ⟨before, gap, after, hsplit, fun g hg => ⟨hhidden g hg, hlines g hg⟩, ?_⟩
  rw [exists_point_between_iff hsplit hhidden hend]
  exact mem_receivers_of_gap hsplit hcloser hhidden hvisible hkind hlines

end Source

theorem convert_attaches_body_of_line :
    (convert .fatal none "func f() \x7b\x7d").result = .ok ⟨"func f() \x7b\x7d;", 1, []⟩ ∧
      ∃ closer brace, DeclaresBody (tokens "func f() \x7b\x7d") closer brace ∧
        ¬ ∃ p ∈ insertionPoints (tokens "func f() \x7b\x7d"),
          closer.span.stop ≤ p ∧ p ≤ brace.span.start := by
  have hresult : (convert .fatal none "func f() \x7b\x7d").result =
      .ok ⟨"func f() \x7b\x7d;", 1, []⟩ := rfl
  have hdecl : DeclaresBody (tokens "func f() \x7b\x7d")
      ⟨⟨.punctuation .rParen, ")", none⟩, .visible, 4, ⟨7, 8⟩⟩
      ⟨⟨.punctuation .lBrace, "\x7b", none⟩, .visible, 6, ⟨9, 10⟩⟩ :=
    ⟨[], _, [], _, [], [_], _, rfl, rfl, Or.inl rfl, rfl, Or.inl rfl,
      ⟨_, [], _, rfl, rfl, .nil, rfl⟩, rfl⟩
  refine ⟨hresult, _, _, hdecl, ?_⟩
  obtain ⟨-, before, gap, after, hsplit, -, hiff⟩ := convert_attaches_bodies hresult hdecl
  rw [hiff]
  rintro ⟨first, b, last, rfl, -, hreturn, -⟩
  have hnone : ∀ t ∈ tokens "func f() \x7b\x7d", '\r' ∉ t.chars := by decide
  exact hnone b (by simp [hsplit]) hreturn

/-- A body can be cut off in a text that is accepted, by a semicolon in front of a carriage
    return. -/
theorem convert_detaches_body_at_return :
    ¬ ∀ (name : Option String) (source : String) (r : Conversion),
      (convert .fatal name source).result = .ok r → ∀ closer brace,
        DeclaresBody (tokens source) closer brace → ∀ p ∈ insertionPoints (tokens source),
          ¬ (closer.span.stop ≤ p ∧ p ≤ brace.span.start) := by
  intro h
  have hresult : (convert .fatal none "func f()\r\x7b\x7d").result =
      .ok ⟨"func f();\r\x7b\x7d;", 2, []⟩ := rfl
  have hdecl : DeclaresBody (tokens "func f()\r\x7b\x7d")
      ⟨⟨.punctuation .rParen, ")", none⟩, .visible, 4, ⟨7, 8⟩⟩
      ⟨⟨.punctuation .lBrace, "\x7b", none⟩, .visible, 6, ⟨9, 10⟩⟩ :=
    ⟨[], _, [], _, [], [_], _, rfl, rfl, Or.inl rfl, rfl, Or.inl rfl,
      ⟨_, [], _, rfl, rfl, .nil, rfl⟩, rfl⟩
  have hpoint : 8 ∈ insertionPoints (tokens "func f()\r\x7b\x7d") := by decide
  exact h none _ _ hresult _ _ hdecl 8 hpoint (by decide)

end Semicolons
