import Semicolons.Proofs.Conversion
import Semicolons.Proofs.Insertion.Points
import Semicolons.Proofs.Lexeme.Maximal
import Semicolons.Proofs.Problem.Lexical

/-!
# The rule of insertion

`TakesSemicolon` is the rule by which semicolons are written, in terms of the whole gap between a
visible token and the next one, however long it is, and of the problems that are reported. What
is decided at a place, by a look at the last two tokens of the gap and at the fault of the token,
is the same, because the gap of a text never holds two runs of blanks side by side
(`breakBehind_iff`) and the place of a report belongs to one token only (`leftOpen_iff`).
-/

namespace Semicolons

/-- A run of line breaks, or a block comment that spans lines. -/
def Token.IsLineBreak (t : Token) : Prop :=
  t.kind = .lineBreaks ∨ t.kind = .blockComment ∧ ('\r' ∈ t.chars ∨ '\n' ∈ t.chars)

/-- Layout in which a line ends: it holds a line break, and nothing but blanks stands behind the
    last one. -/
def EndsLine (gap : List Token) : Prop :=
  ∃ before b after, gap = before ++ b :: after ∧ b.IsLineBreak ∧ ∀ w ∈ after, w.kind = .blanks

/-- A string, a rune or a raw string that is reported as never closed. -/
def LeftOpen (stream : List Token) (t : Token) : Prop :=
  (t.kind = .string ∨ t.kind = .rune ∨ t.kind = .rawString) ∧
    ∃ f ∈ openLiterals, Diagnostic.lexical f.message t.span ∈ lexicalDiagnostics stream

/-- A visible token of a stream behind which a semicolon belongs: a statement can end on it, it is
    not left open, and the next visible token is no semicolon and either the end of the input or
    the first one of its line. -/
def TakesSemicolon (stream : List Token) (t : Token) : Prop :=
  ∃ before gap n after, stream = before ++ t :: (gap ++ n :: after) ∧
    t.channel = .visible ∧ (∀ g ∈ gap, g.channel = .hidden) ∧ n.channel = .visible ∧
    t.kind.endsStatement = true ∧ ¬ LeftOpen stream t ∧ n.text? ≠ some ";" ∧
    (n.kind = .endOfInput ∨ EndsLine gap)

theorem Token.isLineBreak_iff {t : Token} : t.IsLineBreak ↔ t.breaksLine = true := by
  have hchars : (∃ c ∈ t.chars, Semicolons.isLineBreak c = true) ↔
      '\r' ∈ t.chars ∨ '\n' ∈ t.chars := by
    simp [Semicolons.isLineBreak, and_or_left, exists_or]
  rw [IsLineBreak, Lexeme.breaksLine_iff, hchars]

/-- Where no two runs of blanks stand side by side, a look at two lexemes finds the last break. -/
theorem breakBehind_iff {behind : List Lexeme} (hchain : behind.IsChain NotBothBlanks) :
    Lexeme.breakBehind behind = true ↔ ∃ after b before, behind = after ++ b :: before ∧
      b.breaksLine = true ∧ ∀ w ∈ after, w.kind = .blanks := by
  cases behind with
  | nil => simp [Lexeme.breakBehind]
  | cons l behind =>
    rw [Lexeme.breakBehind]
    by_cases hk : l.kind = .blanks
    · rw [if_pos hk]
      constructor
      · intro h
        obtain ⟨b, hb, hbreak⟩ := (Option.any_eq_true _ _).mp h
        obtain ⟨before, rfl⟩ := List.head?_eq_some_iff.mp hb
        exact ⟨[l], b, before, rfl, hbreak, by simpa using hk⟩
      · rintro ⟨after, b, before, hsplit, hb, hafter⟩
        rcases after with _ | ⟨x, _ | ⟨w, after⟩⟩
        · obtain ⟨rfl, -⟩ := List.cons.inj hsplit
          simp [Lexeme.breaksLine, hk] at hb
        · obtain ⟨-, rfl⟩ := List.cons.inj hsplit
          exact hb
        · obtain ⟨-, rfl⟩ := List.cons.inj hsplit
          have hw : w.kind = .blanks := hafter w (by simp)
          exact absurd ⟨hk, hw⟩ (hchain.rel_head? rfl)
    · rw [if_neg hk]
      constructor
      · intro h
        exact ⟨[], l, behind, rfl, h, by simp⟩
      · rintro ⟨after, b, before, hsplit, hb, hafter⟩
        cases after with
        | nil =>
          obtain ⟨rfl, -⟩ := List.cons.inj hsplit
          exact hb
        | cons w after =>
          obtain ⟨rfl, -⟩ := List.cons.inj hsplit
          exact absurd (hafter l List.mem_cons_self) hk

theorem endsLine_iff {gap : List Token}
    (hchain : (gap.map Token.toLexeme).IsChain NotBothBlanks) :
    EndsLine gap ↔ Lexeme.breakBehind (gap.map Token.toLexeme).reverse = true := by
  have hreverse : (gap.map Token.toLexeme).reverse.IsChain NotBothBlanks := by
    rw [List.isChain_reverse]
    exact hchain.imp fun _ _ h hboth => h hboth.symm
  rw [breakBehind_iff hreverse]
  constructor
  · rintro ⟨before, b, after, rfl, hb, hafter⟩
    refine ⟨(after.map Token.toLexeme).reverse, b.toLexeme, (before.map Token.toLexeme).reverse,
      by simp, Token.isLineBreak_iff.mp hb, ?_⟩
    simpa using hafter
  · rintro ⟨after, b, before, hsplit, hb, hafter⟩
    have hmap : gap.map Token.toLexeme = before.reverse ++ b :: after.reverse := by
      rw [← List.reverse_reverse (gap.map Token.toLexeme), hsplit]
      simp
    obtain ⟨before', rest, rfl, -, hrest⟩ := List.map_eq_append_iff.mp hmap
    obtain ⟨b', after', rfl, rfl, hafter'⟩ := List.map_eq_cons_iff.mp hrest
    refine ⟨before', b', after', rfl, Token.isLineBreak_iff.mpr hb, ?_⟩
    intro w hw
    apply hafter w.toLexeme
    rw [← List.mem_reverse, ← hafter']
    exact List.mem_map_of_mem hw

/-- In front of a gap and a visible lexeme, the decision reads as the rule does. -/
theorem wantsSemicolon_gap {l n : Lexeme} {gap after : List Lexeme}
    (hgap : ∀ g ∈ gap, g.isLayout = true) (hn : n.isLayout = false) :
    l.wantsSemicolon (gap ++ n :: after) = true ↔
      l.kind.endsStatement = true ∧ l.fault = none ∧ n.text? ≠ some ";" ∧
        (n.kind = .endOfInput ∨ Lexeme.breakBehind gap.reverse = true) := by
  rw [wantsSemicolon_gap_append hgap hn]
  simp only [Bool.and_eq_true, Bool.or_eq_true, Bool.not_eq_true', Option.isNone_iff_eq_none,
    Lexeme.isEnd, beq_iff_eq, beq_eq_false_iff_ne, ne_eq, and_assoc]
  constructor
  · rintro ⟨-, h⟩
    exact h
  · rintro ⟨hends, h⟩
    exact ⟨Lexeme.visible_of_endsStatement hends, hends, h⟩

/-- A semicolon is wanted only in front of a visible token. -/
theorem exists_find?_of_wantsSemicolon {l : Lexeme} {rest : List Token}
    (h : l.wantsSemicolon (rest.map Token.toLexeme) = true) :
    ∃ n, rest.find? (!·.isLayout) = some n := by
  by_contra hnone
  have hfind : (rest.map Token.toLexeme).find? (!·.isLayout) = none := by
    rw [List.find?_map]
    exact congrArg (Option.map Token.toLexeme) (Option.eq_none_iff_forall_ne_some.mpr
      fun n hn => hnone ⟨n, hn⟩)
  rw [Lexeme.wantsSemicolon, hfind, Option.any_none, Bool.and_false] at h
  cases h

section Source

variable {source : String} {t : Token}

/-- No two tokens that follow one another are both blanks. -/
theorem isChain_tokens (source : String) :
    ((tokens source).map Token.toLexeme).IsChain NotBothBlanks := by
  rw [map_toLexeme_tokens]
  exact (cuts_lexemes source).isChain_adjoins.imp fun _ _ h => h.1

/-- The same holds of the tokens that follow a token. -/
theorem isChain_gap {before gap after : List Token}
    (hsplit : tokens source = before ++ t :: (gap ++ after)) :
    (gap.map Token.toLexeme).IsChain NotBothBlanks := by
  have hall := isChain_tokens source
  rw [hsplit, List.map_append, List.map_cons, List.map_append] at hall
  exact hall.right_of_append.tail.left_of_append

theorem isHidden_iff (ht : t ∈ tokens source) : t.isLayout = true ↔ t.channel = .hidden := by
  rw [channel_of_mem_tokens ht, Lexeme.isLayout, beq_iff_eq]

theorem isVisible_iff (ht : t ∈ tokens source) : t.isLayout = false ↔ t.channel = .visible := by
  rw [channel_of_mem_tokens ht, Lexeme.isLayout]
  cases t.kind.channel <;> simp

/-- The tokens on which a statement can end and which are not left open are those that have no
    fault. -/
theorem leftOpen_iff (ht : t ∈ tokens source) (hends : t.kind.endsStatement = true) :
    LeftOpen (tokens source) t ↔ t.fault ≠ none := by
  have hne := Lexeme.ne_endOfInput_of_endsStatement hends
  have hmem := mem_lexemes_of_mem_tokens ht hne
  constructor
  · rintro ⟨-, f, -, hd⟩
    obtain ⟨f', hf', -⟩ := fault_of_mem_lexicalDiagnostics ht (span_lt_of_mem_tokens ht hne) hd
    rw [hf']
    exact Option.some_ne_none f'
  · intro hfault
    obtain ⟨f, hf⟩ := Option.ne_none_iff_exists'.mp hfault
    obtain ⟨hkind, hopen⟩ := (cuts_lexemes source).openLiteral_of_fault hmem hends hf
    exact ⟨hkind, f, hopen, mem_lexicalDiagnostics.mpr ⟨t, ht, f, hf, rfl⟩⟩

/-- Around the gap behind a token of a text, the decision is the rule. -/
theorem wantsSemicolon_iff {before gap after : List Token} {n : Token}
    (hsplit : tokens source = before ++ t :: (gap ++ n :: after))
    (hgap : ∀ g ∈ gap, g.channel = .hidden) (hn : n.channel = .visible) :
    t.toLexeme.wantsSemicolon ((gap ++ n :: after).map Token.toLexeme) = true ↔
      t.kind.endsStatement = true ∧ ¬ LeftOpen (tokens source) t ∧ n.text? ≠ some ";" ∧
        (n.kind = .endOfInput ∨ EndsLine gap) := by
  have ht : t ∈ tokens source := by simp [hsplit]
  have hlayout : ∀ l ∈ gap.map Token.toLexeme, l.isLayout = true := by
    intro l hl
    obtain ⟨g, hg, rfl⟩ := List.mem_map.mp hl
    have hmem : g ∈ tokens source := by simp [hsplit, hg]
    exact (isHidden_iff hmem).mpr (hgap g hg)
  have hmem : n ∈ tokens source := by simp [hsplit]
  have hvisible : n.isLayout = false := (isVisible_iff hmem).mpr hn
  rw [List.map_append, List.map_cons, wantsSemicolon_gap hlayout hvisible,
    endsLine_iff (isChain_gap hsplit)]
  refine and_congr_right fun hends => and_congr_left' ?_
  rw [leftOpen_iff ht hends, not_not]

/-- Semicolons are written where they belong by the rule. -/
theorem mem_receivers_iff : t ∈ receivers (tokens source) ↔ TakesSemicolon (tokens source) t := by
  rw [mem_receivers, marked_eq fun _ => channel_of_mem_tokens, mem_markedByLexemes]
  constructor
  · rintro ⟨before, rest, hsplit, hwants⟩
    obtain ⟨n, hfind⟩ := exists_find?_of_wantsSemicolon hwants
    obtain ⟨gap, after, rfl, hgap, hn⟩ := exists_gap hfind
    have hhidden : ∀ g ∈ gap, g.channel = .hidden := by
      intro g hg
      have hmem : g ∈ tokens source := by simp [hsplit, hg]
      exact (isHidden_iff hmem).mp (hgap g hg)
    have hmem : n ∈ tokens source := by simp [hsplit]
    have hvisible : n.channel = .visible := (isVisible_iff hmem).mp hn
    obtain ⟨hends, hrest⟩ := (wantsSemicolon_iff hsplit hhidden hvisible).mp hwants
    have ht : t ∈ tokens source := by simp [hsplit]
    have hchannel : t.channel = .visible := by
      rw [channel_of_mem_tokens ht, Kind.channel_of_endsStatement hends]
    exact ⟨before, gap, n, after, hsplit, hchannel, hhidden, hvisible, hends, hrest⟩
  · rintro ⟨before, gap, n, after, hsplit, -, hgap, hn, hrule⟩
    exact ⟨before, gap ++ n :: after, hsplit, (wantsSemicolon_iff hsplit hgap hn).mpr hrule⟩

theorem ne_endOfInput_of_mem_receivers (h : t ∈ receivers (tokens source)) :
    t.toLexeme ≠ Lexeme.endOfInput := by
  obtain ⟨before, gap, n, after, -, -, -, -, hends, -⟩ := mem_receivers_iff.mp h
  exact Lexeme.ne_endOfInput_of_endsStatement hends

/-- A semicolon is written between a token and the next visible one if the token receives it. -/
theorem exists_point_between_iff {before gap after : List Token} {n : Token}
    (hsplit : tokens source = before ++ t :: (gap ++ n :: after))
    (hgap : ∀ g ∈ gap, g.channel = .hidden) (ht : t.toLexeme ≠ Lexeme.endOfInput) :
    (∃ p ∈ insertionPoints (tokens source), t.span.stop ≤ p ∧ p ≤ n.span.start) ↔
      t ∈ receivers (tokens source) := by
  have hpair : (tokens source).Pairwise fun a b => a.span.stop ≤ b.span.start :=
    (pairwise_inPlace 0 0 _).imp And.right
  rw [hsplit, List.pairwise_append] at hpair
  obtain ⟨-, hpair, hbefore⟩ := hpair
  obtain ⟨hbehind, hpair⟩ := List.pairwise_cons.mp hpair
  obtain ⟨-, hpair, -⟩ := List.pairwise_append.mp hpair
  obtain ⟨hafter, -⟩ := List.pairwise_cons.mp hpair
  constructor
  · rintro ⟨p, hp, hle, hge⟩
    obtain ⟨t', hmarked, rfl⟩ := mem_insertionPoints.mp hp
    have ht' : t' ∈ receivers (tokens source) := mem_receivers.mpr hmarked
    have hmem : t' ∈ tokens source := by
      rw [← map_fst_marked_tokens source]
      exact List.mem_map_of_mem hmarked
    have hlt := span_lt_of_mem_tokens hmem (ne_endOfInput_of_mem_receivers ht')
    have htmem : t ∈ tokens source := by simp [hsplit]
    have htlt := span_lt_of_mem_tokens htmem ht
    have hnmem : n ∈ tokens source := by simp [hsplit]
    obtain ⟨-, -, hnstop⟩ := bounds_of_mem_inPlace hnmem
    have hcases : t' ∈ before ∨ t' = t ∨ t' ∈ gap ∨ t' = n ∨ t' ∈ after := by
      simpa [hsplit] using hmem
    -- A receiver elsewhere ends in front of `t`, or begins at or behind `n`.
    rcases hcases with hmem | rfl | hmem | rfl | hmem
    · have hstop := hbefore t' hmem t List.mem_cons_self
      omega
    · exact ht'
    · obtain ⟨_, _, _, _, -, hvisible, -⟩ := mem_receivers_iff.mp ht'
      rw [hgap t' hmem] at hvisible
      cases hvisible
    · omega
    · have hstart := hafter t' hmem
      omega
  · intro h
    exact ⟨t.span.stop, mem_insertionPoints.mpr ⟨t, mem_receivers.mp h, rfl⟩, Nat.le_refl _,
      hbehind n (by simp)⟩

end Source

/-- A conversion writes one semicolon after each token that takes one by the rule, and changes
    nothing else. -/
theorem convert_writes_by_rule {policy : Policy} {name : Option String} {source : String}
    {r : Conversion} (h : (convert policy name source).result = .ok r) :
    ∃ taking : Finset Token, (∀ t, t ∈ taking ↔ TakesSemicolon (tokens source) t) ∧
      r.output = insertSemicolons (taking.image (·.span.stop)) source ∧
      r.inserted = taking.card ∧
      r.output.utf8ByteSize = source.utf8ByteSize + r.inserted ∧
      (r.inserted = 0 ↔ r.output = source) := by
  rw [eq_ofSource_of_convert h, Conversion.output_ofSource, Conversion.inserted_ofSource]
  have hsize := utf8ByteSize_withSemicolons_tokens source
  refine ⟨receivers (tokens source), fun _ => mem_receivers_iff,
    withSemicolons_eq_insertSemicolons source, (card_receivers_tokens source).symm, hsize, ?_, ?_⟩
  · intro hzero
    have hpoints : insertionPoints (tokens source) = ∅ := by
      rw [← Finset.card_eq_zero, card_insertionPoints_tokens, hzero]
    rw [withSemicolons_eq_insertSemicolons, hpoints, insertSemicolons_empty]
  · intro hsame
    rw [hsame] at hsize
    omega

theorem convert_writes_behind_name :
    (convert .fatal none "x\n").result = .ok ⟨"x;\n", 1, []⟩ ∧
      ∃ taking : Finset Token, (∀ t, t ∈ taking ↔ TakesSemicolon (tokens "x\n") t) ∧
        insertSemicolons (taking.image (·.span.stop)) "x\n" = "x;\n" ∧ taking.card = 1 := by
  have hresult : (convert .fatal none "x\n").result = .ok ⟨"x;\n", 1, []⟩ := rfl
  obtain ⟨taking, hrule, houtput, hcard, hsize, hsame⟩ := convert_writes_by_rule hresult
  exact ⟨hresult, taking, hrule, houtput.symm, hcard.symm⟩

example : withSemicolons (tokens "x := f(\n  y)\nz++ // w") = "x := f(\n  y);\nz++; // w" := by
  decide

example : semicolonCount (tokens "a\n\"b\n)") = 2 := by
  decide

end Semicolons
