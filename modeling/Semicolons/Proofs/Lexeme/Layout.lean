import Mathlib.Tactic.ByContra
import Semicolons.Proofs.Lexeme.Cut

/-!
# Layout lexemes

What the cut of a text says about its layout. The phases of a run of blanks or of line breaks are
entered by the first character of the run, and go on with the same. Where every carriage return is
followed by a line feed, a lexeme that breaks the line holds a line feed
(`Cuts.hasLineFeed_of_breaksLine`).
-/

namespace Semicolons

/-- Every carriage return in a text is directly followed by a line feed. -/
def PairsReturns : List Char → Prop
  | [] => True
  | c :: rest => (c = '\r' → rest.head? = some '\n') ∧ PairsReturns rest

instance decidablePairsReturns : (text : List Char) → Decidable (PairsReturns text)
  | [] => inferInstanceAs (Decidable True)
  | c :: rest =>
    have := decidablePairsReturns rest
    inferInstanceAs (Decidable ((c = '\r' → rest.head? = some '\n') ∧ PairsReturns rest))

namespace PairsReturns

theorem of_append {before after : List Char} (h : PairsReturns (before ++ after)) :
    PairsReturns after := by
  induction before with
  | nil => exact h
  | cons c before ih => exact ih h.2

theorem head?_eq {before after : List Char} (h : PairsReturns (before ++ '\r' :: after)) :
    after.head? = some '\n' :=
  h.of_append.1 rfl

end PairsReturns

/-- Two lexemes that are not both runs of blanks. -/
def NotBothBlanks (a b : Lexeme) : Prop :=
  ¬ (a.kind = .blanks ∧ b.kind = .blanks)

theorem Lexeme.breaksLine_iff {l : Lexeme} :
    l.breaksLine = true ↔
      l.kind = .lineBreaks ∨ l.kind = .blockComment ∧ ∃ c ∈ l.chars, isLineBreak c = true := by
  cases hk : l.kind <;> simp [breaksLine, hk]

namespace Phase

/-- The phases in which layout stops. -/
theorem hidden_cases {q : Phase} {text : String} (h : (q.kind text).channel = .hidden) :
    q = .blanks ∨ q = .lineBreaks ∨ q = .lineComment ∨
      q = .commentSlash ∨ q = .comment ∨ q = .commentStar ∨ q = .commentEnd := by
  cases q with
  | word =>
    simp only [kind] at h
    cases hk : Keyword.ofSpelling? text <;> simp [hk, Kind.channel] at h
  | quoted quote => cases quote <;> simp [kind, Quote.kind, Kind.channel] at h
  | escape quote => cases quote <;> simp [kind, Quote.kind, Kind.channel] at h
  | quotedEnd quote => cases quote <;> simp [kind, Quote.kind, Kind.channel] at h
  | blanks | lineBreaks | lineComment | commentSlash | comment | commentStar | commentEnd => simp
  | _ => simp [kind, Kind.channel] at h

/-- Only a run of blanks or line breaks has the kind of one. -/
theorem eq_of_kind_eq {p q : Phase} {text : String} (hp : p = .blanks ∨ p = .lineBreaks)
    (h : q.kind text = p.kind text) : q = p := by
  have hhidden : (q.kind text).channel = .hidden := by rcases hp with rfl | rfl <;> rw [h] <;> rfl
  rcases hp with rfl | rfl <;>
    rcases hidden_cases hhidden with rfl | rfl | rfl | rfl | rfl | rfl | rfl <;>
    first | rfl | cases h

theorem step_eq_blanks {p : Phase} {c : Char} {next : Option Char}
    (h : p.step c next = some .blanks) : p = .blanks ∧ isBlank c = true := by
  cases p with
  | mark m left => cases left <;> cases h
  | _ => grind [step, stepDecimal, stepHexadecimal, stepExponent]

theorem step_eq_lineBreaks {p : Phase} {c : Char} {next : Option Char}
    (h : p.step c next = some .lineBreaks) : p = .lineBreaks ∧ isLineBreak c = true := by
  cases p with
  | mark m left => cases left <;> cases h
  | _ => grind [step, stepDecimal, stepHexadecimal, stepExponent]

/-- Only a run of blanks leads to one, and it consists of blanks. -/
theorem run_eq_blanks {p : Phase} {taken : List Char} {next : Option Char}
    (h : p.run taken next = some .blanks) : p = .blanks ∧ ∀ c ∈ taken, isBlank c = true :=
  run_eq_of_step (fun _ _ _ => step_eq_blanks) h

/-- Only a run of line breaks leads to one, and it consists of line breaks. -/
theorem run_eq_lineBreaks {p : Phase} {taken : List Char} {next : Option Char}
    (h : p.run taken next = some .lineBreaks) :
    p = .lineBreaks ∧ ∀ c ∈ taken, isLineBreak c = true :=
  run_eq_of_step (fun _ _ _ => step_eq_lineBreaks) h

theorem run_eq_self {p q : Phase} {taken : List Char} {next : Option Char}
    (hq : q = .blanks ∨ q = .lineBreaks) (h : p.run taken next = some q) : p = q := by
  rcases hq with rfl | rfl
  · exact (run_eq_blanks h).1
  · exact (run_eq_lineBreaks h).1

theorem isBlank_of_start {c : Char} {rest : List Char} (h : start c rest = .blanks) :
    isBlank c = true := by
  by_contra hc
  rw [start, if_neg hc] at h
  cases hl : Punctuation.longest? (c :: rest) <;>
    simp only [hl, apply_ite (· = blanks), reduceCtorEq, ite_self] at h

theorem isLineBreak_of_start {c : Char} {rest : List Char} (h : start c rest = .lineBreaks) :
    isLineBreak c = true := by
  by_contra hc
  rw [start, if_neg hc] at h
  cases hl : Punctuation.longest? (c :: rest) <;>
    simp only [hl, apply_ite (· = lineBreaks), reduceCtorEq, ite_self] at h

theorem start_ne_commentEnd (c : Char) (rest : List Char) : start c rest ≠ .commentEnd := by
  intro h
  cases hl : Punctuation.longest? (c :: rest) <;>
    simp only [start, hl, apply_ite (· = commentEnd), reduceCtorEq, ite_self] at h

theorem eq_slash_of_step {p : Phase} {c : Char} {next : Option Char}
    (h : p.step c next = some .commentEnd) : c = '/' := by
  cases p with
  | mark m left => cases left <;> cases h
  | _ => grind [step, stepDecimal, stepHexadecimal, stepExponent]

/-- The last character of a block comment that has its end is a slash. -/
theorem getLast?_of_run_commentEnd {p : Phase} {taken : List Char} {next : Option Char}
    (hp : p ≠ .commentEnd) (h : p.run taken next = some .commentEnd) :
    taken.getLast? = some '/' := by
  induction taken generalizing p with
  | nil => exact absurd (Option.some.inj h) hp
  | cons c taken ih =>
    obtain ⟨p', hstep, hrest⟩ := run_cons_eq_some.mp h
    by_cases hp' : p' = .commentEnd
    · subst hp'
      cases taken with
      | nil => rw [eq_slash_of_step hstep]; rfl
      | cons d taken =>
        obtain ⟨p'', hnone, -⟩ := run_cons_eq_some.mp hrest
        cases hnone
    · rw [List.getLast?_cons, ih hp' hrest]
      rfl

/-- A block comment or a run of line breaks that stops in front of a line feed is a comment that
    has its end. -/
theorem eq_commentEnd_of_stops {q : Phase} {text : String} {rest : List Char}
    (hkind : q.kind text = .lineBreaks ∨ q.kind text = .blockComment)
    (hstop : q.StopsBefore ('\n' :: rest)) : q = .commentEnd := by
  have hhidden : (q.kind text).channel = .hidden := by rcases hkind with h | h <;> rw [h] <;> rfl
  have hstep : q.step '\n' rest.head? = none := hstop
  rcases hidden_cases hhidden with rfl | rfl | rfl | rfl | rfl | rfl | rfl
  · simp [kind] at hkind
  · simp [step, isLineBreak] at hstep
  · simp [kind] at hkind
  · simp [step] at hstep
  · simp [step] at hstep
  · simp [step] at hstep
  · rfl

end Phase

/-- A lexeme that breaks the line holds a line break. -/
theorem Lexeme.exists_lineBreak_finish {c : Char} {taken rest : List Char} {q : Phase}
    (hrun : (Phase.start c (taken ++ rest)).run taken rest.head? = some q)
    (hbreak : (finish q (c :: taken).reverse).breaksLine = true) :
    ∃ x ∈ c :: taken, isLineBreak x = true := by
  rcases breaksLine_iff.mp hbreak with hk | ⟨-, hx⟩
  · obtain rfl : q = .lineBreaks := Phase.eq_of_kind_eq (Or.inr rfl) hk
    have hc := Phase.isLineBreak_of_start (Phase.run_eq_self (Or.inr rfl) hrun)
    exact ⟨c, List.mem_cons_self, hc⟩
  · simpa using hx

/-- Where every carriage return is followed by a line feed, a lexeme that breaks the line holds a
    line feed, since it does not stop between the two. -/
theorem Lexeme.hasLineFeed_finish {c : Char} {taken rest : List Char} {q : Phase}
    (hrun : (Phase.start c (taken ++ rest)).run taken rest.head? = some q)
    (hstop : q.StopsBefore rest) (hpairs : PairsReturns (c :: (taken ++ rest)))
    (hbreak : (finish q (c :: taken).reverse).breaksLine = true) :
    (finish q (c :: taken).reverse).hasLineFeed = true := by
  have hkinds := breaksLine_iff.mp hbreak
  obtain ⟨x, hx, hxbreak⟩ := exists_lineBreak_finish hrun hbreak
  rw [hasLineFeed, chars_finish, List.reverse_reverse, List.any_eq_true]
  by_cases hfeed : x = '\n'
  · exact ⟨x, hx, by simp [hfeed]⟩
  · obtain rfl : x = '\r' := by simpa [isLineBreak, hfeed] using hxbreak
    obtain ⟨before, after, hsplit⟩ := List.append_of_mem hx
    have hnext : (after ++ rest).head? = some '\n' := by
      rw [← List.cons_append, hsplit, List.append_assoc, List.cons_append] at hpairs
      exact hpairs.head?_eq
    cases after with
    | cons d after =>
      obtain rfl : d = '\n' := Option.some.inj hnext
      exact ⟨'\n', by simp [hsplit], rfl⟩
    | nil =>
      -- The carriage return would be the last character, but a comment that stops in front of a
      -- line feed ends with its slash.
      obtain ⟨rest, rfl⟩ := List.head?_eq_some_iff.mp hnext
      have hq : q = .commentEnd :=
        Phase.eq_commentEnd_of_stops (hkinds.imp_right And.left) hstop
      subst hq
      have hslash := Phase.getLast?_of_run_commentEnd (Phase.start_ne_commentEnd _ _) hrun
      have hlast : (c :: taken).getLast? = some '\r' := by rw [hsplit]; simp
      rw [List.getLast?_cons, hslash] at hlast
      cases hlast

namespace Cuts

variable {text : List Char} {ls : List Lexeme}

theorem pairsReturns_behind {before after : List Lexeme} {l : Lexeme}
    (h : Cuts text (before ++ l :: after)) (hpairs : PairsReturns text) :
    PairsReturns (l.chars ++ after.flatMap Lexeme.chars) := by
  rw [← h.flatMap_chars, List.flatMap_append, List.flatMap_cons] at hpairs
  exact hpairs.of_append

theorem exists_lineBreak (h : Cuts text ls) {l : Lexeme} (hl : l ∈ ls)
    (hbreak : l.breaksLine = true) : ∃ x ∈ l.chars, isLineBreak x = true := by
  obtain ⟨before, after, rfl⟩ := List.append_of_mem hl
  obtain ⟨c, taken, q, rfl, hrun, -⟩ := h.exists_run_of_append
  obtain ⟨x, hx, hxbreak⟩ := Lexeme.exists_lineBreak_finish hrun hbreak
  exact ⟨x, by simpa using hx, hxbreak⟩

/-- In a text in which every carriage return is followed by a line feed, each lexeme that breaks
    the line holds a line feed. -/
theorem hasLineFeed_of_breaksLine (h : Cuts text ls) (hpairs : PairsReturns text) {l : Lexeme}
    (hl : l ∈ ls) (hbreak : l.breaksLine = true) : l.hasLineFeed = true := by
  obtain ⟨before, after, rfl⟩ := List.append_of_mem hl
  have hbehind := h.pairsReturns_behind hpairs
  obtain ⟨c, taken, q, rfl, hrun, hstop⟩ := h.exists_run_of_append
  rw [Lexeme.chars_finish, List.reverse_reverse] at hbehind
  exact Lexeme.hasLineFeed_finish hrun hstop hbehind hbreak

end Cuts

end Semicolons
