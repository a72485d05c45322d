import Semicolons.Proofs.Lexeme.LineBreak
import Semicolons.Proofs.Lexeme.Punctuated

/-!
# Spacing around a text

Blanks and line breaks in front of a text become lexemes of their own, or join the run that the text
begins with (`Cuts.spacing_append`). Behind a text they may also be swallowed by its last lexeme,
which can be a comment, or a literal that is left open even in the middle of an escape; but no
lexeme gets another kind or another fault by that (`Cuts.append_spacing`).
-/

namespace Semicolons

/-- A blank or a line break. -/
def isSpacing (c : Char) : Bool :=
  isBlank c || isLineBreak c

/-- A run of blanks or of line breaks. -/
def Lexeme.IsSpacing (l : Lexeme) : Prop :=
  (l.kind = .blanks ∨ l.kind = .lineBreaks) ∧ l.fault = none

theorem isSpacing_iff {c : Char} :
    isSpacing c = true ↔ c = ' ' ∨ c = '\t' ∨ c = '\x0c' ∨ c = '\r' ∨ c = '\n' := by
  simp [isSpacing, isBlank, isLineBreak, or_assoc]

/-- No mark is spelled with spacing. -/
theorem Punctuation.isSpacing_of_mem {p : Punctuation} {c : Char} (h : c ∈ p.spelling.toList) :
    isSpacing c = false := by
  have hall : p.spelling.toList.all (fun c => !isSpacing c) = true := by
    cases p <;> rfl
  simpa using List.all_eq_true.mp hall c h

namespace Lexeme.IsSpacing

variable {l : Lexeme}

theorem isLayout (h : l.IsSpacing) : l.isLayout = true := by
  rcases h.1 with hk | hk <;> simp [Lexeme.isLayout, hk, Kind.channel]

end Lexeme.IsSpacing

namespace Phase

section Front

variable {p q : Phase} {c : Char} {taken rest : List Char} {next : Option Char}

theorem start_blank (hc : isBlank c = true) (rest : List Char) : start c rest = .blanks := by
  simp [start, hc]

theorem start_spacing (hc : isSpacing c = true) (rest : List Char) :
    start c rest = .blanks ∨ start c rest = .lineBreaks := by
  rcases Bool.or_eq_true_iff.mp hc with hc | hc
  · exact Or.inl (start_blank hc rest)
  · exact Or.inr (start_lineBreak hc rest)

/-- A run goes on with the characters that begin such a run, and stays what it is. -/
theorem step_spacing_iff (hp : p = .blanks ∨ p = .lineBreaks) (rest : List Char) :
    p.step c next = some q ↔ start c rest = p ∧ q = p := by
  rcases hp with rfl | rfl
  · constructor
    · intro h
      by_cases hc : isBlank c = true
      · have hq : q = .blanks := by simpa [step, hc] using h.symm
        exact ⟨start_blank hc rest, hq⟩
      · simp [step, hc] at h
    · rintro ⟨hstart, rfl⟩
      simp [step, isBlank_of_start hstart]
  · constructor
    · intro h
      by_cases hc : isLineBreak c = true
      · have hq : q = .lineBreaks := by simpa [step, hc] using h.symm
        exact ⟨start_lineBreak hc rest, hq⟩
      · simp [step, hc] at h
    · rintro ⟨hstart, rfl⟩
      simp [step, isLineBreak_of_start hstart]

theorem run_eq_of_spacing (hp : p = .blanks ∨ p = .lineBreaks) (h : p.run taken next = some q) :
    q = p :=
  run_eq_start (fun _ _ _ hstep => ((step_spacing_iff hp []).mp hstep).2) h

end Front

end Phase

theorem Lexeme.isSpacing_finish {p : Phase} (hp : p = .blanks ∨ p = .lineBreaks)
    (taken : List Char) : (finish p taken).IsSpacing := by
  rcases hp with rfl | rfl
  · exact ⟨Or.inl rfl, rfl⟩
  · exact ⟨Or.inr rfl, rfl⟩

namespace Phase

section Behind

variable {p q : Phase} {c : Char} {rest w : List Char}

/-- Spacing spells nothing, so that it belongs to no word, number or mark, and ends nothing that a
    mark ends. -/
theorem not_part_of_spacing (hc : isSpacing c = true) :
    isWordPart c = false ∧ isDigitPart c = false ∧ isHexDigitPart c = false ∧
      (∀ quote : Quote, c ≠ quote.mark) ∧
      c ∉ ['.', 'e', 'E', 'i', 'p', 'P', 'x', 'X', 'b', 'B', 'o', 'O', '+', '-', '*', '/', '\\',
        '`'] := by
  have hquote : ∀ quote : Quote, isSpacing quote.mark = false := by
    intro quote
    cases quote <;> rfl
  refine ⟨?_, ?_, ?_, ?_, ?_⟩
  case refine_4 =>
    rintro quote rfl
    rw [hquote] at hc
    cases hc
  all_goals rcases isSpacing_iff.mp hc with rfl | rfl | rfl | rfl | rfl <;> decide

/-- The phases in which spacing belongs to a lexeme, each with the phase that it leads to. -/
inductive Swallows : Phase → Phase → Prop
  | blanks : Swallows .blanks .blanks
  | lineBreaks : Swallows .lineBreaks .lineBreaks
  | lineComment : Swallows .lineComment .lineComment
  | commentSlash : Swallows .commentSlash .comment
  | comment : Swallows .comment .comment
  | commentStar : Swallows .commentStar .comment
  | quoted (quote : Quote) : Swallows (.quoted quote) (.quoted quote)
  | escape (quote : Quote) : Swallows (.escape quote) (.quoted quote)
  | raw : Swallows .raw .raw

theorem swallows_of_step {next : Option Char} (hc : isSpacing c = true)
    (hmark : ∀ m left, p ≠ .mark m left) (h : p.step c next = some q) : p.Swallows q := by
  obtain ⟨hword, hdigit, hhex, hquote, hother⟩ := not_part_of_spacing hc
  simp only [List.mem_cons, List.not_mem_nil, or_false, not_or] at hother
  cases p with
  | mark m left => exact absurd rfl (hmark m left)
  | _ => grind [step, stepDecimal, stepHexadecimal, stepExponent, Swallows]

namespace Swallows

theorem trans {r : Phase} (h : p.Swallows q) (h' : q.Swallows r) : p.Swallows r := by
  cases h <;> cases h' <;> constructor

theorem ne_mark (h : p.Swallows q) (m : Punctuation) (left : Nat) : q ≠ .mark m left := by
  cases h <;> simp

/-- Spacing changes neither the kind nor the fault of the lexeme that swallows it. -/
theorem kind_eq (h : p.Swallows q) (text text' : String) : q.kind text' = p.kind text := by
  cases h <;> rfl

theorem fault?_eq (h : p.Swallows q) : q.fault? = p.fault? := by
  cases h <;> rfl

/-- Only layout and what is left open swallows spacing. -/
theorem hidden_or_fault (h : p.Swallows q) (text : String) :
    (p.kind text).channel = .hidden ∨ p.fault?.isSome = true := by
  cases h <;> simp [kind, Kind.channel, fault?]

end Swallows

theorem swallows_of_run {next : Option Char} (hw : ∀ x ∈ w, isSpacing x = true)
    (hc : isSpacing c = true) (hmark : ∀ m left, p ≠ .mark m left)
    (h : p.run (c :: w) next = some q) : p.Swallows q := by
  induction w generalizing p c with
  | nil =>
    obtain ⟨p', hstep, hrun⟩ := run_cons_eq_some.mp h
    cases hrun
    exact swallows_of_step hc hmark hstep
  | cons d w ih =>
    obtain ⟨hd, hw⟩ := List.forall_mem_cons.mp hw
    obtain ⟨p', hstep, hrun⟩ := run_cons_eq_some.mp h
    have hfirst := swallows_of_step hc hmark hstep
    exact hfirst.trans (ih hw hd hfirst.ne_mark hrun)

/-- A mark at the end of a text has been read to its end, so that nothing more belongs to it. -/
theorem ne_mark_of_run {d : Char} {taken more : List Char} {next : Option Char}
    (hrun : (start c taken).run taken none = some p)
    (hmore : p.run (d :: more) next = some q) (m : Punctuation) (left : Nat) : p ≠ .mark m left := by
  rintro rfl
  have hend : (start c (taken ++ [])).run taken ([] : List Char).head? = some (mark m left) := by
    simpa using hrun
  obtain ⟨rfl, -⟩ := mark_of_stops hend trivial
  obtain ⟨p', hstep, -⟩ := run_cons_eq_some.mp hmore
  cases hstep

variable (hw : ∀ x ∈ w, isSpacing x = true)
include hw

theorem any_isDigit_spacing : w.head?.any Char.isDigit = false := by
  cases w with
  | nil => rfl
  | cons c w =>
    have hc := hw c List.mem_cons_self
    show c.isDigit = false
    rcases isSpacing_iff.mp hc with rfl | rfl | rfl | rfl | rfl <;> decide

/-- A step does not see spacing that is written behind the text ahead of it. -/
theorem step_append_spacing (p : Phase) (c : Char) (rest : List Char) :
    p.step c (rest ++ w).head? = p.step c rest.head? := by
  cases rest with
  | cons d rest => rfl
  | nil =>
    by_cases hsign : p = .exponentMark ∧ (c = '+' ∨ c = '-')
    · obtain ⟨rfl, hc⟩ := hsign
      rw [step_exponentMark_sign hc, step_exponentMark_sign hc, List.nil_append,
        any_isDigit_spacing hw]
      rfl
    · exact step_congr_next hsign _ _

theorem StopsBefore.append_spacing (h : q.StopsBefore rest) (hrest : rest ≠ []) :
    q.StopsBefore (rest ++ w) := by
  obtain ⟨d, rest, rfl⟩ := List.exists_cons_of_ne_nil hrest
  have hstep : q.step d rest.head? = none := h
  show q.step d (rest ++ w).head? = none
  rw [step_append_spacing hw, hstep]

theorem startBeforeMark?_append_spacing (c : Char) (rest : List Char) :
    startBeforeMark? c (rest ++ w).head? = startBeforeMark? c rest.head? := by
  cases rest with
  | cons d rest => rfl
  | nil =>
    have hne : ∀ x, isSpacing x = false → w.head? ≠ some x := by
      intro x hx hhead
      rw [hw x (List.mem_of_mem_head? hhead)] at hx
      cases hx
    have hslash := hne '/' rfl
    have hstar := hne '*' rfl
    simp [startBeforeMark?, hslash, hstar, any_isDigit_spacing hw]

/-- A mark that a text with spacing behind it begins with is not spelled with any of it. -/
theorem begins_append_spacing (m : Punctuation) (text : List Char) :
    m.Begins (text ++ w) ↔ m.Begins text := by
  constructor
  · intro h
    obtain ⟨tail, htail⟩ := h
    rcases List.append_eq_append_iff.mp htail with ⟨more, rfl, -⟩ | ⟨more, hspelling, rfl⟩
    · exact List.prefix_append _ more
    · cases more with
      | nil => exact ⟨[], by rw [hspelling, List.append_nil, List.append_nil]⟩
      | cons c more =>
        have hc := hw c (by simp)
        rw [Punctuation.isSpacing_of_mem (p := m) (by simp [hspelling])] at hc
        cases hc
  · intro h
    exact h.trans (List.prefix_append text w)

theorem start_append_spacing (c : Char) (rest : List Char) : start c (rest ++ w) = start c rest := by
  have hlongest : Punctuation.longest? (c :: rest ++ w) = Punctuation.longest? (c :: rest) :=
    Punctuation.longest?_congr fun m => begins_append_spacing hw m (c :: rest)
  rw [start_eq, start_eq, startBeforeMark?_append_spacing hw, startMark, startMark,
    ← List.cons_append, hlongest]

end Behind

end Phase

/-- The lexemes of a text, and those of the text with spacing behind it: the spacing becomes lexemes
    of its own, or some of it is swallowed by the last lexeme, which is layout or left open. -/
inductive Trailed : List Lexeme → List Lexeme → Prop
  | behind {gap : List Lexeme} : (∀ g ∈ gap, g.IsSpacing) → Trailed [] gap
  | swallowed {l l' : Lexeme} {gap : List Lexeme} :
      l.isLayout = true ∨ l.fault.isSome = true → l'.kind = l.kind → l'.fault = l.fault →
      (∀ g ∈ gap, g.IsSpacing) → Trailed [l] (l' :: gap)
  | cons {l : Lexeme} {ls ls' : List Lexeme} : Trailed ls ls' → Trailed (l :: ls) (l :: ls')

namespace Cuts

variable {text u w : List Char} {ls : List Lexeme}

/-- A blank or a line break in front of a text joins the run that the text begins with, or is a
    lexeme of its own. -/
theorem cons_spacing {c : Char} (hc : isSpacing c = true) (h : Cuts text ls) :
    ∃ gap l tail, ls = gap ++ tail ∧ (∀ g ∈ gap, g.IsSpacing) ∧ l.IsSpacing ∧
      Cuts (c :: text) (l :: tail) := by
  have hstart := Phase.start_spacing hc text
  obtain ⟨taken, rest, q, rfl, hrun, hstop⟩ := (Phase.start c text).exists_run text
  cases taken with
  | nil =>
    cases hrun
    exact ⟨[], _, ls, rfl, by simp, Lexeme.isSpacing_finish hstart _, .cons rfl hstop h⟩
  | cons d taken =>
    obtain ⟨p, hstep, hrest⟩ := Phase.run_cons_eq_some.mp hrun
    obtain ⟨hd, rfl⟩ := (Phase.step_spacing_iff hstart (taken ++ rest)).mp hstep
    have hq := Phase.run_eq_of_spacing hstart hrest
    rw [← hq] at hstart
    rw [← hd] at hrest
    have htail := cuts_lexemesOfChars rest
    refine ⟨[Lexeme.finish q (d :: taken).reverse], _, _, ?_, ?_,
      Lexeme.isSpacing_finish hstart _, .cons hrun hstop htail⟩
    · exact (cuts_iff.mp h).trans (cuts_iff.mp (.cons hrest hstop htail)).symm
    · simpa using Lexeme.isSpacing_finish hstart _

/-- Spacing in front of a text leaves all lexemes but a first run of spacing as they are. -/
theorem spacing_append (hu : ∀ c ∈ u, isSpacing c = true) (h : Cuts text ls) :
    ∃ gap gap' tail, ls = gap ++ tail ∧ Cuts (u ++ text) (gap' ++ tail) ∧
      (∀ g ∈ gap, g.IsSpacing) ∧ ∀ g ∈ gap', g.IsSpacing := by
  induction u with
  | nil => exact ⟨[], [], ls, rfl, h, by simp, by simp⟩
  | cons c u ih =>
    obtain ⟨hc, hu⟩ := List.forall_mem_cons.mp hu
    obtain ⟨gap, gap', tail, rfl, hcut, hgap, hgap'⟩ := ih hu
    obtain ⟨first, l, rest, hsplit, hfirst, hl, hnew⟩ := cons_spacing hc hcut
    rcases List.append_eq_append_iff.mp hsplit with ⟨more, rfl, rfl⟩ | ⟨more, rfl, rfl⟩
    · -- The run that is extended reaches into the lexemes that were common so far.
      refine ⟨gap ++ more, [l], rest, by simp, hnew, ?_, by simpa using hl⟩
      simp only [List.mem_append] at hfirst ⊢
      grind
    · refine ⟨gap, l :: more, tail, rfl, hnew, hgap, ?_⟩
      grind

/-- Spacing is cut into runs of blanks and of line breaks. -/
theorem isSpacing_of_mem (hw : ∀ c ∈ w, isSpacing c = true) {l : Lexeme}
    (hl : l ∈ lexemesOfChars w) : l.IsSpacing := by
  obtain ⟨gap, gap', tail, hnil, hcut, -, hgap'⟩ := spacing_append hw .nil
  obtain ⟨-, rfl⟩ := List.append_eq_nil_iff.mp hnil.symm
  rw [List.append_nil, List.append_nil] at hcut
  rw [← cuts_iff.mp hcut] at hl
  exact hgap' l hl

/-- Behind the last lexeme of a text, spacing begins anew or belongs to that lexeme. -/
theorem append_spacing_last {c : Char} {taken : List Char} {q : Phase}
    (hw : ∀ c ∈ w, isSpacing c = true) (hrun : (Phase.start c taken).run taken none = some q) :
    ∃ ls', Cuts (c :: (taken ++ w)) ls' ∧ Trailed [Lexeme.finish q (c :: taken).reverse] ls' := by
  obtain ⟨more, behind, q', rfl, hmore, hstop⟩ := q.exists_run w
  have hbehind : ∀ x ∈ behind, isSpacing x = true :=
    fun x hx => hw x (List.mem_append_right more hx)
  have hgap : ∀ g ∈ lexemesOfChars behind, g.IsSpacing := fun _ => isSpacing_of_mem hbehind
  have hbegin := cuts_lexemesOfChars behind
  have hend : (Phase.start c taken).run taken ([] : List Char).head? = some q := hrun
  have hnext : ∀ next, (Phase.start c taken).run taken next = some q :=
    Phase.run_of_stops hend trivial
  cases more with
  | nil =>
    cases hmore
    have hrun' : (Phase.start c (taken ++ behind)).run taken behind.head? = some q := by
      rw [Phase.start_append_spacing hbehind, hnext]
    exact ⟨_, .cons hrun' hstop hbegin, .cons (.behind hgap)⟩
  | cons d more =>
    have hmark := Phase.ne_mark_of_run hrun hmore
    have hswallows := Phase.swallows_of_run (fun x hx => hw x (by simp [hx])) (hw d (by simp))
      hmark hmore
    have hrun' : (Phase.start c (taken ++ d :: more ++ behind)).run (taken ++ d :: more)
        behind.head? = some q' := by
      rw [List.append_assoc, Phase.start_append_spacing hw, Phase.run_append, hnext]
      exact hmore
    refine ⟨Lexeme.finish q' (c :: (taken ++ d :: more)).reverse :: lexemesOfChars behind, ?_,
      .swallowed ?_ (hswallows.kind_eq _ _) hswallows.fault?_eq hgap⟩
    · simpa using Cuts.cons hrun' hstop hbegin
    · exact (hswallows.hidden_or_fault _).imp_left beq_iff_eq.mpr

/-- Spacing behind a text leaves all lexemes but the last one as they are, and changes neither the
    kind nor the fault of that one. -/
theorem append_spacing (hw : ∀ c ∈ w, isSpacing c = true) (h : Cuts text ls) :
    ∃ ls', Cuts (text ++ w) ls' ∧ Trailed ls ls' := by
  induction h with
  | nil => exact ⟨_, cuts_lexemesOfChars w, .behind fun _ => isSpacing_of_mem hw⟩
  | @cons c taken rest q ls hrun hstop htail ih =>
    by_cases hrest : rest = []
    · subst hrest
      cases htail
      rw [List.append_nil] at hrun ⊢
      exact append_spacing_last hw hrun
    · obtain ⟨ls', hcut, htrailed⟩ := ih
      refine ⟨Lexeme.finish q (c :: taken).reverse :: ls', ?_, .cons htrailed⟩
      have hhead : (rest ++ w).head? = rest.head? := by
        obtain ⟨d, rest, rfl⟩ := List.exists_cons_of_ne_nil hrest
        rfl
      rw [← Phase.start_append_spacing hw, ← hhead, List.append_assoc] at hrun
      have hnew := Cuts.cons hrun (hstop.append_spacing hw hrest) hcut
      simpa using hnew

end Cuts

end Semicolons
