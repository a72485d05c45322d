import Semicolons.Proofs.Lexeme.Layout
import Semicolons.Proofs.Lexeme.Lookahead
import Semicolons.Proofs.Place.Gap

/-!
# Line breaks behind a lexeme

No look ahead goes past a line break, and none tells a carriage return from a line feed. So the text
behind a lexeme may be replaced by one that is the same up to a line break: the lexeme begins in the
same phase (`Phase.start_sameUpToLineBreak`), takes the same characters (`Phase.run_alike`) and stops
at the same place (`Phase.StopsBefore.sameUpToLineBreak`). In particular nothing that is written
behind the end of a line changes the lexemes of that line (`Cuts.append_of_lineBreaks`).
-/

namespace Semicolons

/-- Two texts that are the same up to a line break, which need not be the same character in both,
    or that are the same to their end. -/
inductive SameUpToLineBreak : List Char → List Char → Prop
  | nil : SameUpToLineBreak [] []
  | lineBreak {b b' : Char} {r r' : List Char} :
      isLineBreak b = true → isLineBreak b' = true → SameUpToLineBreak (b :: r) (b' :: r')
  | cons {c : Char} {r r' : List Char} :
      SameUpToLineBreak r r' → SameUpToLineBreak (c :: r) (c :: r')

/-- Two characters, or ends of a text, that no look ahead tells apart. -/
def AlikeAhead (next next' : Option Char) : Prop :=
  next' = next ∨ next.any isLineBreak = true ∧ next'.any isLineBreak = true

/-- A character that is no line break lies ahead in both of two such texts, or in neither. -/
theorem AlikeAhead.eq_some_iff {next next' : Option Char} {c : Char} (h : AlikeAhead next next')
    (hc : isLineBreak c = false) : next' = some c ↔ next = some c := by
  rcases h with rfl | ⟨hbreak, hbreak'⟩
  · exact Iff.rfl
  · constructor
    · rintro rfl
      rw [Option.any_some, hc] at hbreak'
      cases hbreak'
    · rintro rfl
      rw [Option.any_some, hc] at hbreak
      cases hbreak

namespace SameUpToLineBreak

variable {r r' : List Char}

theorem append_left (before : List Char) (h : SameUpToLineBreak r r') :
    SameUpToLineBreak (before ++ r) (before ++ r') := by
  induction before with
  | nil => exact h
  | cons c before ih => exact .cons ih

/-- What is written behind a line break comes behind it. -/
theorem append_right {x : Char} (hx : x ∈ r) (hbreak : isLineBreak x = true)
    (behind : List Char) : SameUpToLineBreak r (r ++ behind) := by
  induction r with
  | nil => cases hx
  | cons c r ih =>
    rcases List.mem_cons.mp hx with rfl | hx
    · exact .lineBreak hbreak hbreak
    · exact .cons (ih hx)

theorem head? (h : SameUpToLineBreak r r') : AlikeAhead r.head? r'.head? := by
  cases h with
  | nil => exact Or.inl rfl
  | lineBreak hb hb' => exact Or.inr ⟨hb, hb'⟩
  | cons _ => exact Or.inl rfl

/-- A text without line breaks that one of the two begins with is a beginning of the other. -/
theorem prefix_iff {w : List Char} (hw : ∀ c ∈ w, isLineBreak c = false)
    (h : SameUpToLineBreak r r') : w <+: r' ↔ w <+: r := by
  induction h generalizing w with
  | nil => exact Iff.rfl
  | @lineBreak b b' r r' hb hb' =>
    cases w with
    | nil => simp
    | cons c w =>
      have hc := hw c List.mem_cons_self
      rw [List.cons_prefix_cons, List.cons_prefix_cons]
      constructor
      · rintro ⟨rfl, -⟩
        rw [hb'] at hc
        cases hc
      · rintro ⟨rfl, -⟩
        rw [hb] at hc
        cases hc
  | @cons c r r' _ ih =>
    cases w with
    | nil => simp
    | cons d w =>
      rw [List.cons_prefix_cons, List.cons_prefix_cons,
        ih fun c hc => hw c (List.mem_cons_of_mem d hc)]

end SameUpToLineBreak

/-- No mark is spelled with a line break. -/
theorem Punctuation.isLineBreak_of_mem {p : Punctuation} {c : Char} (h : c ∈ p.spelling.toList) :
    isLineBreak c = false := by
  have hall : p.spelling.toList.all (fun c => !isLineBreak c) = true := by
    cases p <;> rfl
  simpa using List.all_eq_true.mp hall c h

theorem isLineBreak_eq_true_iff {c : Char} : isLineBreak c = true ↔ c = '\r' ∨ c = '\n' := by
  simp [isLineBreak]

namespace Phase

section Ahead

variable {next next' : Option Char}

theorem any_isDigit_of_lineBreak (h : next.any isLineBreak = true) :
    next.any Char.isDigit = false := by
  obtain ⟨c, rfl, hc⟩ := (Option.any_eq_true _ _).mp h
  rcases isLineBreak_eq_true_iff.mp hc with rfl | rfl <;> decide

theorem any_isDigit_alike (h : AlikeAhead next next') :
    next'.any Char.isDigit = next.any Char.isDigit := by
  rcases h with rfl | ⟨hbreak, hbreak'⟩
  · rfl
  · rw [any_isDigit_of_lineBreak hbreak, any_isDigit_of_lineBreak hbreak']

/-- A step does not tell apart what lies ahead. -/
theorem step_alike (h : AlikeAhead next next') (p : Phase) (c : Char) :
    p.step c next' = p.step c next := by
  by_cases hsign : p = .exponentMark ∧ (c = '+' ∨ c = '-')
  · obtain ⟨rfl, hc⟩ := hsign
    rw [step_exponentMark_sign hc, step_exponentMark_sign hc, any_isDigit_alike h]
  · exact step_congr_next hsign _ _

/-- A step takes one line break the way it takes any other. -/
theorem step_lineBreak {b b' : Char} (hb : isLineBreak b = true) (hb' : isLineBreak b' = true)
    (p : Phase) (next next' : Option Char) : p.step b' next' = p.step b next := by
  have hword : isWordPart '\r' = isWordPart '\n' := by decide
  have hfeed : ∀ x, isLineBreak x = true → ∀ ahead, p.step x ahead = p.step '\n' none := by
    intro x hx ahead
    have hsign : ¬ (p = .exponentMark ∧ (x = '+' ∨ x = '-')) := by
      rintro ⟨-, rfl | rfl⟩ <;> cases hx
    rw [step_congr_next hsign ahead none]
    rcases isLineBreak_eq_true_iff.mp hx with rfl | rfl
    · cases p with
      | mark m left => cases left <;> rfl
      | quoted q => cases q <;> rfl
      | word => simp only [step, hword]
      | _ => rfl
    · rfl
  rw [hfeed b' hb', hfeed b hb]

theorem run_alike (h : AlikeAhead next next') (p : Phase) (taken : List Char) :
    p.run taken next' = p.run taken next := by
  induction taken generalizing p with
  | nil => rfl
  | cons c taken ih =>
    have hahead : AlikeAhead (taken.head?.or next) (taken.head?.or next') := by
      cases taken with
      | nil => exact h
      | cons d taken => exact Or.inl rfl
    rw [run, run, step_alike hahead]
    cases p.step c (taken.head?.or next) with
    | none => rfl
    | some p' => exact ih p'

end Ahead

section Behind

variable {r r' : List Char}

/-- A lexeme stops in front of both of two texts that are the same up to a line break, or of
    neither. -/
theorem StopsBefore.sameUpToLineBreak {q : Phase} (h : q.StopsBefore r)
    (hsame : SameUpToLineBreak r r') : q.StopsBefore r' := by
  cases hsame with
  | nil => trivial
  | @lineBreak b b' r r' hb hb' =>
    have hstep : q.step b r.head? = none := h
    show q.step b' r'.head? = none
    rw [step_lineBreak hb hb' q r.head? r'.head?, hstep]
  | @cons c r r' hrest =>
    have hstep : q.step c r.head? = none := h
    show q.step c r'.head? = none
    rw [step_alike hrest.head?, hstep]

theorem startBeforeMark?_alike {next next' : Option Char} (h : AlikeAhead next next') (c : Char) :
    startBeforeMark? c next' = startBeforeMark? c next := by
  have hslash : next' = some '/' ↔ next = some '/' := h.eq_some_iff rfl
  have hstar : next' = some '*' ↔ next = some '*' := h.eq_some_iff rfl
  simp only [startBeforeMark?, hslash, hstar, any_isDigit_alike h]

/-- The longest mark in front of a line break does not reach past it. -/
theorem longest?_sameUpToLineBreak (h : SameUpToLineBreak r r') :
    Punctuation.longest? r' = Punctuation.longest? r :=
  Punctuation.longest?_congr fun _ => h.prefix_iff fun _ hc => Punctuation.isLineBreak_of_mem hc

/-- A lexeme begins in the same phase in front of texts that are the same up to a line break. -/
theorem start_sameUpToLineBreak (h : SameUpToLineBreak r r') (c : Char) :
    start c r' = start c r := by
  have hmark : SameUpToLineBreak (c :: r) (c :: r') := .cons h
  rw [start_eq, start_eq, startBeforeMark?_alike h.head?, startMark, startMark,
    longest?_sameUpToLineBreak hmark]

theorem start_lineBreak {c : Char} (hc : isLineBreak c = true) (rest : List Char) :
    start c rest = .lineBreaks := by
  have hblank : isBlank c = false := by
    rcases isLineBreak_eq_true_iff.mp hc with rfl | rfl <;> decide
  simp [start, hblank, hc]

/-- A run of line breaks goes on with line breaks only. -/
theorem eq_lineBreaks_of_run {taken : List Char} {next : Option Char} {q : Phase}
    (h : lineBreaks.run taken next = some q) : q = .lineBreaks := by
  refine run_eq_start ?_ h
  intro c next p hstep
  by_cases hc : isLineBreak c = true
  · simpa [step, hc] using hstep.symm
  · simp [step, hc] at hstep

end Behind

end Phase

namespace Cuts

variable {text text' : List Char} {ls ls' : List Lexeme} {l : Lexeme}

/-- A text whose first lexeme is visible does not begin with a line break. -/
theorem not_isLineBreak_head {c : Char} {rest : List Char} (h : Cuts (c :: rest) (l :: ls))
    (hl : l.isLayout = false) : isLineBreak c = false := by
  cases hc : isLineBreak c with
  | false => rfl
  | true =>
    cases h with
    | @cons _ taken rest q _ hrun _ _ =>
      rw [Phase.start_lineBreak hc] at hrun
      rw [Phase.eq_lineBreaks_of_run hrun] at hl
      cases hl

/-- A text that ends with a run of line breaks holds a line break. -/
theorem exists_lineBreak_of_last (h : Cuts text (ls ++ [l])) (hl : l.kind = .lineBreaks) :
    ∃ x ∈ text, isLineBreak x = true := by
  have hmem : l ∈ ls ++ [l] := by simp
  have hbreak : l.breaksLine = true := Lexeme.breaksLine_iff.mpr (Or.inl hl)
  obtain ⟨x, hx, hxbreak⟩ := h.exists_lineBreak hmem hbreak
  refine ⟨x, ?_, hxbreak⟩
  rw [← h.flatMap_chars]
  exact List.mem_flatMap.mpr ⟨l, hmem, hx⟩

/-- Behind the end of a line the lexemes begin anew, unless the line break goes on. -/
theorem append_of_lineBreaks (h : Cuts text (ls ++ [l])) (hl : l.kind = .lineBreaks)
    (h' : Cuts text' ls') (hhead : ∀ c ∈ text'.head?, isLineBreak c = false) :
    Cuts (text ++ text') (ls ++ [l] ++ ls') := by
  induction ls generalizing text with
  | nil =>
    cases h with
    | @cons c taken rest q _ hrun hstop hrest =>
      cases hrest
      -- The last lexeme is a run of line breaks from its first character on.
      obtain rfl : q = .lineBreaks := Phase.eq_of_kind_eq (Or.inr rfl) hl
      have hstart := Phase.run_eq_self (Or.inr rfl) hrun
      have hc := Phase.isLineBreak_of_start hstart
      have hstop' : Phase.lineBreaks.StopsBefore text' := by
        cases text' with
        | nil => trivial
        | cons d text' =>
          have hd := hhead d rfl
          show (if isLineBreak d then some Phase.lineBreaks else none) = none
          rw [hd]
          rfl
      have hrun' : (Phase.start c (taken ++ text')).run taken text'.head? = some .lineBreaks := by
        rw [hstart] at hrun
        rw [Phase.start_lineBreak hc]
        exact Phase.run_of_stops hrun hstop text'.head?
      have hnew := Cuts.cons hrun' hstop' h'
      simpa using hnew
  | cons first ls ih =>
    cases h with
    | @cons c taken rest q _ hrun hstop hrest =>
      obtain ⟨x, hx, hxbreak⟩ := hrest.exists_lineBreak_of_last hl
      have hsame := SameUpToLineBreak.append_right hx hxbreak text'
      have hrun' : (Phase.start c (taken ++ (rest ++ text'))).run taken (rest ++ text').head? =
          some q := by
        rw [Phase.start_sameUpToLineBreak (hsame.append_left taken), Phase.run_alike hsame.head?,
          hrun]
      have hnew := Cuts.cons hrun' (hstop.sameUpToLineBreak hsame) (ih hrest)
      simpa using hnew

end Cuts

end Semicolons
