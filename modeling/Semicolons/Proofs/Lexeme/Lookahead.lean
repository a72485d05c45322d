import Semicolons.Proofs.Lexeme.Cut
import Semicolons.Proofs.Lexeme.LongestMark

/-!
# What a lexeme sees of the text behind it

The phases look one or two characters past the one they judge. A text behind a lexeme may be
replaced by one that is the same up to its first semicolon, and the lexeme stays what it is:
`Phase.run_of_stops` for the characters it takes, `Phase.StopsBefore.congr` for the place where it
stops, and `Phase.start_congr` for the phase it begins in.
-/

namespace Semicolons

/-- The text `r'` is the same as `r` as far as it holds no semicolon. -/
def SameUpToSemicolon (r r' : List Char) : Prop :=
  ∀ n, r'.take n = r.take n ∨ ';' ∈ r'.take n

namespace SameUpToSemicolon

variable {r r' : List Char}

theorem refl (r : List Char) : SameUpToSemicolon r r :=
  fun _ => Or.inl rfl

theorem semicolon (r r' : List Char) : SameUpToSemicolon r (';' :: r') := by
  intro n
  cases n with
  | zero => exact Or.inl rfl
  | succ n => exact Or.inr (by simp)

theorem append_left (before : List Char) (h : SameUpToSemicolon r r') :
    SameUpToSemicolon (before ++ r) (before ++ r') := by
  intro n
  rw [List.take_append, List.take_append]
  rcases h (n - before.length) with heq | hmem
  · exact Or.inl (by rw [heq])
  · exact Or.inr (List.mem_append_right _ hmem)

theorem head? (h : SameUpToSemicolon r r') : r'.head? = r.head? ∨ r'.head? = some ';' := by
  cases r' with
  | nil =>
    cases r with
    | nil => exact Or.inl rfl
    | cons c r => rcases h 1 with heq | hmem <;> simp_all
  | cons c r' =>
    rcases h 1 with heq | hmem
    · left
      cases r <;> simp_all
    · right
      simpa using (List.mem_singleton.mp hmem).symm

/-- Behind a common character that is no semicolon, the texts still are the same. -/
theorem of_cons {c : Char} (hc : c ≠ ';') (h : SameUpToSemicolon (c :: r) (c :: r')) :
    SameUpToSemicolon r r' := by
  intro n
  rcases h (n + 1) with heq | hmem
  · left
    simpa using heq
  · right
    rw [List.take_succ_cons] at hmem
    exact (List.mem_cons.mp hmem).resolve_left fun he => hc he.symm

end SameUpToSemicolon

namespace Phase

/-- Only the sign of an exponent is judged by the character behind it. -/
theorem step_congr_next {p : Phase} {c : Char} (h : ¬ (p = .exponentMark ∧ (c = '+' ∨ c = '-')))
    (next next' : Option Char) : p.step c next = p.step c next' := by
  cases p with
  | exponentMark =>
    have hc : ¬ (c = '+' ∨ c = '-') := fun hc => h ⟨rfl, hc⟩
    simp [step, hc]
  | mark p left => cases left <;> rfl
  | _ => rfl

theorem stepExponent_sign {c : Char} (hc : c = '+' ∨ c = '-') : stepExponent c = none := by
  rcases hc with rfl | rfl <;> decide

theorem step_exponent_digit {c : Char} (hc : c.isDigit) (next : Option Char) :
    exponent.step c next = some .exponent := by
  simp [step, stepExponent, isDigitPart, hc]

/-- A sign belongs to an exponent only if a digit follows it. -/
theorem step_exponentMark_sign {c : Char} (hc : c = '+' ∨ c = '-') (next : Option Char) :
    exponentMark.step c next = if next.any Char.isDigit then some .exponent else none := by
  simp [step, hc, stepExponent_sign hc]

/-- Whatever stands behind the place where a lexeme stops, the lexeme takes the same characters and
    comes to the same phase, if it stops there at all. -/
theorem run_of_stops {p q : Phase} {taken rest : List Char}
    (hrun : p.run taken rest.head? = some q) (hstop : q.StopsBefore rest) (next : Option Char) :
    p.run taken next = some q := by
  induction taken generalizing p with
  | nil => exact hrun
  | cons c taken ih =>
    obtain ⟨p', hstep, hrest⟩ := run_cons_eq_some.mp hrun
    refine run_cons_eq_some.mpr ⟨p', ?_, ih hrest⟩
    cases taken with
    | cons d taken => exact hstep
    | nil =>
      by_cases hsign : p = .exponentMark ∧ (c = '+' ∨ c = '-')
      · -- A sign that is the last character taken would have a digit behind it, and that digit
        -- would belong to the exponent.
        obtain ⟨rfl, hc⟩ := hsign
        cases hrest
        rw [step_exponentMark_sign hc] at hstep
        cases rest with
        | nil => simp at hstep
        | cons d rest =>
          by_cases hd : d.isDigit
          · have hq : q = .exponent := by simpa [hd] using hstep.symm
            subst hq
            have hnone : exponent.step d rest.head? = none := hstop
            rw [step_exponent_digit hd] at hnone
            cases hnone
          · simp [hd] at hstep
      · rw [← hstep]
        exact step_congr_next hsign _ _

/-- A lexeme that stops in front of a text stops in front of every text that begins with the same
    character and is the same up to a semicolon. -/
theorem StopsBefore.congr {q : Phase} {r r' : List Char} (h : q.StopsBefore r)
    (hsame : SameUpToSemicolon r r') (hhead : r'.head? = r.head?) : q.StopsBefore r' := by
  cases r' with
  | nil => trivial
  | cons c r' =>
    obtain ⟨r, rfl⟩ : ∃ s, r = c :: s := by
      cases r with
      | nil => cases hhead
      | cons d r =>
        cases hhead
        exact ⟨r, rfl⟩
    have hstep : q.step c r.head? = none := h
    show q.step c r'.head? = none
    by_cases hsign : q = .exponentMark ∧ (c = '+' ∨ c = '-')
    · obtain ⟨rfl, hc⟩ := hsign
      have hne : c ≠ ';' := by
        rintro rfl
        exact absurd hc (by decide)
      rw [step_exponentMark_sign hc] at hstep ⊢
      rcases (hsame.of_cons hne).head? with heq | hsemi
      · rw [heq]
        exact hstep
      · rw [hsemi]
        decide
    · rw [← hstep]
      exact step_congr_next hsign _ _

/-- The phase after a first character that needs no look at the marks, in front of the character
    `next`. -/
def startBeforeMark? (c : Char) (next : Option Char) : Option Phase :=
  if isBlank c then some .blanks
  else if isLineBreak c then some .lineBreaks
  else if c = '/' ∧ next = some '/' then some .lineComment
  else if c = '/' ∧ next = some '*' then some .commentSlash
  else if c = '"' then some (.quoted .double)
  else if c = '\'' then some (.quoted .single)
  else if c = '`' then some .raw
  else if c = '0' then some .zero
  else if c.isDigit then some .whole
  else if c = '.' ∧ next.any Char.isDigit then some .fraction
  else if isWordStart c then some .word
  else none

/-- The phase after a first character that begins a mark or nothing, in front of `rest`. -/
def startMark (c : Char) (rest : List Char) : Phase :=
  match Punctuation.longest? (c :: rest) with
  | some p => .mark p (p.spelling.length - 1)
  | none => .stray c

/-- A lexeme begins with a look at one further character, and only then with a look at two. -/
theorem start_eq (c : Char) (rest : List Char) :
    start c rest = (startBeforeMark? c rest.head?).getD (startMark c rest) := by
  simp only [startBeforeMark?, apply_ite (Option.getD · (startMark c rest)), Option.getD_some,
    Option.getD_none]
  rfl

/-- A semicolon behind a lexeme of one character begins it the way that any other character does
    in front of which it stops. -/
theorem startBeforeMark?_semicolon {c : Char} {r : List Char}
    (hstop : (start c r).StopsBefore r) :
    startBeforeMark? c (some ';') = startBeforeMark? c r.head? := by
  cases r with
  | nil => simp [startBeforeMark?]
  | cons d r =>
    have hstep : (start c (d :: r)).step d r.head? = none := hstop
    have hline : ¬ (c = '/' ∧ d = '/') := by
      rintro ⟨rfl, rfl⟩
      simp [start, isBlank, isLineBreak, step] at hstep
    have hblock : ¬ (c = '/' ∧ d = '*') := by
      rintro ⟨rfl, rfl⟩
      simp [start, isBlank, isLineBreak, step] at hstep
    have hpoint : ¬ (c = '.' ∧ d.isDigit) := by
      rintro ⟨rfl, hd⟩
      simp [start, isBlank, isLineBreak, step, stepDecimal, isDigitPart, hd] at hstep
    simp [startBeforeMark?, hline, hblock, hpoint]

/-- A mark takes the characters that are left of it, one after the other. -/
theorem run_mark {p : Punctuation} {left : Nat} {taken : List Char} {next : Option Char}
    {q : Phase} (hrun : (mark p left).run taken next = some q) :
    taken.length ≤ left ∧ q = .mark p (left - taken.length) := by
  induction taken generalizing left with
  | nil =>
    cases hrun
    simp
  | cons c taken ih =>
    obtain ⟨p', hstep, hrest⟩ := run_cons_eq_some.mp hrun
    cases left with
    | zero => cases hstep
    | succ left =>
      cases hstep
      obtain ⟨hlen, rfl⟩ := ih hrest
      rw [List.length_cons]
      exact ⟨by omega, by rw [Nat.add_sub_add_right]⟩

/-- A lexeme that begins as a mark has taken all characters of the mark where it stops. -/
theorem run_longest_mark {c : Char} {taken rest : List Char} {p : Punctuation} {q : Phase}
    (hlongest : Punctuation.longest? (c :: (taken ++ rest)) = some p)
    (hrun : (mark p (p.spelling.length - 1)).run taken rest.head? = some q)
    (hstop : q.StopsBefore rest) : q = .mark p 0 ∧ p.spelling.toList = c :: taken := by
  have hbegins : p.spelling.toList <+: (c :: taken) ++ rest :=
    Punctuation.longest?_begins hlongest
  have hpos := p.length_toList_spelling_pos
  obtain ⟨hlen, rfl⟩ := run_mark hrun
  rw [← String.length_toList] at hlen hstop ⊢
  have hleft : p.spelling.toList.length - 1 - taken.length = 0 := by
    cases rest with
    | nil =>
      have hle := hbegins.length_le
      rw [List.append_nil, List.length_cons] at hle
      omega
    | cons d rest =>
      have hstep : (mark p (p.spelling.toList.length - 1 - taken.length)).step d rest.head? = none :=
        hstop
      cases hk : p.spelling.toList.length - 1 - taken.length with
      | zero => rfl
      | succ k =>
        rw [hk] at hstep
        cases hstep
  have hsize : p.spelling.toList.length = (c :: taken).length := by
    rw [List.length_cons]
    omega
  have hprefix : p.spelling.toList <+: c :: taken :=
    List.prefix_of_prefix_length_le hbegins (List.prefix_append _ _) (Nat.le_of_eq hsize)
  exact ⟨by rw [hleft], hprefix.eq_of_length hsize⟩

/-- A mark that a changed text begins with was there before, for only the mark of one character
    holds a semicolon. -/
theorem begins_of_sameUpToSemicolon {p : Punctuation} {c : Char} {taken r r' : List Char}
    (hsame : SameUpToSemicolon r r') (h : p.Begins (c :: (taken ++ r'))) :
    p.Begins (c :: (taken ++ r)) := by
  have htake := List.prefix_iff_eq_take.mp h
  rcases hsame.append_left (c :: taken) p.spelling.toList.length with heq | hmem
  · rw [Punctuation.Begins, htake]
    have hfull : ((c :: taken) ++ r).take p.spelling.toList.length <+: (c :: taken) ++ r :=
      List.take_prefix _ _
    rw [← heq] at hfull
    exact hfull
  · rw [List.cons_append, ← htake] at hmem
    obtain rfl := Punctuation.eq_semicolon_of_mem hmem
    obtain ⟨tail, htail⟩ := h
    have hc : c = ';' := (List.cons.inj htail).1.symm
    subst hc
    exact ⟨taken ++ r, rfl⟩

/-- The phase in which a mark or a stray character begins does not see past the semicolon. -/
theorem startMark_congr {c : Char} {taken r r' : List Char} {q : Phase}
    (hrun : (startMark c (taken ++ r)).run taken r.head? = some q) (hstop : q.StopsBefore r)
    (hsame : SameUpToSemicolon r r') :
    startMark c (taken ++ r') = startMark c (taken ++ r) := by
  have hlongest : Punctuation.longest? (c :: (taken ++ r')) =
      Punctuation.longest? (c :: (taken ++ r)) := by
    cases hl : Punctuation.longest? (c :: (taken ++ r)) with
    | none =>
      rw [Punctuation.longest?_eq_none_iff] at hl ⊢
      intro p hp
      exact hl p (begins_of_sameUpToSemicolon hsame hp)
    | some p =>
      rw [startMark, hl] at hrun
      obtain ⟨-, hchars⟩ := run_longest_mark hl hrun hstop
      rw [Punctuation.longest?_eq_some_iff] at hl ⊢
      refine ⟨⟨r', by rw [hchars, List.cons_append]⟩, ?_⟩
      intro p' hp'
      exact hl.2 p' (begins_of_sameUpToSemicolon hsame hp')
  rw [startMark, startMark, hlongest]

/-- A lexeme begins in the same phase if the text behind it is replaced by one that is the same up
    to its first semicolon. -/
theorem start_congr {c : Char} {taken r r' : List Char} {q : Phase}
    (hrun : (start c (taken ++ r)).run taken r.head? = some q) (hstop : q.StopsBefore r)
    (hsame : SameUpToSemicolon r r') : start c (taken ++ r') = start c (taken ++ r) := by
  have hbefore : startBeforeMark? c (taken ++ r').head? =
      startBeforeMark? c (taken ++ r).head? := by
    cases taken with
    | cons d taken => rfl
    | nil =>
      cases hrun
      rcases hsame.head? with heq | hsemi
      · rw [List.nil_append, heq]
        rfl
      · rw [List.nil_append, hsemi]
        exact startBeforeMark?_semicolon hstop
  rw [start_eq c (taken ++ r'), hbefore]
  rw [start_eq] at hrun ⊢
  cases hs : startBeforeMark? c (taken ++ r).head? with
  | some p => rfl
  | none =>
    rw [hs] at hrun
    exact startMark_congr hrun hstop hsame

end Phase

end Semicolons
