import Semicolons.Proofs.Lexeme.Lookahead

/-!
# Numbers

The grammar of numbers: digits of four bases with single underscores between them, fractions with
a point, exponents, and the `i` of imaginary numbers. The phases of a number accept more than that,
so the grammar is not read off them. Every number of the grammar is read to its end, whatever is
behind it, and the phase that it is read to tells the part of the grammar that it belongs to
(`Number.Integer.isReadTo`, `Number.Float.isReadTo`, `Number.Imaginary.isReadTo`).
-/

namespace Semicolons

namespace Number

/-- The bases that digits can have. -/
inductive Base where
  | binary
  | octal
  | decimal
  | hexadecimal
  deriving DecidableEq, Repr

namespace Base

/-- The digits of a base. -/
def isDigit : Base → Char → Bool
  | .binary, c => c = '0' || c = '1'
  | .octal, c => '0' ≤ c && c ≤ '7'
  | .decimal, c => c.isDigit
  | .hexadecimal, c => c.isDigit || ('a' ≤ c && c ≤ 'f') || ('A' ≤ c && c ≤ 'F')

/-- The letters that set a base behind a zero. No letter sets base ten. -/
def letters : Base → List Char
  | .binary => ['b', 'B']
  | .octal => ['o', 'O']
  | .decimal => []
  | .hexadecimal => ['x', 'X']

end Base

/-- Digits of a base, any two of which may have one underscore between them. -/
inductive Digits (base : Base) : List Char → Prop
  | single {d : Char} : base.isDigit d = true → Digits base [d]
  | cons {d : Char} {w : List Char} : base.isDigit d = true → Digits base w → Digits base (d :: w)
  | separated {d : Char} {w : List Char} : base.isDigit d = true → Digits base w →
      Digits base (d :: '_' :: w)

/-- Digits behind a first digit or behind the letter of a base, from which one underscore may set
    them off. -/
inductive FurtherDigits (base : Base) : List Char → Prop
  | adjoining {w : List Char} : Digits base w → FurtherDigits base w
  | setOff {w : List Char} : Digits base w → FurtherDigits base ('_' :: w)

/-- A part of a number that may be left out. -/
inductive Optional (part : List Char → Prop) : List Char → Prop
  | absent : Optional part []
  | present {w : List Char} : part w → Optional part w

/-- Whole numbers. One that begins with a zero and sets no base is octal. -/
inductive Integer : List Char → Prop
  | zero : Integer ['0']
  | decimal {d : Char} {w : List Char} : d.isDigit = true → d ≠ '0' →
      Optional (FurtherDigits .decimal) w → Integer (d :: w)
  | leadingZero {w : List Char} : FurtherDigits .octal w → Integer ('0' :: w)
  | based {base : Base} {letter : Char} {w : List Char} : letter ∈ base.letters →
      FurtherDigits base w → Integer ('0' :: letter :: w)

/-- An exponent that one of the given letters begins: decimal digits, which may have a sign. -/
inductive Exponent (letters : List Char) : List Char → Prop
  | unsigned {letter : Char} {w : List Char} : letter ∈ letters → Digits .decimal w →
      Exponent letters (letter :: w)
  | signed {letter sign : Char} {w : List Char} : letter ∈ letters → sign ∈ ['+', '-'] →
      Digits .decimal w → Exponent letters (letter :: sign :: w)

/-- What stands between the letter and the exponent of a hexadecimal fraction. -/
inductive Mantissa : List Char → Prop
  | whole {w : List Char} : FurtherDigits .hexadecimal w → Mantissa w
  | point {w fraction : List Char} : FurtherDigits .hexadecimal w →
      Optional (Digits .hexadecimal) fraction → Mantissa (w ++ '.' :: fraction)
  | pointFirst {fraction : List Char} : Digits .hexadecimal fraction →
      Mantissa ('.' :: fraction)

/-- Fractions: a number with a point or an exponent. A hexadecimal one has an exponent in any
    case. -/
inductive Float : List Char → Prop
  | point {whole fraction exponent : List Char} : Digits .decimal whole →
      Optional (Digits .decimal) fraction → Optional (Exponent ['e', 'E']) exponent →
      Float (whole ++ '.' :: (fraction ++ exponent))
  | exponent {whole exponent : List Char} : Digits .decimal whole →
      Exponent ['e', 'E'] exponent → Float (whole ++ exponent)
  | pointFirst {fraction exponent : List Char} : Digits .decimal fraction →
      Optional (Exponent ['e', 'E']) exponent → Float ('.' :: (fraction ++ exponent))
  | hexadecimal {letter : Char} {mantissa exponent : List Char} :
      letter ∈ Base.hexadecimal.letters → Mantissa mantissa → Exponent ['p', 'P'] exponent →
      Float ('0' :: letter :: (mantissa ++ exponent))

/-- Imaginary numbers: any number, or any decimal digits, and an `i`. -/
inductive Imaginary : List Char → Prop
  | digits {w : List Char} : Digits .decimal w → Imaginary (w ++ ['i'])
  | integer {w : List Char} : Integer w → Imaginary (w ++ ['i'])
  | float {w : List Char} : Float w → Imaginary (w ++ ['i'])

/-- The numbers that can be written in a source text. -/
inductive Literal (w : List Char) : Prop
  | integer : Integer w → Literal w
  | float : Float w → Literal w
  | imaginary : Imaginary w → Literal w

section Parts

variable {base : Base} {c : Char} {w : List Char}

/-- What digits of a base consist of. -/
def Base.IsPart (base : Base) (c : Char) : Prop :=
  base.isDigit c = true ∨ c = '_'

theorem Base.isDigitPart_of_isPart (hbase : base ≠ .hexadecimal) (hc : base.IsPart c) :
    isDigitPart c = true := by
  rcases hc with hc | rfl
  · apply Bool.or_eq_true_iff.mpr
    left
    cases base with
    | binary =>
      have hdigit : c = '0' ∨ c = '1' := by simpa [Base.isDigit] using hc
      rcases hdigit with rfl | rfl <;> rfl
    | octal =>
      have hdigit : '0' ≤ c ∧ c ≤ '7' := by simpa [Base.isDigit] using hc
      have hle : c ≤ '9' := Std.le_trans hdigit.2 (by decide)
      exact Bool.and_eq_true_iff.mpr ⟨decide_eq_true hdigit.1, decide_eq_true hle⟩
    | decimal => exact hc
    | hexadecimal => exact absurd rfl hbase
  · rfl

theorem Base.isHexDigitPart_of_isPart (hc : Base.hexadecimal.IsPart c) :
    isHexDigitPart c = true := by
  rcases hc with hc | rfl
  · exact Bool.or_eq_true_iff.mpr (Or.inl hc)
  · rfl

/-- Digits are a digit with digits and underscores behind it. -/
theorem Digits.exists_cons (h : Digits base w) :
    ∃ d rest, w = d :: rest ∧ base.isDigit d = true ∧ ∀ c ∈ rest, base.IsPart c := by
  induction h with
  | @single d hd => exact ⟨d, [], rfl, hd, by simp⟩
  | @cons d w hd _ ih =>
    obtain ⟨d', rest, rfl, hd', hrest⟩ := ih
    exact ⟨d, _, rfl, hd, List.forall_mem_cons.mpr ⟨Or.inl hd', hrest⟩⟩
  | @separated d w hd _ ih =>
    obtain ⟨d', rest, rfl, hd', hrest⟩ := ih
    refine ⟨d, _, rfl, hd, ?_⟩
    simp only [List.forall_mem_cons]
    exact ⟨Or.inr rfl, Or.inl hd', hrest⟩

theorem Digits.forall_isPart (h : Digits base w) : ∀ c ∈ w, base.IsPart c := by
  obtain ⟨d, rest, rfl, hd, hrest⟩ := h.exists_cons
  exact List.forall_mem_cons.mpr ⟨Or.inl hd, hrest⟩

theorem FurtherDigits.forall_isPart (h : FurtherDigits base w) : ∀ c ∈ w, base.IsPart c := by
  cases h with
  | adjoining h => exact h.forall_isPart
  | setOff h => exact List.forall_mem_cons.mpr ⟨Or.inr rfl, h.forall_isPart⟩

theorem Optional.forall_isPart {part : List Char → Prop}
    (hpart : ∀ w, part w → ∀ c ∈ w, base.IsPart c) (h : Optional part w) :
    ∀ c ∈ w, base.IsPart c := by
  cases h with
  | absent => simp
  | present h => exact hpart w h

theorem FurtherDigits.ne_nil (h : FurtherDigits base w) : w ≠ [] := by
  cases h with
  | adjoining h =>
    obtain ⟨d, rest, rfl, -⟩ := h.exists_cons
    simp
  | setOff h => simp

end Parts

end Number

/-- A character is none of those that differ from it in a property. -/
theorem forall_ne_of_apply {c : Char} {others : List Char} (f : Char → Bool)
    (h : others.all (fun x => f x != f c) = true) : ∀ x ∈ others, c ≠ x := by
  rintro x hx rfl
  simpa using List.all_eq_true.mp h c hx

namespace Phase

open Number

/-- From a phase on, all the characters belong to the lexeme, whatever is behind them. -/
def Reads (p : Phase) (w : List Char) (q : Phase) : Prop :=
  ∀ next, p.run w next = some q

/-- A phase stays what it is as long as digits of a base follow. -/
def Keeps (p : Phase) (base : Base) : Prop :=
  ∀ c, base.IsPart c → ∀ next, p.step c next = some p

/-- The phases in which a number can stop, with the kind that it has there. -/
inductive EndsNumber : Phase → Kind → Prop
  | zero : EndsNumber .zero .integer
  | whole : EndsNumber .whole .integer
  | based : EndsNumber .based .integer
  | hexWhole : EndsNumber .hexWhole .integer
  | fraction : EndsNumber .fraction .float
  | exponent : EndsNumber .exponent .float
  | imaginary : EndsNumber .imaginary .imaginary

section Reads

variable {p q r : Phase} {base : Base} {c : Char} {u w letters : List Char} {next : Option Char}

theorem Reads.nil (p : Phase) : p.Reads [] p :=
  fun _ => rfl

theorem Reads.cons (hstep : ∀ next, p.step c next = some q) (h : q.Reads w r) :
    p.Reads (c :: w) r :=
  fun next => run_cons_eq_some.mpr ⟨q, hstep _, h next⟩

theorem Reads.append (h : p.Reads u q) (h' : q.Reads w r) : p.Reads (u ++ w) r := by
  intro next
  rw [run_append, h]
  exact h' next

theorem Keeps.reads (h : p.Keeps base) (hw : ∀ c ∈ w, base.IsPart c) : p.Reads w p := by
  induction w with
  | nil => exact .nil p
  | cons c w ih =>
    obtain ⟨hc, hw⟩ := List.forall_mem_cons.mp hw
    exact .cons (h c hc) (ih hw)

theorem keeps_whole (hbase : base ≠ .hexadecimal) : whole.Keeps base := by
  intro c hc next
  have hpart := Base.isDigitPart_of_isPart hbase hc
  have hpoint : c ≠ '.' := by
    rintro rfl
    cases hpart
  simp [step, stepDecimal, hpart, hpoint]

theorem keeps_based (hbase : base ≠ .hexadecimal) : based.Keeps base := by
  intro c hc next
  simp [step, Base.isDigitPart_of_isPart hbase hc]

theorem keeps_fraction : fraction.Keeps .decimal := by
  intro c hc next
  simp [step, stepDecimal, Base.isDigitPart_of_isPart (by decide) hc]

theorem keeps_exponent : exponent.Keeps .decimal := by
  intro c hc next
  simp [step, stepExponent, Base.isDigitPart_of_isPart (by decide) hc]

theorem keeps_hexWhole : hexWhole.Keeps .hexadecimal := by
  intro c hc next
  have hpart := Base.isHexDigitPart_of_isPart hc
  have hpoint : c ≠ '.' := by
    rintro rfl
    cases hpart
  simp [step, stepHexadecimal, hpart, hpoint]

theorem keeps_hexFraction : hexFraction.Keeps .hexadecimal := by
  intro c hc next
  simp [step, stepHexadecimal, Base.isHexDigitPart_of_isPart hc]

/-- Behind a zero that sets no base, digits are those of a whole number. -/
theorem step_zero (hbase : base ≠ .hexadecimal) (hc : base.IsPart c) (next : Option Char) :
    zero.step c next = some .whole := by
  have hpart := Base.isDigitPart_of_isPart hbase hc
  have hne : ∀ x ∈ ['x', 'X', 'b', 'B', 'o', 'O', '.'], c ≠ x :=
    forall_ne_of_apply isDigitPart (by rw [hpart]; rfl)
  simp only [List.forall_mem_cons] at hne
  simp [step, stepDecimal, hpart, hne]

theorem reads_zero (hbase : base ≠ .hexadecimal) (hw : ∀ c ∈ w, base.IsPart c) (hne : w ≠ []) :
    zero.Reads w .whole := by
  obtain ⟨c, w, rfl⟩ := List.exists_cons_of_ne_nil hne
  obtain ⟨hc, hw⟩ := List.forall_mem_cons.mp hw
  exact .cons (step_zero hbase hc) ((keeps_whole hbase).reads hw)

/-- The digits of an exponent follow its letter, or the sign that does. -/
theorem reads_exponent (hletters : ∀ c ∈ letters, ∀ next, p.step c next = some .exponentMark)
    (h : Exponent letters w) : p.Reads w .exponent := by
  cases h with
  | unsigned hletter hdigits =>
    obtain ⟨d, rest, rfl, hd, hrest⟩ := hdigits.exists_cons
    have hfirst : ∀ next, exponentMark.step d next = some .exponent := by
      intro next
      simp [step, stepExponent, Base.isDigitPart_of_isPart (by decide) (Or.inl hd)]
    exact .cons (hletters _ hletter) (.cons hfirst (keeps_exponent.reads hrest))
  | @signed letter sign w hletter hsign hdigits =>
    obtain ⟨d, rest, rfl, hd, hrest⟩ := hdigits.exists_cons
    have hsign' : sign = '+' ∨ sign = '-' := by simpa using hsign
    refine .cons (hletters _ hletter) ?_
    intro next
    refine run_cons_eq_some.mpr ⟨.exponent, ?_, keeps_exponent.reads hdigits.forall_isPart next⟩
    -- The sign belongs to the exponent, because the digit behind it does.
    rw [step_exponentMark_sign hsign']
    exact if_pos hd

theorem reads_optionalExponent
    (hletters : ∀ c ∈ letters, ∀ next, p.step c next = some .exponentMark)
    (h : Optional (Exponent letters) w) : p.Reads w p ∨ p.Reads w .exponent := by
  cases h with
  | absent => exact Or.inl (.nil p)
  | present h => exact Or.inr (reads_exponent hletters h)

end Reads

end Phase

section IsReadTo

open Number Phase

variable {p q r : Phase} {k : Kind} {c : Char} {u w rest : List Char}

/-- The characters are read as one lexeme, to the given phase, whatever is behind them. -/
def IsReadTo (w : List Char) (q : Phase) : Prop :=
  ∃ c taken, w = c :: taken ∧ ∀ rest, (Phase.start c (taken ++ rest)).Reads taken q

theorem isReadTo_cons (hstart : ∀ rest, Phase.start c (w ++ rest) = p) (h : p.Reads w q) :
    IsReadTo (c :: w) q := by
  refine ⟨c, w, rfl, ?_⟩
  intro rest
  rwa [hstart]

theorem IsReadTo.append (h : IsReadTo u q) (hreads : q.Reads w r) : IsReadTo (u ++ w) r := by
  obtain ⟨c, taken, rfl, htaken⟩ := h
  refine ⟨c, taken ++ w, rfl, ?_⟩
  intro rest
  rw [List.append_assoc]
  exact (htaken _).append hreads

/-- In front of a text in which it stops, it is the first lexeme. -/
theorem IsReadTo.lexemesOfChars_append (h : IsReadTo w q) (hstop : q.StopsBefore rest) :
    lexemesOfChars (w ++ rest) = Lexeme.finish q w.reverse :: lexemesOfChars rest := by
  obtain ⟨c, taken, rfl, htaken⟩ := h
  exact (cuts_iff.mp (.cons (htaken rest _) hstop (cuts_lexemesOfChars rest))).symm

theorem start_zero (rest : List Char) : Phase.start '0' rest = .zero := by
  simp [Phase.start, isBlank, isLineBreak]

theorem start_digit (hd : c.isDigit = true) (hc : c ≠ '0') (rest : List Char) :
    Phase.start c rest = .whole := by
  have hne : ∀ x ∈ [' ', '\t', '\x0c', '\r', '\n', '/', '"', '\'', '`'], c ≠ x :=
    forall_ne_of_apply Char.isDigit (by rw [hd]; rfl)
  simp only [List.forall_mem_cons] at hne
  simp [Phase.start, isBlank, isLineBreak, hne, hc, hd]

theorem start_point (hd : c.isDigit = true) (rest : List Char) :
    Phase.start '.' (c :: rest) = .fraction := by
  simp [Phase.start, isBlank, isLineBreak, hd]

/-- Decimal digits are read as a whole number. -/
theorem isReadTo_digits (h : Digits .decimal w) : ∃ q, (q = .zero ∨ q = .whole) ∧ IsReadTo w q := by
  obtain ⟨d, rest, rfl, hd, hrest⟩ := h.exists_cons
  by_cases hzero : d = '0'
  · subst hzero
    by_cases hne : rest = []
    · subst hne
      exact ⟨.zero, Or.inl rfl, isReadTo_cons start_zero (.nil _)⟩
    · exact ⟨.whole, Or.inr rfl, isReadTo_cons start_zero (reads_zero (by decide) hrest hne)⟩
  · exact ⟨.whole, Or.inr rfl,
      isReadTo_cons (fun _ => start_digit hd hzero _) ((keeps_whole (by decide)).reads hrest)⟩

theorem step_letter_based :
    ∀ c ∈ ['b', 'B', 'o', 'O'], ∀ next, Phase.zero.step c next = some .based := by
  simp [Phase.step]

theorem step_letter_hexadecimal :
    ∀ c ∈ ['x', 'X'], ∀ next, Phase.zero.step c next = some .hexWhole := by
  simp [Phase.step]

/-- The letter of a base leads to a phase that keeps the digits of that base. -/
theorem exists_step_letter {base : Base} {letter : Char} (h : letter ∈ base.letters) :
    ∃ q, (∀ next, Phase.zero.step letter next = some q) ∧ q.Keeps base ∧
      q.EndsNumber .integer := by
  cases base with
  | binary =>
    have hmem : letter ∈ ['b', 'B', 'o', 'O'] := List.mem_append_left ['o', 'O'] h
    exact ⟨.based, step_letter_based letter hmem, keeps_based (by decide), .based⟩
  | octal =>
    have hmem : letter ∈ ['b', 'B', 'o', 'O'] := List.mem_append_right ['b', 'B'] h
    exact ⟨.based, step_letter_based letter hmem, keeps_based (by decide), .based⟩
  | decimal => cases h
  | hexadecimal =>
    exact ⟨.hexWhole, step_letter_hexadecimal letter h, keeps_hexWhole, .hexWhole⟩

theorem Number.Integer.isReadTo (h : Integer w) : ∃ q, IsReadTo w q ∧ q.EndsNumber .integer := by
  cases h with
  | zero => exact ⟨.zero, isReadTo_cons start_zero (.nil _), .zero⟩
  | decimal hd hne hrest =>
    have hparts := hrest.forall_isPart fun _ => FurtherDigits.forall_isPart
    exact ⟨.whole, isReadTo_cons (fun _ => start_digit hd hne _) ((keeps_whole (by decide)).reads hparts),
      .whole⟩
  | leadingZero hrest =>
    exact ⟨.whole,
      isReadTo_cons start_zero (reads_zero (by decide) hrest.forall_isPart hrest.ne_nil), .whole⟩
  | based hletter hrest =>
    obtain ⟨q, hstep, hkeeps, hends⟩ := exists_step_letter hletter
    exact ⟨q, isReadTo_cons start_zero (.cons hstep (hkeeps.reads hrest.forall_isPart)), hends⟩

theorem step_exponentLetter (hq : q = .zero ∨ q = .whole ∨ q = .fraction) :
    ∀ c ∈ ['e', 'E'], ∀ next, q.step c next = some .exponentMark := by
  rcases hq with rfl | rfl | rfl <;> simp [Phase.step, stepDecimal, isDigitPart]

/-- Behind a point, digits and an exponent may follow. -/
theorem exists_reads_fraction {fraction exponent : List Char}
    (hfraction : ∀ c ∈ fraction, Base.decimal.IsPart c)
    (hexponent : Optional (Exponent ['e', 'E']) exponent) :
    ∃ q, Phase.fraction.Reads (fraction ++ exponent) q ∧ q.EndsNumber .float := by
  have hdigits := keeps_fraction.reads hfraction
  rcases reads_optionalExponent (step_exponentLetter (Or.inr (Or.inr rfl))) hexponent with hread | hread
  · exact ⟨_, hdigits.append hread, .fraction⟩
  · exact ⟨_, hdigits.append hread, .exponent⟩

/-- The exponent of a hexadecimal number follows its digits, before or behind the point. -/
theorem exists_reads_mantissa (h : Mantissa w) :
    ∃ q, Phase.hexWhole.Reads w q ∧ ∀ c ∈ ['p', 'P'], ∀ next, q.step c next = some .exponentMark := by
  have hwhole : ∀ c ∈ ['p', 'P'], ∀ next, Phase.hexWhole.step c next = some .exponentMark := by
    simp [Phase.step, stepHexadecimal, isHexDigitPart]
  have hbehind : ∀ c ∈ ['p', 'P'], ∀ next, Phase.hexFraction.step c next = some .exponentMark := by
    simp [Phase.step, stepHexadecimal, isHexDigitPart]
  have hpoint : ∀ {fraction : List Char}, (∀ c ∈ fraction, Base.hexadecimal.IsPart c) →
      Phase.hexWhole.Reads ('.' :: fraction) .hexFraction :=
    fun hfraction => .cons (fun _ => rfl) (keeps_hexFraction.reads hfraction)
  cases h with
  | whole hdigits => exact ⟨_, keeps_hexWhole.reads hdigits.forall_isPart, hwhole⟩
  | point hdigits hfraction =>
    exact ⟨_, (keeps_hexWhole.reads hdigits.forall_isPart).append
      (hpoint (hfraction.forall_isPart fun _ => Digits.forall_isPart)), hbehind⟩
  | pointFirst hfraction => exact ⟨_, hpoint hfraction.forall_isPart, hbehind⟩

theorem Number.Float.isReadTo (h : Number.Float w) :
    ∃ q, IsReadTo w q ∧ q.EndsNumber .float := by
  cases h with
  | point hwhole hfraction hexponent =>
    obtain ⟨p, hp, hread⟩ := isReadTo_digits hwhole
    have hpoint : ∀ next, p.step '.' next = some .fraction := by
      rcases hp with rfl | rfl <;> exact fun _ => rfl
    obtain ⟨q, hbehind, hends⟩ :=
      exists_reads_fraction (hfraction.forall_isPart fun _ => Digits.forall_isPart) hexponent
    exact ⟨q, hread.append (.cons hpoint hbehind), hends⟩
  | exponent hwhole hexponent =>
    obtain ⟨p, hp, hread⟩ := isReadTo_digits hwhole
    have hletters := step_exponentLetter (hp.imp_right Or.inl)
    exact ⟨_, hread.append (reads_exponent hletters hexponent), .exponent⟩
  | pointFirst hfraction hexponent =>
    obtain ⟨q, hbehind, hends⟩ := exists_reads_fraction hfraction.forall_isPart hexponent
    obtain ⟨d, rest, rfl, hd, -⟩ := hfraction.exists_cons
    exact ⟨q, isReadTo_cons (fun _ => start_point hd _) hbehind, hends⟩
  | hexadecimal hletter hmantissa hexponent =>
    have hstep := step_letter_hexadecimal _ hletter
    obtain ⟨q, hread, hletters⟩ := exists_reads_mantissa hmantissa
    have hnumber := hread.append (reads_exponent hletters hexponent)
    exact ⟨_, isReadTo_cons (fun _ => start_zero _) (.cons hstep hnumber), .exponent⟩

/-- An `i` makes every number imaginary that is not. -/
theorem step_i (h : q.EndsNumber k) (hk : k ≠ .imaginary) (next : Option Char) :
    q.step 'i' next = some .imaginary := by
  cases h with
  | imaginary => exact absurd rfl hk
  | _ => rfl

theorem Number.Imaginary.isReadTo (h : Imaginary w) : IsReadTo w .imaginary := by
  have hi : ∀ {u p k}, IsReadTo u p → p.EndsNumber k → k ≠ .imaginary →
      IsReadTo (u ++ ['i']) .imaginary :=
    fun hread hends hk => hread.append (.cons (step_i hends hk) (.nil _))
  cases h with
  | digits hdigits =>
    obtain ⟨p, rfl | rfl, hread⟩ := isReadTo_digits hdigits
    · exact hi hread .zero (by decide)
    · exact hi hread .whole (by decide)
  | integer hinteger =>
    obtain ⟨p, hread, hends⟩ := hinteger.isReadTo
    exact hi hread hends (by decide)
  | float hfloat =>
    obtain ⟨p, hread, hends⟩ := hfloat.isReadTo
    exact hi hread hends (by decide)

/-- What an `i` belongs to is no number, or an imaginary one. -/
theorem Phase.EndsNumber.eq_imaginary_of_step {next : Option Char} (h : q.EndsNumber k)
    (hstep : p.step 'i' next = some q) : k = .imaginary := by
  have hdigit : isDigitPart 'i' = false := by decide
  have hhex : isHexDigitPart 'i' = false := by decide
  cases p with
  | mark m left =>
    cases left with
    | zero => cases hstep
    | succ left =>
      cases hstep
      cases h
  | _ => grind [step, stepDecimal, stepHexadecimal, stepExponent, EndsNumber]

theorem IsReadTo.eq_imaginary_of_getLast? (h : IsReadTo w q) (hends : q.EndsNumber k)
    (hlast : w.getLast? = some 'i') : k = .imaginary := by
  obtain ⟨u, rfl⟩ := List.getLast?_eq_some_iff.mp hlast
  obtain ⟨c, taken, hw, htaken⟩ := h
  cases u with
  | nil =>
    cases hw
    have hread : Phase.start 'i' [] = q := Option.some.inj (htaken [] none)
    have hword : Phase.start 'i' [] = .word := by decide
    rw [← hread, hword] at hends
    cases hends
  | cons _ u =>
    cases hw
    have hread : (Phase.start c (u ++ ['i'] ++ [])).run (u ++ ['i']) none = some q :=
      htaken [] none
    rw [run_append, Option.bind_eq_some_iff] at hread
    obtain ⟨p, -, hi⟩ := hread
    obtain ⟨p', hstep, hnil⟩ := run_cons_eq_some.mp hi
    cases hnil
    exact hends.eq_imaginary_of_step hstep

theorem Number.Imaginary.getLast? (h : Imaginary w) : w.getLast? = some 'i' := by
  cases h <;> exact List.getLast?_concat

/-- A number is read to its end, where it is imaginary if an `i` stands there, and otherwise what the
    grammar says. -/
theorem Number.Literal.isReadTo (h : Literal w) :
    ∃ q k, IsReadTo w q ∧ q.EndsNumber k ∧
      (w.getLast? = some 'i' → k = .imaginary) ∧
      (w.getLast? ≠ some 'i' → Number.Float w → k = .float) ∧
      (w.getLast? ≠ some 'i' → ¬ Number.Float w → k = .integer) := by
  by_cases hfloat : Number.Float w
  · obtain ⟨q, hread, hends⟩ := hfloat.isReadTo
    exact ⟨q, _, hread, hends, hread.eq_imaginary_of_getLast? hends, fun _ _ => rfl,
      fun _ hnot => absurd hfloat hnot⟩
  · cases h with
    | integer hinteger =>
      obtain ⟨q, hread, hends⟩ := hinteger.isReadTo
      exact ⟨q, _, hread, hends, hread.eq_imaginary_of_getLast? hends,
        fun _ h => absurd h hfloat, fun _ _ => rfl⟩
    | float h => exact absurd h hfloat
    | imaginary himaginary =>
      exact ⟨_, _, himaginary.isReadTo, .imaginary, fun _ => rfl,
        fun hlast => absurd himaginary.getLast? hlast,
        fun hlast => absurd himaginary.getLast? hlast⟩

theorem Phase.EndsNumber.kind_eq (h : q.EndsNumber k) (text : String) : q.kind text = k := by
  cases h <;> rfl

theorem Phase.EndsNumber.fault?_eq (h : q.EndsNumber k) : q.fault? = none := by
  cases h <;> rfl

theorem alphanum_of_isHexDigitPart (h : isHexDigitPart c = true) :
    c.isAlphanum = true ∨ c = '_' := by
  simp only [isHexDigitPart, Bool.or_eq_true, Bool.and_eq_true, decide_eq_true_eq] at h
  rcases h with ((hdigit | hlower) | hupper) | hline
  · exact Or.inl (Bool.or_eq_true_iff.mpr (Or.inr hdigit))
  · have hle : c ≤ 'z' := Std.le_trans hlower.2 (by decide)
    have hletter : c.isLower = true :=
      Bool.and_eq_true_iff.mpr ⟨decide_eq_true hlower.1, decide_eq_true hle⟩
    have halpha : c.isAlpha = true := Bool.or_eq_true_iff.mpr (Or.inr hletter)
    exact Or.inl (Bool.or_eq_true_iff.mpr (Or.inl halpha))
  · have hle : c ≤ 'Z' := Std.le_trans hupper.2 (by decide)
    have hletter : c.isUpper = true := decide_eq_true ⟨hupper.1, hle⟩
    have halpha : c.isAlpha = true := Bool.or_eq_true_iff.mpr (Or.inl hletter)
    exact Or.inl (Bool.or_eq_true_iff.mpr (Or.inl halpha))
  · exact Or.inr hline

/-- A number stops in front of what is neither a letter, a digit, an underscore nor a point. -/
theorem Phase.EndsNumber.stopsBefore (h : q.EndsNumber k)
    (hrest : ∀ c ∈ rest.head?, c.isAlphanum = false ∧ c ≠ '_' ∧ c ≠ '.') : q.StopsBefore rest := by
  cases rest with
  | nil => trivial
  | cons c rest =>
    obtain ⟨hc, hunderscore, hpoint⟩ := hrest c rfl
    have hne : ∀ x ∈ ['e', 'E', 'i', 'p', 'P', 'x', 'X', 'b', 'B', 'o', 'O'], c ≠ x :=
      forall_ne_of_apply Char.isAlphanum (by rw [hc]; rfl)
    simp only [List.forall_mem_cons] at hne
    have hhex : isHexDigitPart c = false := by
      apply Bool.eq_false_iff.mpr
      intro hpart
      rcases alphanum_of_isHexDigitPart hpart with halphanum | hline
      · rw [halphanum] at hc
        cases hc
      · exact hunderscore hline
    have hdigit : isDigitPart c = false := by
      simp only [isHexDigitPart, Bool.or_eq_false_iff] at hhex
      exact Bool.or_eq_false_iff.mpr ⟨hhex.1.1.1, hhex.2⟩
    show q.step c rest.head? = none
    cases h <;> simp [step, stepDecimal, stepHexadecimal, stepExponent, hdigit, hhex, hne, hpoint]

end IsReadTo

end Semicolons
