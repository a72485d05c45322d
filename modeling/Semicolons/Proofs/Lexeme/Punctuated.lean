import Semicolons.Proofs.Lexeme.Lookahead

/-!
# Semicolons written between lexemes

A semicolon behind a lexeme on which a statement can end, and which is not left open, becomes a
lexeme of its own and changes no other one. `Cuts.punctuated` says so for any choice of such
lexemes in any text: cutting the text with the semicolons in it gives the lexemes of the text with
the semicolons among them.
-/

namespace Semicolons

namespace Lexeme

/-- The semicolon. -/
def semicolon : Lexeme :=
  ⟨.punctuation .semicolon, ";", none⟩

/-- A lexeme on which a statement can end, and which has its own end. -/
def EndsWhole (l : Lexeme) : Prop :=
  l.kind.endsStatement = true ∧ l.fault = none

@[simp] theorem chars_semicolon : semicolon.chars = [';'] :=
  rfl

end Lexeme

/-- Lexemes with a semicolon after each one that is marked. -/
def punctuated : List (Lexeme × Bool) → List Lexeme
  | [] => []
  | (l, true) :: rest => l :: .semicolon :: punctuated rest
  | (l, false) :: rest => l :: punctuated rest

namespace Phase

theorem step_eq_mark {p : Phase} {c : Char} {next : Option Char} {m : Punctuation} {left : Nat}
    (h : p.step c next = some (.mark m left)) : p = .mark m (left + 1) := by
  cases p with
  | mark m' left' =>
    cases left' with
    | zero => cases h
    | succ left' =>
      cases h
      rfl
  | _ =>
    simp only [step, stepDecimal, stepHexadecimal, stepExponent,
      apply_ite (· = some (mark m left)), Option.some.injEq, reduceCtorEq, ite_self] at h

/-- The characters of a mark are read in a lexeme that begins as that mark. -/
theorem run_eq_mark {p : Phase} {taken : List Char} {next : Option Char} {m : Punctuation}
    {left : Nat} (h : p.run taken next = some (.mark m left)) : ∃ left', p = .mark m left' := by
  induction taken generalizing p with
  | nil =>
    cases h
    exact ⟨left, rfl⟩
  | cons c taken ih =>
    obtain ⟨p', hstep, hrest⟩ := run_cons_eq_some.mp h
    obtain ⟨left', rfl⟩ := ih hrest
    exact ⟨left' + 1, step_eq_mark hstep⟩

theorem startBeforeMark?_ne_mark {c : Char} {next : Option Char} {m : Punctuation} {left : Nat} :
    startBeforeMark? c next ≠ some (.mark m left) := by
  simp only [startBeforeMark?, ne_eq, apply_ite (· = some (mark m left)), Option.some.injEq,
    reduceCtorEq, ite_self, not_false_eq_true]

/-- A lexeme that begins as a mark begins as the longest one, with its first character read. -/
theorem longest?_of_start_mark {c : Char} {rest : List Char} {m : Punctuation} {left : Nat}
    (h : start c rest = .mark m left) :
    Punctuation.longest? (c :: rest) = some m ∧ left = m.spelling.length - 1 := by
  rw [start_eq] at h
  cases hs : startBeforeMark? c rest.head? with
  | some p =>
    rw [hs] at h
    exact absurd (hs.trans (congrArg some h)) startBeforeMark?_ne_mark
  | none =>
    rw [hs, Option.getD_none, startMark] at h
    cases hl : Punctuation.longest? (c :: rest) with
    | none =>
      rw [hl] at h
      cases h
    | some p =>
      rw [hl] at h
      cases h
      exact ⟨rfl, rfl⟩

/-- A mark has been read to its end where a lexeme stops, and the lexeme spells it. -/
theorem mark_of_stops {c : Char} {taken rest : List Char} {m : Punctuation} {left : Nat}
    (hrun : (start c (taken ++ rest)).run taken rest.head? = some (.mark m left))
    (hstop : (mark m left).StopsBefore rest) : left = 0 ∧ m.spelling.toList = c :: taken := by
  obtain ⟨left', hstart⟩ := run_eq_mark hrun
  obtain ⟨hlongest, rfl⟩ := longest?_of_start_mark hstart
  rw [hstart] at hrun
  obtain ⟨h, hspelling⟩ := run_longest_mark hlongest hrun hstop
  cases h
  exact ⟨rfl, hspelling⟩

theorem eq_mark_of_kind {q : Phase} {text : String} {m : Punctuation}
    (h : q.kind text = .punctuation m) : ∃ left, q = .mark m left := by
  cases q with
  | mark m' left =>
    cases h
    exact ⟨left, rfl⟩
  | word =>
    simp only [kind] at h
    cases hk : Keyword.ofSpelling? text <;> simp [hk] at h
  | quoted quote => cases quote <;> cases h
  | escape quote => cases quote <;> cases h
  | quotedEnd quote => cases quote <;> cases h
  | _ => cases h

/-- A semicolon is no part of a lexeme that has its own end. -/
theorem step_semicolon {q : Phase} {taken : List Char}
    (hwhole : (Lexeme.finish q taken).EndsWhole) (hmark : ∀ m left, q ≠ .mark m (left + 1))
    (next : Option Char) : q.step ';' next = none := by
  obtain ⟨hends, hfault⟩ := hwhole
  cases q with
  | mark m left =>
    cases left with
    | zero => rfl
    | succ left => exact absurd rfl (hmark m left)
  | commentEnd | quotedEnd | rawEnd | imaginary | stray => rfl
  | zero | whole | fraction | based | hexWhole | hexFraction | exponent => rfl
  | exponentMark => exact step_congr_next (by decide) next none
  | word =>
    show (if isWordPart ';' then some word else none) = none
    rw [if_neg (by decide)]
  | blanks | lineBreaks | lineComment => simp [Lexeme.finish, kind, Kind.endsStatement,
      Kind.isLiteral] at hends
  | commentSlash | comment | commentStar | quoted | escape | raw =>
    simp [Lexeme.finish, fault?] at hfault

theorem startBeforeMark?_of_semicolon (next : Option Char) : startBeforeMark? ';' next = none := by
  have hdigit : Char.isDigit ';' = false := by decide
  have hword : isWordStart ';' = false := by decide
  simp [startBeforeMark?, isBlank, isLineBreak, hdigit, hword]

theorem start_semicolon (rest : List Char) : start ';' rest = .mark .semicolon 0 := by
  have hlongest : Punctuation.longest? (';' :: rest) = some .semicolon := by
    rw [Punctuation.longest?_eq_some_iff]
    refine ⟨⟨rest, rfl⟩, ?_⟩
    intro p hp
    obtain ⟨c, chars, hchars⟩ := List.exists_cons_of_length_pos p.length_toList_spelling_pos
    obtain ⟨tail, htail⟩ := hp
    rw [hchars] at htail
    have hc : c = ';' := (List.cons.inj htail).1
    have hsemi : p = .semicolon := by
      apply Punctuation.eq_semicolon_of_mem
      rw [hchars, hc]
      exact List.mem_cons_self
    exact Nat.le_of_eq (by rw [hsemi])
  rw [start_eq, startBeforeMark?_of_semicolon, Option.getD_none, startMark, hlongest]
  rfl

end Phase

/-- A lexeme that is a mark spells it. -/
theorem Cuts.chars_of_punctuation {text : List Char} {ls : List Lexeme} (h : Cuts text ls)
    {l : Lexeme} (hl : l ∈ ls) {m : Punctuation} (hkind : l.kind = .punctuation m) :
    l.chars = m.spelling.toList := by
  obtain ⟨before, after, rfl⟩ := List.append_of_mem hl
  obtain ⟨c, taken, q, rfl, hrun, hstop⟩ := h.exists_run_of_append
  obtain ⟨left, rfl⟩ := Phase.eq_mark_of_kind hkind
  rw [Lexeme.chars_finish, List.reverse_reverse, (Phase.mark_of_stops hrun hstop).2]

/-- A semicolon in front of a text is cut off on its own. -/
theorem Cuts.semicolon {text : List Char} {ls : List Lexeme} (h : Cuts text ls) :
    Cuts (';' :: text) (.semicolon :: ls) := by
  have hrun : (Phase.start ';' ([] ++ text)).run [] text.head? = some (.mark .semicolon 0) := by
    rw [Phase.start_semicolon]
    rfl
  have hstop : (Phase.mark .semicolon 0).StopsBefore text := by
    cases text with
    | nil => trivial
    | cons c text => rfl
  exact .cons hrun hstop h

/-- Written semicolons leave a text the same up to the first of them. -/
theorem sameUpToSemicolon_punctuated (choice : List (Lexeme × Bool)) :
    SameUpToSemicolon ((choice.map Prod.fst).flatMap Lexeme.chars)
      ((punctuated choice).flatMap Lexeme.chars) := by
  induction choice with
  | nil => exact .refl _
  | cons x rest ih =>
    obtain ⟨l, written⟩ := x
    cases written with
    | false => exact ih.append_left l.chars
    | true => exact (SameUpToSemicolon.semicolon _ _).append_left l.chars

/-- A text with semicolons written between its lexemes begins as it did. -/
theorem head?_punctuated {choice : List (Lexeme × Bool)} (h : ∀ x ∈ choice, x.1.chars ≠ []) :
    ((punctuated choice).flatMap Lexeme.chars).head? =
      ((choice.map Prod.fst).flatMap Lexeme.chars).head? := by
  cases choice with
  | nil => rfl
  | cons x rest =>
    obtain ⟨l, written⟩ := x
    obtain ⟨c, chars, hchars⟩ := List.exists_cons_of_ne_nil (h (l, written) List.mem_cons_self)
    cases written <;> simp [Semicolons.punctuated, hchars]

/-- Semicolons written after lexemes that end whole are cut off as lexemes of their own, and all
    other lexemes stay what they are. -/
theorem Cuts.punctuated {text : List Char} {ls : List Lexeme} (h : Cuts text ls) :
    ∀ {choice : List (Lexeme × Bool)}, choice.map Prod.fst = ls →
      (∀ l, (l, true) ∈ choice → l.EndsWhole) →
      Cuts ((punctuated choice).flatMap Lexeme.chars) (punctuated choice) := by
  induction h with
  | nil =>
    intro choice hls _
    rw [List.map_eq_nil_iff.mp hls]
    exact .nil
  | @cons c taken rest q ls hrun hstop htail ih =>
    intro choice hls hwhole
    obtain ⟨⟨l, written⟩, choice, rfl, rfl, rfl⟩ := List.map_eq_cons_iff.mp hls
    have hcut := ih rfl fun l hl => hwhole l (List.mem_cons_of_mem _ hl)
    have hsame := sameUpToSemicolon_punctuated choice
    rw [htail.flatMap_chars] at hsame
    cases written with
    | false =>
      have hhead : ((Semicolons.punctuated choice).flatMap Lexeme.chars).head? = rest.head? := by
        rw [head?_punctuated fun x hx => htail.chars_ne_nil (List.mem_map_of_mem hx),
          htail.flatMap_chars]
      have hstart := Phase.start_congr hrun hstop hsame
      have hnew := Cuts.cons (hstart ▸ Phase.run_of_stops hrun hstop _)
        (hstop.congr hsame hhead) hcut
      simpa [Semicolons.punctuated] using hnew
    | true =>
      have hends := hwhole _ List.mem_cons_self
      have hstart := Phase.start_congr hrun hstop
        (.semicolon rest ((Semicolons.punctuated choice).flatMap Lexeme.chars))
      have hstep := Phase.step_semicolon hends
        (fun m left hq => by
          subst hq
          exact absurd (Phase.mark_of_stops hrun hstop).1 (Nat.succ_ne_zero left))
      have hstops :
          q.StopsBefore (';' :: (Semicolons.punctuated choice).flatMap Lexeme.chars) := hstep _
      have hnew := Cuts.cons (hstart ▸ Phase.run_of_stops hrun hstop _) hstops hcut.semicolon
      simpa [Semicolons.punctuated] using hnew

end Semicolons
