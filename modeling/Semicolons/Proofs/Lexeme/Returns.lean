import Semicolons.Proofs.Lexeme.LineBreak
import Semicolons.Proofs.Lexeme.Punctuated

/-!
# Texts without carriage returns

A text in which every carriage return is followed by a line feed may be written without its carriage
returns. Its lexemes then lose theirs too, and stay what they are otherwise (`Cuts.withoutReturns`).
The reason is that no lexeme stops between a carriage return and the line feed behind it
(`Cuts.pairsReturns_chars`), and that the two together lead to the phase that the line feed alone
leads to (`Phase.step_return`).
-/

namespace Semicolons

/-- A text without its carriage returns. -/
def dropReturns (text : List Char) : List Char :=
  text.filter (· ≠ '\r')

@[simp] theorem dropReturns_nil : dropReturns [] = [] :=
  rfl

@[simp] theorem dropReturns_return (text : List Char) :
    dropReturns ('\r' :: text) = dropReturns text :=
  rfl

theorem dropReturns_cons {c : Char} (hc : c ≠ '\r') (text : List Char) :
    dropReturns (c :: text) = c :: dropReturns text := by
  simp [dropReturns, hc]

@[simp] theorem dropReturns_append (a b : List Char) :
    dropReturns (a ++ b) = dropReturns a ++ dropReturns b :=
  List.filter_append a b

theorem dropReturns_of_not_mem {text : List Char} (h : '\r' ∉ text) : dropReturns text = text := by
  apply List.filter_eq_self.mpr
  intro c hc
  have hne : c ≠ '\r' := fun he => h (he ▸ hc)
  simpa using hne

namespace PairsReturns

variable {text : List Char}

theorem cons {c : Char} (hc : c ≠ '\r') (h : PairsReturns text) : PairsReturns (c :: text) :=
  ⟨fun he => absurd he hc, h⟩

theorem lineEnd (h : PairsReturns text) : PairsReturns ('\r' :: '\n' :: text) :=
  ⟨fun _ => rfl, h.cons (by decide)⟩

/-- A text in which every carriage return is followed by a line feed is read one character at a
    time, except that a carriage return and its line feed are read together. -/
theorem induction {motive : ∀ text : List Char, PairsReturns text → Prop}
    (nil : motive [] trivial)
    (other : ∀ (c : Char) (rest : List Char) (hc : c ≠ '\r') (h : PairsReturns rest),
      motive rest h → motive (c :: rest) (h.cons hc))
    (pair : ∀ (rest : List Char) (h : PairsReturns rest),
      motive rest h → motive ('\r' :: '\n' :: rest) h.lineEnd) :
    ∀ {text : List Char} (h : PairsReturns text), motive text h
  | [], _ => nil
  | c :: rest, h => by
    by_cases hc : c = '\r'
    · subst hc
      cases rest with
      | nil => cases h.1 rfl
      | cons d rest =>
        obtain rfl : d = '\n' := Option.some.inj (h.1 rfl)
        exact pair rest h.2.2 (induction nil other pair h.2.2)
    · exact other c rest hc h.2 (induction nil other pair h.2)

theorem append {a b : List Char} (ha : PairsReturns a) (hb : PairsReturns b) :
    PairsReturns (a ++ b) := by
  induction ha using PairsReturns.induction with
  | nil => exact hb
  | other c rest hc _ ih => exact ih.cons hc
  | pair rest _ ih => exact ih.lineEnd

/-- Without its carriage returns, such a text is the same up to its first line break. -/
theorem sameUpToLineBreak (h : PairsReturns text) : SameUpToLineBreak text (dropReturns text) := by
  induction h using PairsReturns.induction with
  | nil => exact .nil
  | other c rest hc _ ih =>
    rw [dropReturns_cons hc]
    exact .cons ih
  | pair rest _ _ => exact .lineBreak rfl rfl

/-- A first part of such a text is one too, unless it ends with a carriage return. -/
theorem of_append_left {a b : List Char} (h : PairsReturns (a ++ b))
    (hlast : a.getLast? ≠ some '\r') : PairsReturns a := by
  induction a with
  | nil => trivial
  | cons c a ih =>
    cases a with
    | nil =>
      refine ⟨?_, trivial⟩
      rintro rfl
      exact absurd rfl hlast
    | cons d a => exact ⟨h.1, ih h.2 hlast⟩

end PairsReturns

/-- Where two texts are the same up to a line break, so is what is written behind them. -/
theorem SameUpToLineBreak.head?_or {r r' : List Char} {next next' : Option Char}
    (h : SameUpToLineBreak r r') (hnext : AlikeAhead next next') :
    AlikeAhead (r.head?.or next) (r'.head?.or next') := by
  cases h with
  | nil => exact hnext
  | lineBreak hb hb' => exact Or.inr ⟨hb, hb'⟩
  | cons _ => exact Or.inl rfl

namespace Phase

/-- A phase in which no mark is being read. -/
def IsNoMark (p : Phase) : Prop :=
  ∀ m left, p ≠ .mark m left

theorem IsNoMark.step {p q : Phase} {c : Char} {next : Option Char} (hp : p.IsNoMark)
    (h : p.step c next = some q) : q.IsNoMark := by
  rintro m left rfl
  exact hp m (left + 1) (step_eq_mark h)

/-- Where a carriage return belongs to a lexeme that is no mark, a line feed leads to the same
    phase, from the phase before it as well as from the one behind it. -/
theorem step_return {p q : Phase} {next : Option Char} (hp : p.IsNoMark)
    (h : p.step '\r' next = some q) (next' : Option Char) :
    p.step '\n' next' = some q ∧ q.step '\n' next' = some q := by
  constructor
  · rw [step_lineBreak (b := '\r') rfl rfl p next, h]
  · cases p with
    | mark m left => exact absurd rfl (hp m left)
    | lineBreaks | commentSlash | comment | commentStar | raw =>
      cases h
      rfl
    | word => cases (show (if isWordPart '\r' then some word else none) = some q from h)
    | _ => cases h

/-- Without carriage returns, the characters of a lexeme that is no mark lead to the same phase. -/
theorem run_dropReturns {taken : List Char} (hpairs : PairsReturns taken) :
    ∀ {p q : Phase} {next next' : Option Char}, p.IsNoMark → AlikeAhead next next' →
      p.run taken next = some q → p.run (dropReturns taken) next' = some q := by
  induction hpairs using PairsReturns.induction with
  | nil => exact fun _ _ h => h
  | other c rest hc hrest ih =>
    intro p q next next' hp hnext h
    obtain ⟨p', hstep, hrun⟩ := run_cons_eq_some.mp h
    rw [dropReturns_cons hc]
    refine run_cons_eq_some.mpr ⟨p', ?_, ih (hp.step hstep) hnext hrun⟩
    rw [step_alike (hrest.sameUpToLineBreak.head?_or hnext), hstep]
  | pair rest hrest ih =>
    intro p q next next' hp hnext h
    obtain ⟨p', hreturn, hbehind⟩ := run_cons_eq_some.mp h
    obtain ⟨p'', hfeed, hrun⟩ := run_cons_eq_some.mp hbehind
    rw [(step_return hp hreturn _).2] at hfeed
    cases hfeed
    rw [dropReturns_return, dropReturns_cons (by decide)]
    exact run_cons_eq_some.mpr
      ⟨p', (step_return hp hreturn _).1, ih (hp.step hreturn) hnext hrun⟩

theorem exists_step_of_run_last {p q : Phase} {taken : List Char} {c : Char} {next : Option Char}
    (hp : p.IsNoMark) (h : p.run (taken ++ [c]) next = some q) :
    ∃ p' : Phase, p'.IsNoMark ∧ p'.step c next = some q := by
  induction taken generalizing p with
  | nil =>
    obtain ⟨p', hstep, hrun⟩ := run_cons_eq_some.mp h
    cases hrun
    exact ⟨p, hp, hstep⟩
  | cons d taken ih =>
    obtain ⟨p', hstep, hrun⟩ := run_cons_eq_some.mp h
    exact ih (hp.step hstep) hrun

theorem step_eq_word {p : Phase} {c : Char} {next : Option Char}
    (h : p.step c next = some .word) : p = .word ∧ isWordPart c = true := by
  cases p with
  | mark m left => cases left <;> cases h
  | _ => grind [step, stepDecimal, stepHexadecimal, stepExponent]

theorem run_eq_word {p : Phase} {taken : List Char} {next : Option Char}
    (h : p.run taken next = some .word) : p = .word ∧ ∀ x ∈ taken, isWordPart x = true :=
  run_eq_of_step (fun _ _ _ => step_eq_word) h

section Lexeme

variable {c : Char} {taken rest : List Char} {q : Phase}

/-- A lexeme is no mark from its first character on, or holds no carriage return. -/
theorem isNoMark_or_not_mem (hrun : (start c (taken ++ rest)).run taken rest.head? = some q)
    (hstop : q.StopsBefore rest) :
    (start c (taken ++ rest)).IsNoMark ∨ '\r' ∉ c :: taken := by
  by_cases hmark : ∃ m left, start c (taken ++ rest) = .mark m left
  · right
    obtain ⟨m, left, hstart⟩ := hmark
    have hq : q = .mark m (left - taken.length) := by
      rw [hstart] at hrun
      exact (run_mark hrun).2
    subst hq
    rw [← (mark_of_stops hrun hstop).2]
    intro hmem
    cases Punctuation.isLineBreak_of_mem hmem
  · left
    intro m left hstart
    exact hmark ⟨m, left, hstart⟩

/-- No lexeme stops between a carriage return and the line feed behind it. -/
theorem pairsReturns_taken (hrun : (start c (taken ++ rest)).run taken rest.head? = some q)
    (hstop : q.StopsBefore rest) (hpairs : PairsReturns (c :: (taken ++ rest))) :
    PairsReturns (c :: taken) := by
  have hsplit : c :: (taken ++ rest) = (c :: taken) ++ rest := rfl
  rw [hsplit] at hpairs
  refine hpairs.of_append_left ?_
  intro hlast
  obtain ⟨front, hfront⟩ := List.getLast?_eq_some_iff.mp hlast
  have hnext : rest.head? = some '\n' := by
    rw [hfront, List.append_assoc] at hpairs
    exact hpairs.head?_eq
  obtain ⟨rest, rfl⟩ := List.head?_eq_some_iff.mp hnext
  have hfeed : q.step '\n' rest.head? = none := hstop
  cases front with
  | nil =>
    obtain ⟨rfl, rfl⟩ := List.cons.inj hfront
    rw [start_lineBreak rfl] at hrun
    cases hrun
    cases hfeed
  | cons d front =>
    obtain ⟨-, rfl⟩ := List.cons.inj hfront
    rcases isNoMark_or_not_mem hrun hstop with hstart | hnone
    · obtain ⟨p, hp, hstep⟩ := exists_step_of_run_last hstart hrun
      rw [(step_return hp hstep _).2] at hfeed
      cases hfeed
    · simp at hnone

/-- Without its carriage returns, a lexeme begins and goes on as before. -/
theorem exists_run_dropReturns (hrun : (start c (taken ++ rest)).run taken rest.head? = some q)
    (hstop : q.StopsBefore rest) (hpairs : PairsReturns (c :: (taken ++ rest))) :
    ∃ c' taken', dropReturns (c :: taken) = c' :: taken' ∧
      (start c' (taken' ++ dropReturns rest)).run taken' (dropReturns rest).head? = some q := by
  have htaken := pairsReturns_taken hrun hstop hpairs
  have htext : PairsReturns (taken ++ rest) := hpairs.2
  have hrest : PairsReturns rest := htext.of_append
  have hnext := hrest.sameUpToLineBreak.head?
  by_cases hc : c = '\r'
  · subst hc
    obtain ⟨taken, rfl⟩ := List.head?_eq_some_iff.mp (htaken.1 rfl)
    refine ⟨'\n', dropReturns taken, by rw [dropReturns_return, dropReturns_cons (by decide)], ?_⟩
    rw [start_lineBreak rfl] at hrun ⊢
    obtain ⟨p, hstep, hrun⟩ := run_cons_eq_some.mp hrun
    cases hstep
    exact run_dropReturns htaken.2.2 nofun hnext hrun
  · refine ⟨c, dropReturns taken, dropReturns_cons hc taken, ?_⟩
    rw [← dropReturns_append, start_sameUpToLineBreak htext.sameUpToLineBreak]
    rcases isNoMark_or_not_mem hrun hstop with hstart | hnone
    · exact run_dropReturns htaken.2 hstart hnext hrun
    · rw [dropReturns_of_not_mem fun hmem => hnone (List.mem_cons_of_mem c hmem),
        run_alike hnext, hrun]

/-- The carriage returns of a lexeme do not settle its kind. -/
theorem kind_dropReturns (hrun : (start c (taken ++ rest)).run taken rest.head? = some q) :
    q.kind (String.ofList (dropReturns (c :: taken))) = q.kind (String.ofList (c :: taken)) := by
  cases q with
  | word =>
    -- A word is all there is to look up, and it holds no carriage return.
    obtain ⟨hstart, htaken⟩ := run_eq_word hrun
    have hnone : '\r' ∉ c :: taken := by
      intro hmem
      rcases List.mem_cons.mp hmem with rfl | hmem
      · rw [start_lineBreak rfl] at hstart
        cases hstart
      · have hpart := htaken _ hmem
        revert hpart
        decide
    rw [dropReturns_of_not_mem hnone]
  | _ => rfl

end Lexeme

end Phase

/-- A source text without its carriage returns. -/
def withoutReturns (source : String) : String :=
  String.ofList (dropReturns source.toList)

@[simp] theorem toList_withoutReturns (source : String) :
    (withoutReturns source).toList = dropReturns source.toList := by
  simp [withoutReturns]

/-- A lexeme without its carriage returns. -/
def Lexeme.withoutReturns (l : Lexeme) : Lexeme :=
  { l with text := Semicolons.withoutReturns l.text }

theorem Lexeme.chars_withoutReturns (l : Lexeme) : l.withoutReturns.chars = dropReturns l.chars :=
  toList_withoutReturns l.text

namespace Cuts

variable {text : List Char} {ls : List Lexeme}

/-- Each lexeme that holds a carriage return holds the line feed behind it. -/
theorem pairsReturns_chars (h : Cuts text ls) (hpairs : PairsReturns text) {l : Lexeme}
    (hl : l ∈ ls) : PairsReturns l.chars := by
  obtain ⟨before, after, rfl⟩ := List.append_of_mem hl
  have hbehind := h.pairsReturns_behind hpairs
  obtain ⟨c, taken, q, rfl, hrun, hstop⟩ := h.exists_run_of_append
  rw [Lexeme.chars_finish, List.reverse_reverse] at hbehind ⊢
  exact Phase.pairsReturns_taken hrun hstop hbehind

/-- Without its carriage returns, a text falls into the lexemes without theirs. -/
theorem withoutReturns (h : Cuts text ls) (hpairs : PairsReturns text) :
    Cuts (dropReturns text) (ls.map Lexeme.withoutReturns) := by
  induction h with
  | nil => exact .nil
  | @cons c taken rest q ls hrun hstop _ ih =>
    have hrest : PairsReturns rest := by
      rw [← List.cons_append] at hpairs
      exact hpairs.of_append
    obtain ⟨c', taken', hchars, hrun'⟩ := Phase.exists_run_dropReturns hrun hstop hpairs
    have hfirst : (Lexeme.finish q (c :: taken).reverse).withoutReturns =
        Lexeme.finish q (c' :: taken').reverse := by
      have hkind := Phase.kind_dropReturns hrun
      rw [hchars] at hkind
      simp only [Lexeme.withoutReturns, Semicolons.withoutReturns, Lexeme.finish,
        List.reverse_reverse, String.toList_ofList, hchars, hkind]
    have hnew := Cuts.cons hrun' (hstop.sameUpToLineBreak hrest.sameUpToLineBreak) (ih hrest)
    rw [List.map_cons, hfirst, ← List.cons_append, dropReturns_append, hchars]
    exact hnew

end Cuts

end Semicolons
