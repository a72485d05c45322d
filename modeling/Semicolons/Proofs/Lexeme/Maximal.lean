import Mathlib.Data.List.Chain
import Semicolons.Proofs.Lexeme.Delimited
import Semicolons.Proofs.Lexeme.Returns

/-!
# How far lexemes reach

Runs of blanks, runs of line breaks and words take all the characters of their class that there
are, and a mark is the longest one that the text begins with at that place
(`Cuts.isMaximal`). Therefore a run is not followed by another of its kind, and
a comment that ends with its line is followed by nothing but the line break (`Cuts.isChain_adjoins`).
-/

namespace Semicolons

/-- The characters are of a class, and in front of one that is not. -/
def IsRun (isPart : Char → Bool) (chars rest : List Char) : Prop :=
  chars ≠ [] ∧ (∀ c ∈ chars, isPart c = true) ∧ ∀ c ∈ rest.head?, isPart c = false

/-- The characters are those of a word, and in front of one that cannot continue it. -/
def IsWord (chars rest : List Char) : Prop :=
  ∃ c taken, chars = c :: taken ∧ isWordStart c = true ∧ (∀ x ∈ taken, isWordPart x = true) ∧
    ∀ x ∈ rest.head?, isWordPart x = false

/-- In front of the text `rest`, a lexeme reaches as far as one of its kind can. -/
structure Lexeme.IsMaximal (l : Lexeme) (rest : List Char) : Prop where
  blanks : l.kind = .blanks → IsRun isBlank l.chars rest
  lineBreaks : l.kind = .lineBreaks → IsRun isLineBreak l.chars rest
  word : (l.kind = .identifier ∨ ∃ k, l.kind = .keyword k) → IsWord l.chars rest
  /-- A word is a keyword if it is spelled as that. -/
  keyword : (l.kind = .identifier ∨ ∃ k, l.kind = .keyword k) →
    ∀ k : Keyword, l.kind = .keyword k ↔ l.text = k.spelling
  mark : ∀ m : Punctuation, l.kind = .punctuation m → l.text = m.spelling ∧
    ∀ p : Punctuation, p.Begins (l.chars ++ rest) → p.spelling.length ≤ m.spelling.length
  /-- A stray character begins no mark. -/
  stray : l.kind = .stray →
    ∃ c, l.chars = [c] ∧ ∀ p : Punctuation, p.spelling.toList.head? ≠ some c

/-- What may stand behind a lexeme: not a run of its own kind, and behind a comment that ends with
    its line only the line break or the end of the input. -/
def Adjoins (a b : Lexeme) : Prop :=
  NotBothBlanks a b ∧ ¬ (a.kind = .lineBreaks ∧ b.kind = .lineBreaks) ∧
    (a.kind = .lineComment → b.kind = .lineBreaks ∨ b.kind = .endOfInput)

/-- A run takes what could be a run of the same class behind it. -/
theorem not_isRun_of_isRun {isPart : Char → Bool} {chars chars' rest rest' : List Char}
    (h : IsRun isPart chars (chars' ++ rest)) : ¬ IsRun isPart chars' rest' := by
  rintro ⟨hne, hpart, -⟩
  obtain ⟨c, chars', rfl⟩ := List.exists_cons_of_ne_nil hne
  have hfalse := h.2.2 c rfl
  rw [hpart c List.mem_cons_self] at hfalse
  cases hfalse

/-- Every mark begins with a character that is a mark by itself. -/
theorem Punctuation.exists_spelling_head (m : Punctuation) :
    ∃ p : Punctuation, p.spelling.toList = m.spelling.toList.take 1 := by
  have hspelled : (ofSpelling? (String.ofList (m.spelling.toList.take 1))).isSome = true := by
    cases m <;> rfl
  obtain ⟨p, hp⟩ := Option.isSome_iff_exists.mp hspelled
  exact ⟨p, ofSpelling?_window.mp hp⟩

namespace Phase

section Run

variable {q : Phase} {c : Char} {taken rest : List Char} {text : String}

theorem eq_word_of_kind (h : q.kind text = .identifier ∨ ∃ k, q.kind text = .keyword k) :
    q = .word := by
  cases q with
  | word => rfl
  | quoted quote | escape quote | quotedEnd quote => cases quote <;> simp [kind, Quote.kind] at h
  | _ => simp [kind] at h

theorem isWordStart_of_start (h : start c rest = .word) : isWordStart c = true := by
  by_contra hc
  cases hl : Punctuation.longest? (c :: rest) <;>
    simp only [start, hc, hl, apply_ite (· = word), reduceCtorEq, if_false, ite_self] at h

/-- A word is the keyword that it spells. -/
theorem kind_word_eq_keyword_iff {k : Keyword} :
    word.kind text = .keyword k ↔ text = k.spelling := by
  rw [eq_comm (a := text), ← Keyword.ofSpelling?_eq_some_iff]
  show (Keyword.ofSpelling? text).elim Kind.identifier Kind.keyword = .keyword k ↔ _
  cases Keyword.ofSpelling? text <;> simp

theorem eq_stray_of_kind (h : q.kind text = .stray) : ∃ x, q = .stray x := by
  cases q with
  | stray x => exact ⟨x, rfl⟩
  | word =>
    simp only [kind] at h
    cases hk : Keyword.ofSpelling? text <;> simp [hk] at h
  | quoted quote | escape quote | quotedEnd quote => cases quote <;> cases h
  | _ => cases h

theorem step_ne_stray {p : Phase} {x : Char} {next : Option Char} :
    p.step c next ≠ some (.stray x) := by
  cases p with
  | mark m left => cases left <;> simp [step]
  | _ =>
    simp only [step, stepDecimal, stepHexadecimal, stepExponent, ne_eq,
      apply_ite (· = some (stray x)), Option.some.injEq, reduceCtorEq, ite_self, not_false_eq_true]

theorem longest?_of_start_stray {x : Char} (h : start c rest = .stray x) :
    Punctuation.longest? (c :: rest) = none := by
  cases hl : Punctuation.longest? (c :: rest) with
  | none => rfl
  | some p => simp only [start, hl, apply_ite (· = stray x), reduceCtorEq, ite_self] at h

/-- What a phase goes on with is not what it stops in front of. -/
theorem StopsBefore.head?_eq_false {isPart : Char → Bool} (hstop : q.StopsBefore rest)
    (hstep : ∀ x next, isPart x = true → q.step x next ≠ none) :
    ∀ x ∈ rest.head?, isPart x = false := by
  intro x hx
  obtain ⟨rest, rfl⟩ := List.head?_eq_some_iff.mp hx
  apply Bool.eq_false_iff.mpr
  intro hpart
  exact hstep x rest.head? hpart hstop

variable (hrun : (start c (taken ++ rest)).run taken rest.head? = some q)
  (hstop : q.StopsBefore rest)
include hrun hstop

theorem isRun_blanks (hkind : q.kind text = .blanks) : IsRun isBlank (c :: taken) rest := by
  obtain rfl : q = .blanks := eq_of_kind_eq (Or.inl rfl) hkind
  obtain ⟨hstart, htaken⟩ := run_eq_blanks hrun
  refine ⟨by simp, List.forall_mem_cons.mpr ⟨isBlank_of_start hstart, htaken⟩, ?_⟩
  apply hstop.head?_eq_false
  intro x next hx
  simp [step, hx]

theorem isRun_lineBreaks (hkind : q.kind text = .lineBreaks) :
    IsRun isLineBreak (c :: taken) rest := by
  obtain rfl : q = .lineBreaks := eq_of_kind_eq (Or.inr rfl) hkind
  obtain ⟨hstart, htaken⟩ := run_eq_lineBreaks hrun
  refine ⟨by simp, List.forall_mem_cons.mpr ⟨isLineBreak_of_start hstart, htaken⟩, ?_⟩
  apply hstop.head?_eq_false
  intro x next hx
  simp [step, hx]

theorem isWord_of_word (hq : q = .word) : IsWord (c :: taken) rest := by
  subst hq
  obtain ⟨hstart, htaken⟩ := run_eq_word hrun
  refine ⟨c, taken, rfl, isWordStart_of_start hstart, htaken, ?_⟩
  apply hstop.head?_eq_false
  intro x next hx
  simp [step, hx]

theorem longest_of_mark {m : Punctuation} (hkind : q.kind text = .punctuation m) :
    m.spelling.toList = c :: taken ∧ ∀ p : Punctuation, p.Begins (c :: taken ++ rest) →
      p.spelling.length ≤ m.spelling.length := by
  obtain ⟨left, rfl⟩ := eq_mark_of_kind hkind
  refine ⟨(mark_of_stops hrun hstop).2, ?_⟩
  obtain ⟨left', hstart⟩ := run_eq_mark hrun
  intro p hp
  have hlongest := Punctuation.longest?_eq_some_iff.mp (longest?_of_start_mark hstart).1
  rw [← String.length_toList, ← String.length_toList]
  exact hlongest.2 p hp

omit hstop in
theorem begins_nothing (hkind : q.kind text = .stray) :
    taken = [] ∧ ∀ p : Punctuation, p.spelling.toList.head? ≠ some c := by
  obtain ⟨x, rfl⟩ := eq_stray_of_kind hkind
  have hbegin : start c (taken ++ rest) = .stray x ∧ ∀ y ∈ taken, false = true :=
    run_eq_of_step (fun _ _ _ h => absurd h step_ne_stray) hrun
  refine ⟨List.eq_nil_iff_forall_not_mem.mpr fun y hy => Bool.false_ne_true (hbegin.2 y hy), ?_⟩
  intro p hp
  obtain ⟨tail, htail⟩ := List.head?_eq_some_iff.mp hp
  obtain ⟨single, hsingle⟩ := p.exists_spelling_head
  have hnone := Punctuation.longest?_eq_none_iff.mp (longest?_of_start_stray hbegin.1)
  apply hnone single
  rw [Punctuation.Begins, hsingle, htail]
  exact ⟨taken ++ rest, rfl⟩

end Run

end Phase

namespace Cuts

variable {text : List Char} {before after ls : List Lexeme} {l a b : Lexeme}

/-- Each lexeme of a text reaches as far as it can. -/
theorem isMaximal (h : Cuts text (before ++ l :: after)) :
    l.IsMaximal (after.flatMap Lexeme.chars) := by
  obtain ⟨c, taken, q, rfl, hrun, hstop⟩ := h.exists_run_of_append
  have hchars : (Lexeme.finish q (c :: taken).reverse).chars = c :: taken := by
    rw [Lexeme.chars_finish, List.reverse_reverse]
  constructor
  case blanks =>
    rw [hchars]
    exact fun hkind => Phase.isRun_blanks hrun hstop hkind
  case lineBreaks =>
    rw [hchars]
    exact fun hkind => Phase.isRun_lineBreaks hrun hstop hkind
  case word =>
    rw [hchars]
    exact fun hkind => Phase.isWord_of_word hrun hstop (Phase.eq_word_of_kind hkind)
  case keyword =>
    intro hkind k
    obtain rfl := Phase.eq_word_of_kind hkind
    exact Phase.kind_word_eq_keyword_iff
  case mark =>
    intro m hkind
    obtain ⟨hspelling, hlongest⟩ := Phase.longest_of_mark hrun hstop hkind
    rw [hchars]
    refine ⟨?_, hlongest⟩
    apply String.toList_inj.mp
    rw [hspelling]
    exact hchars
  case stray =>
    intro hkind
    obtain ⟨rfl, hbegins⟩ := Phase.begins_nothing hrun hkind
    exact ⟨c, hchars, hbegins⟩

/-- Of the end of the input, which stands behind them, nothing is asked. -/
theorem isMaximal_of_split (h : Cuts text ls)
    (hsplit : ls ++ [Lexeme.endOfInput] = before ++ l :: after) :
    l.IsMaximal (after.flatMap Lexeme.chars) := by
  obtain ⟨rfl, -, rfl⟩ | ⟨inner, rfl, rfl⟩ := Lexeme.eq_endOfInput_or_split hsplit
  · constructor <;> simp [Lexeme.endOfInput]
  · rw [Lexeme.flatMap_chars_append_endOfInput]
    exact h.isMaximal

/-- A text that begins with a line break begins with a run of them. -/
theorem kind_of_lineBreak_head {c : Char} {rest : List Char} (h : Cuts (c :: rest) (l :: ls))
    (hc : isLineBreak c = true) : l.kind = .lineBreaks := by
  cases h with
  | @cons _ taken rest q _ hrun _ _ =>
    rw [Phase.start_lineBreak hc] at hrun
    rw [Phase.eq_lineBreaks_of_run hrun]
    rfl

/-- Two lexemes that stand side by side in a text. -/
theorem adjoins (h : Cuts text (before ++ a :: b :: after)) : Adjoins a b := by
  have hbehind : Cuts text (before ++ [a] ++ b :: after) := by rwa [List.append_cons] at h
  have ha := h.isMaximal
  have hb := hbehind.isMaximal
  rw [List.flatMap_cons] at ha
  refine ⟨?_, ?_, ?_⟩
  · rintro ⟨hblanks, hblanks'⟩
    exact not_isRun_of_isRun (ha.blanks hblanks) (hb.blanks hblanks')
  · rintro ⟨hbreaks, hbreaks'⟩
    exact not_isRun_of_isRun (ha.lineBreaks hbreaks) (hb.lineBreaks hbreaks')
  · intro hcomment
    left
    have hsplit : before ++ a :: b :: after ++ [Lexeme.endOfInput] =
        before ++ a :: b :: (after ++ [Lexeme.endOfInput]) := List.append_assoc _ _ _
    have hends := h.ends hsplit (by rw [hcomment]; rfl)
    rw [hcomment] at hends
    obtain ⟨-, inner, -, -, hend⟩ | ⟨-, hlacks⟩ := hends
    · obtain ⟨c, chars, hchars⟩ := List.exists_cons_of_ne_nil (h.chars_ne_nil (l := b) (by simp))
      have hc : isLineBreak c = true := by
        apply hend c
        rw [List.flatMap_cons, hchars]
        rfl
      have hcuts := hbehind.of_append
      rw [List.flatMap_cons, hchars, List.cons_append] at hcuts
      exact hcuts.kind_of_lineBreak_head hc
    · exact hlacks.elim

/-- Behind the last lexeme of a text stands the end of the input. -/
theorem isChain_adjoins (h : Cuts text ls) : (ls ++ [Lexeme.endOfInput]).IsChain Adjoins := by
  refine List.isChain_append.mpr ⟨?_, List.isChain_singleton _, ?_⟩
  · rw [List.isChain_iff_forall_rel_of_append_cons_cons]
    rintro a b before after rfl
    exact h.adjoins
  · intro a _ b hb
    cases hb
    simp [Adjoins, NotBothBlanks, Lexeme.endOfInput]

end Cuts

end Semicolons
