import Semicolons.Lexeme.Basic

/-!
# How a text is cut

`lexemesFrom` carries along the phase it is in and the characters it has taken. Here the cut is
described without them: `Cuts text ls` says that `text` falls into the lexemes `ls`, each of them
read as far as its phases allow. The lexemes that are computed are the only ones that a text falls
into (`cuts_iff`), so that facts about them go by induction on `Cuts`, one lexeme at a time.
-/

namespace Semicolons

namespace Phase

/-- The phase after all the given characters, in front of the character `next`, if each of them
    belongs to the lexeme. -/
def run : Phase → List Char → Option Char → Option Phase
  | phase, [], _ => some phase
  | phase, c :: rest, next =>
    match phase.step c (rest.head?.or next) with
    | some p => run p rest next
    | none => none

/-- Whether a lexeme in this phase ends in front of a text. -/
def StopsBefore (phase : Phase) : List Char → Prop
  | [] => True
  | c :: rest => phase.step c rest.head? = none

theorem run_cons_eq_some {p q : Phase} {c : Char} {rest : List Char} {next : Option Char} :
    p.run (c :: rest) next = some q ↔
      ∃ p', p.step c (rest.head?.or next) = some p' ∧ p'.run rest next = some q := by
  rw [run]
  cases p.step c (rest.head?.or next) <;> simp

/-- A part of a text is read in front of what follows it. -/
theorem run_append (p : Phase) (taken more : List Char) (next : Option Char) :
    p.run (taken ++ more) next = (p.run taken (more.head?.or next)).bind (·.run more next) := by
  induction taken generalizing p with
  | nil => rfl
  | cons c taken ih =>
    rw [List.cons_append, run, run, List.head?_append, Option.or_assoc]
    cases p.step c (taken.head?.or (more.head?.or next)) with
    | none => rfl
    | some p' => exact ih p'

/-- A phase that only itself leads to, and only by certain characters, is the one a lexeme begins in
    that comes to it. -/
theorem run_eq_of_step {q : Phase} {isPart : Char → Bool}
    (hstep : ∀ p c next, p.step c next = some q → p = q ∧ isPart c = true) {p : Phase}
    {taken : List Char} {next : Option Char} (h : p.run taken next = some q) :
    p = q ∧ ∀ c ∈ taken, isPart c = true := by
  induction taken generalizing p with
  | nil => exact ⟨Option.some.inj h, by simp⟩
  | cons c taken ih =>
    obtain ⟨p', hfirst, hrest⟩ := run_cons_eq_some.mp h
    obtain ⟨rfl, htaken⟩ := ih hrest
    obtain ⟨rfl, hc⟩ := hstep p c _ hfirst
    exact ⟨rfl, List.forall_mem_cons.mpr ⟨hc, htaken⟩⟩

/-- A phase that leads only to itself is not left. -/
theorem run_eq_start {p q : Phase}
    (hstep : ∀ (c : Char) (next : Option Char) (p' : Phase), p.step c next = some p' → p' = p)
    {taken : List Char} {next : Option Char} (h : p.run taken next = some q) : q = p := by
  induction taken with
  | nil => exact (Option.some.inj h).symm
  | cons c taken ih =>
    obtain ⟨p', hfirst, hrest⟩ := run_cons_eq_some.mp h
    rw [hstep c _ p' hfirst] at hrest
    exact ih hrest

/-- From every phase, a text has a first part that belongs to the lexeme and a rest that does
    not. -/
theorem exists_run (phase : Phase) (text : List Char) :
    ∃ taken rest q, text = taken ++ rest ∧ phase.run taken rest.head? = some q ∧
      q.StopsBefore rest := by
  induction text generalizing phase with
  | nil => exact ⟨[], [], phase, rfl, rfl, trivial⟩
  | cons c text ih =>
    cases hstep : phase.step c text.head? with
    | none => exact ⟨[], c :: text, phase, rfl, rfl, hstep⟩
    | some p =>
      obtain ⟨taken, rest, q, rfl, hrun, hstop⟩ := ih p
      refine ⟨c :: taken, rest, q, rfl, ?_, hstop⟩
      rw [run_cons_eq_some]
      exact ⟨p, by rwa [← List.head?_append], hrun⟩

end Phase

/-- A text falls into lexemes: the first one takes its first character and all those that its
    phases allow, and the rest of the text falls into the others. -/
inductive Cuts : List Char → List Lexeme → Prop
  | nil : Cuts [] []
  | cons {c : Char} {taken rest : List Char} {q : Phase} {ls : List Lexeme} :
      (Phase.start c (taken ++ rest)).run taken rest.head? = some q → q.StopsBefore rest →
      Cuts rest ls →
      Cuts (c :: (taken ++ rest)) (Lexeme.finish q (c :: taken).reverse :: ls)

/-- What is computed inside a lexeme: it takes the characters that belong to it, and the rest of
    the text begins anew. -/
theorem lexemesFrom_append {phase q : Phase} {before taken rest : List Char}
    (hrun : phase.run taken rest.head? = some q) (hstop : q.StopsBefore rest) :
    lexemesFrom phase before (taken ++ rest) =
      Lexeme.finish q (taken.reverse ++ before) :: lexemesOfChars rest := by
  induction taken generalizing phase before with
  | nil =>
    cases hrun
    cases rest with
    | nil => rfl
    | cons c rest =>
      have hstep : q.step c rest.head? = none := hstop
      simp [lexemesFrom, lexemesOfChars, hstep]
  | cons c taken ih =>
    obtain ⟨p, hstep, hrun⟩ := Phase.run_cons_eq_some.mp hrun
    rw [← List.head?_append] at hstep
    rw [List.cons_append, lexemesFrom, hstep]
    simpa using ih hrun

theorem cuts_lexemesOfChars : ∀ text : List Char, Cuts text (lexemesOfChars text)
  | [] => .nil
  | c :: text => by
    obtain ⟨taken, rest, q, rfl, hrun, hstop⟩ := (Phase.start c text).exists_run text
    have hlen : rest.length < (c :: (taken ++ rest)).length := by
      rw [List.length_cons, List.length_append]
      omega
    rw [lexemesOfChars, lexemesFrom_append hrun hstop, ← List.reverse_cons]
    exact .cons hrun hstop (cuts_lexemesOfChars rest)
termination_by text => text.length

/-- The lexemes of a text are the ones it falls into. -/
theorem cuts_iff {text : List Char} {ls : List Lexeme} :
    Cuts text ls ↔ ls = lexemesOfChars text := by
  constructor
  · intro h
    induction h with
    | nil => rfl
    | cons hrun hstop _ ih =>
      rw [lexemesOfChars, lexemesFrom_append hrun hstop, ← List.reverse_cons, ih]
  · rintro rfl
    exact cuts_lexemesOfChars text

/-- Of the lexemes of a text and the end of the input, one is the end, or stands in front of it. -/
theorem Lexeme.eq_endOfInput_or_split {ls before after : List Lexeme} {l : Lexeme}
    (h : ls ++ [endOfInput] = before ++ l :: after) :
    (l = endOfInput ∧ before = ls ∧ after = []) ∨
      ∃ inner, ls = before ++ l :: inner ∧ after = inner ++ [endOfInput] := by
  rcases List.eq_nil_or_concat after with rfl | ⟨inner, e, rfl⟩
  · left
    obtain ⟨hbefore, hl⟩ := List.append_inj' h rfl
    exact ⟨(List.cons.inj hl).1.symm, hbefore.symm, rfl⟩
  · right
    rw [List.concat_eq_append, ← List.cons_append, ← List.append_assoc] at h
    obtain ⟨hls, he⟩ := List.append_inj' h rfl
    obtain rfl := (List.cons.inj he).1
    exact ⟨inner, hls, List.concat_eq_append⟩

/-- Nothing is wrong with the end of the input. -/
theorem Lexeme.ne_endOfInput_of_fault {l : Lexeme} {f : Fault} (hf : l.fault = some f) :
    l ≠ .endOfInput := by
  rintro rfl
  cases hf

@[simp] theorem Lexeme.flatMap_chars_append_endOfInput (ls : List Lexeme) :
    (ls ++ [endOfInput]).flatMap chars = ls.flatMap chars := by
  rw [List.flatMap_append]
  exact List.append_nil _

namespace Cuts

variable {text : List Char} {ls : List Lexeme}

/-- The lexemes of a text, written one after the other, are the text. -/
theorem flatMap_chars (h : Cuts text ls) : ls.flatMap Lexeme.chars = text := by
  induction h with
  | nil => rfl
  | cons _ _ _ ih => simp [ih]

/-- What stands behind some lexemes of a text is cut by itself. -/
theorem of_append {before after : List Lexeme} (h : Cuts text (before ++ after)) :
    Cuts (after.flatMap Lexeme.chars) after := by
  induction before generalizing text with
  | nil =>
    have htext : after.flatMap Lexeme.chars = text := h.flatMap_chars
    rwa [htext]
  | cons l before ih =>
    cases h with
    | cons _ _ hrest => exact ih hrest

/-- Every lexeme is read from its first character on, in front of the lexemes behind it. -/
theorem exists_run_of_append {before after : List Lexeme} {l : Lexeme}
    (h : Cuts text (before ++ l :: after)) :
    ∃ (c : Char) (taken : List Char) (q : Phase), l = Lexeme.finish q (c :: taken).reverse ∧
      (Phase.start c (taken ++ after.flatMap Lexeme.chars)).run taken
        (after.flatMap Lexeme.chars).head? = some q ∧
      q.StopsBefore (after.flatMap Lexeme.chars) := by
  have hcuts := h.of_append
  generalize (l :: after).flatMap Lexeme.chars = behind at hcuts
  cases hcuts with
  | @cons c taken rest q _ hrun hstop hrest =>
    rw [hrest.flatMap_chars]
    exact ⟨c, taken, q, rfl, hrun, hstop⟩

/-- Every lexeme stops in some phase, and has taken at least one character. -/
theorem exists_finish (h : Cuts text ls) {l : Lexeme} (hl : l ∈ ls) :
    ∃ (q : Phase) (c : Char) (taken : List Char), l = Lexeme.finish q (c :: taken).reverse := by
  obtain ⟨before, after, rfl⟩ := List.append_of_mem hl
  obtain ⟨c, taken, q, hfinish, -, -⟩ := h.exists_run_of_append
  exact ⟨q, c, taken, hfinish⟩

theorem chars_ne_nil (h : Cuts text ls) {l : Lexeme} (hl : l ∈ ls) : l.chars ≠ [] := by
  obtain ⟨q, c, taken, rfl⟩ := h.exists_finish hl
  simp

/-- No lexeme of a text has the kind that marks its end. -/
theorem kind_ne_endOfInput (h : Cuts text ls) {l : Lexeme} (hl : l ∈ ls) :
    l.kind ≠ .endOfInput := by
  obtain ⟨q, c, taken, rfl⟩ := h.exists_finish hl
  cases q with
  | word =>
    show (Keyword.ofSpelling? _).elim Kind.identifier Kind.keyword ≠ .endOfInput
    cases Keyword.ofSpelling? _ <;> simp
  | quoted quote => cases quote <;> simp [Lexeme.finish, Phase.kind, Quote.kind]
  | escape quote => cases quote <;> simp [Lexeme.finish, Phase.kind, Quote.kind]
  | quotedEnd quote => cases quote <;> simp [Lexeme.finish, Phase.kind, Quote.kind]
  | _ => simp [Lexeme.finish, Phase.kind]

end Cuts

end Semicolons
