import Semicolons.Proofs.Insertion.Lines
import Semicolons.Proofs.Lexeme.Spacing

/-!
# Decisions with spacing around the text

No semicolon is wanted in spacing, and spacing in front of a text is not asked for. Spacing behind
a text puts no visible lexeme between the last one and the end of the input, and at the end of the
input a semicolon is wanted whatever the layout in front of it. So semicolons are written at the
same places with spacing around the text and without it (`withSemicolons_spacing_append`,
`withSemicolons_append_spacing`).
-/

namespace Semicolons

variable {ls ls' gap : List Lexeme} {l : Lexeme}

/-- No semicolon is written in a gap. -/
theorem decisions_gap_append (hgap : ∀ g ∈ gap, g.isLayout = true) (tail : List Lexeme) :
    decisions (gap ++ tail) = gap.map (·, false) ++ decisions tail := by
  induction gap with
  | nil => rfl
  | cons g gap ih =>
    obtain ⟨hg, hgap⟩ := List.forall_mem_cons.mp hgap
    rw [List.cons_append, decisions, wantsSemicolon_of_isLayout hg, ih hgap]
    rfl

theorem punctuated_unmarked (ls : List Lexeme) : punctuated (ls.map (·, false)) = ls := by
  induction ls with
  | nil => rfl
  | cons l ls ih => rw [List.map_cons, punctuated, ih]

theorem countP_unmarked (ls : List Lexeme) :
    (ls.map fun l => (l, false)).countP (·.2) = 0 := by
  simp

/-- The characters of a text with its semicolons, behind a gap. -/
theorem flatMap_chars_gap_append (hgap : ∀ g ∈ gap, g.isLayout = true) (tail : List Lexeme) :
    (punctuated (decisions (gap ++ tail))).flatMap Lexeme.chars =
      gap.flatMap Lexeme.chars ++ (punctuated (decisions tail)).flatMap Lexeme.chars := by
  rw [decisions_gap_append hgap, punctuated_append, punctuated_unmarked, List.flatMap_append]

theorem countP_decisions_gap_append (hgap : ∀ g ∈ gap, g.isLayout = true) (tail : List Lexeme) :
    (decisions (gap ++ tail)).countP (·.2) = (decisions tail).countP (·.2) := by
  rw [decisions_gap_append hgap, List.countP_append, countP_unmarked, Nat.zero_add]

/-- A gap is written as it stands. -/
theorem flatMap_chars_decisions_gap (hgap : ∀ g ∈ gap, g.isLayout = true) :
    (punctuated (decisions gap)).flatMap Lexeme.chars = gap.flatMap Lexeme.chars := by
  simpa [decisions, punctuated] using flatMap_chars_gap_append hgap []

theorem countP_decisions_gap (hgap : ∀ g ∈ gap, g.isLayout = true) :
    (decisions gap).countP (·.2) = 0 := by
  simpa [decisions] using countP_decisions_gap_append hgap []

theorem wantsSemicolon_of_open (h : l.isLayout = true ∨ l.fault.isSome = true)
    (rest : List Lexeme) : l.wantsSemicolon rest = false := by
  rcases h with hlayout | hfault
  · exact wantsSemicolon_of_isLayout hlayout rest
  · obtain ⟨fault, hfault⟩ := Option.isSome_iff_exists.mp hfault
    simp [Lexeme.wantsSemicolon, hfault]

/-- Nothing is wrong with a semicolon. -/
def SoundSemicolons (ls : List Lexeme) : Prop :=
  ∀ l ∈ ls, l.fault.isSome = true → l.text? ≠ some ";"

theorem SoundSemicolons.tail (h : SoundSemicolons (l :: ls)) : SoundSemicolons ls :=
  fun x hx => h x (List.mem_cons_of_mem l hx)

theorem Cuts.soundSemicolons {text : List Char} (h : Cuts text ls) : SoundSemicolons ls := by
  intro l hl hfault htext
  have hchars : l.chars = [';'] := by
    unfold Lexeme.text? at htext
    split at htext
    · cases htext
    · rw [Lexeme.chars, Option.some.inj htext]
      rfl
  induction h with
  | nil => cases hl
  | @cons c taken rest q ls hrun _ _ ih =>
    rcases List.mem_cons.mp hl with rfl | hl
    · rw [Lexeme.chars_finish, List.reverse_reverse] at hchars
      obtain ⟨rfl, rfl⟩ := List.cons.inj hchars
      rw [Phase.start_semicolon] at hrun
      cases hrun
      cases hfault
    · exact ih hl

/-- In front of the end of the input, the layout does not decide about a semicolon. -/
theorem wantsSemicolon_gap_end {gap' : List Lexeme} (hgap : ∀ g ∈ gap, g.isLayout = true)
    (hgap' : ∀ g ∈ gap', g.isLayout = true) (l : Lexeme) :
    l.wantsSemicolon (gap' ++ [.endOfInput]) = l.wantsSemicolon (gap ++ [.endOfInput]) := by
  rw [wantsSemicolon_gap_append hgap rfl, wantsSemicolon_gap_append hgap' rfl]
  rfl

theorem forall_isLayout_append {gap' : List Lexeme} (hgap : ∀ g ∈ gap, g.isLayout = true)
    (hgap' : ∀ g ∈ gap', g.isLayout = true) : ∀ g ∈ gap ++ gap', g.isLayout = true := by
  intro g hg
  rcases List.mem_append.mp hg with hg | hg
  · exact hgap g hg
  · exact hgap' g hg

namespace Trailed

/-- Spacing behind a text changes no decision in front of a gap that the text begins behind. -/
theorem wantsSemicolon (h : Trailed ls ls')
    (hsemi : SoundSemicolons ls) (hsemi' : SoundSemicolons ls')
    (hgap : ∀ g ∈ gap, g.isLayout = true) (l : Lexeme) :
    l.wantsSemicolon (gap ++ (ls' ++ [.endOfInput])) =
      l.wantsSemicolon (gap ++ (ls ++ [.endOfInput])) := by
  induction h generalizing gap with
  | @behind spacing hspacing =>
    rw [← List.append_assoc]
    exact wantsSemicolon_gap_end hgap
      (forall_isLayout_append hgap fun g hg => (hspacing g hg).isLayout) l
  | @swallowed last last' spacing hopen hkind hfault hspacing =>
    have hsame : last'.isLayout = last.isLayout := by rw [Lexeme.isLayout, Lexeme.isLayout, hkind]
    by_cases hlast : last.isLayout = true
    · -- Nothing visible stands behind the gap on either side.
      rw [← List.append_assoc, ← List.append_assoc]
      refine wantsSemicolon_gap_end (forall_isLayout_append hgap (by simpa using hlast))
        (forall_isLayout_append hgap ?_) l
      exact List.forall_mem_cons.mpr ⟨hsame.trans hlast, fun g hg => (hspacing g hg).isLayout⟩
    · have hopen := hopen.resolve_left hlast
      have hvisible : last.isLayout = false := by simpa using hlast
      have htext := hsemi last List.mem_cons_self hopen
      have htext' := hsemi' last' List.mem_cons_self (by rw [hfault, hopen])
      have hend : last'.isEnd = last.isEnd := by rw [Lexeme.isEnd, Lexeme.isEnd, hkind]
      rw [List.cons_append, List.cons_append, wantsSemicolon_gap_append hgap hvisible,
        wantsSemicolon_gap_append hgap (hsame.trans hvisible), beq_eq_false_iff_ne.mpr htext,
        beq_eq_false_iff_ne.mpr htext', hend]
  | @cons x ls ls' h ih =>
    cases hx : x.isLayout with
    | true =>
      have hfirst : ∀ g ∈ [x], g.isLayout = true := by simpa using hx
      have hbehind := ih hsemi.tail hsemi'.tail (forall_isLayout_append hgap hfirst)
      simpa using hbehind
    | false =>
      rw [List.cons_append, List.cons_append, wantsSemicolon_gap_append hgap hx,
        wantsSemicolon_gap_append hgap hx]

/-- Behind a text with its semicolons, the spacing stands as it stood behind the text. -/
theorem flatMap_chars_punctuated (h : Trailed ls ls')
    (hsemi : SoundSemicolons ls) (hsemi' : SoundSemicolons ls') {w : List Char}
    (hchars : ls'.flatMap Lexeme.chars = ls.flatMap Lexeme.chars ++ w) :
    (punctuated (decisions ls')).flatMap Lexeme.chars =
        (punctuated (decisions ls)).flatMap Lexeme.chars ++ w ∧
      (decisions ls').countP (·.2) = (decisions ls).countP (·.2) := by
  induction h with
  | @behind spacing hspacing =>
    have hgap : ∀ g ∈ spacing, g.isLayout = true := fun g hg => (hspacing g hg).isLayout
    rw [flatMap_chars_decisions_gap hgap, countP_decisions_gap hgap, hchars]
    exact ⟨rfl, rfl⟩
  | @swallowed last last' spacing hopen hkind hfault hspacing =>
    have hgap : ∀ g ∈ spacing, g.isLayout = true := fun g hg => (hspacing g hg).isLayout
    have hopen' : last'.isLayout = true ∨ last'.fault.isSome = true := by
      rw [Lexeme.isLayout, hkind, hfault]
      exact hopen
    simp only [decisions, wantsSemicolon_of_open hopen, wantsSemicolon_of_open hopen',
      punctuated, List.flatMap_cons, List.countP_cons, flatMap_chars_decisions_gap hgap,
      countP_decisions_gap hgap] at hchars ⊢
    simpa using hchars
  | @cons x ls ls' h ih =>
    rw [List.flatMap_cons, List.flatMap_cons, List.append_assoc] at hchars
    obtain ⟨htext, hcount⟩ := ih hsemi.tail hsemi'.tail (List.append_cancel_left hchars)
    have hnone : ∀ g ∈ ([] : List Lexeme), g.isLayout = true := by simp
    have hwants : x.wantsSemicolon (ls' ++ [.endOfInput]) = x.wantsSemicolon (ls ++ [.endOfInput]) :=
      h.wantsSemicolon hsemi.tail hsemi'.tail hnone x
    rw [decisions, decisions, hwants, List.countP_cons, List.countP_cons, hcount]
    cases x.wantsSemicolon (ls ++ [.endOfInput]) <;> simp [punctuated, htext]

end Trailed

section Source

variable {u w : String}

/-- In front of a text, spacing changes only the run of spacing that the text begins with. -/
theorem exists_lexemes_spacing_append (source : String)
    (hu : ∀ c ∈ u.toList, isSpacing c = true) :
    ∃ gap gap' tail, lexemes source = gap ++ tail ∧ lexemes (u ++ source) = gap' ++ tail ∧
      (∀ g ∈ gap, g.IsSpacing) ∧ (∀ g ∈ gap', g.IsSpacing) ∧
      gap'.flatMap Lexeme.chars = u.toList ++ gap.flatMap Lexeme.chars := by
  obtain ⟨gap, gap', tail, hls, hcut, hgap, hgap'⟩ := (cuts_lexemes source).spacing_append hu
  refine ⟨gap, gap', tail, hls, ?_, hgap, hgap', ?_⟩
  · rw [lexemes, String.toList_append, ← cuts_iff.mp hcut]
  · have hchars := hcut.flatMap_chars
    rw [← flatMap_chars_lexemes source, hls, List.flatMap_append, List.flatMap_append,
      ← List.append_assoc] at hchars
    exact List.append_cancel_right hchars

/-- Behind a text, spacing changes only the last lexeme. -/
theorem exists_lexemes_append_spacing (source : String)
    (hw : ∀ c ∈ w.toList, isSpacing c = true) :
    ∃ ls', lexemes (source ++ w) = ls' ∧ Trailed (lexemes source) ls' ∧
      ls'.flatMap Lexeme.chars = (lexemes source).flatMap Lexeme.chars ++ w.toList ∧
      SoundSemicolons (lexemes source) ∧ SoundSemicolons ls' := by
  obtain ⟨ls', hcut, htrailed⟩ := (cuts_lexemes source).append_spacing hw
  refine ⟨ls', ?_, htrailed, ?_, (cuts_lexemes source).soundSemicolons, hcut.soundSemicolons⟩
  · rw [lexemes, String.toList_append, ← cuts_iff.mp hcut]
  · rw [hcut.flatMap_chars, flatMap_chars_lexemes]

/-- Spacing in front of a text stands in front of the converted text. -/
theorem withSemicolons_spacing_append (source : String)
    (hu : ∀ c ∈ u.toList, isSpacing c = true) :
    withSemicolons (tokens (u ++ source)) = u ++ withSemicolons (tokens source) ∧
      semicolonCount (tokens (u ++ source)) = semicolonCount (tokens source) := by
  obtain ⟨gap, gap', tail, hls, hls', hgap, hgap', hchars⟩ :=
    exists_lexemes_spacing_append source hu
  have hlayout : ∀ g ∈ gap, g.isLayout = true := fun g hg => (hgap g hg).isLayout
  have hlayout' : ∀ g ∈ gap', g.isLayout = true := fun g hg => (hgap' g hg).isLayout
  constructor
  · apply String.toList_inj.mp
    rw [String.toList_append, toList_withSemicolons_tokens, toList_withSemicolons_tokens, hls, hls',
      flatMap_chars_gap_append hlayout', flatMap_chars_gap_append hlayout, hchars,
      List.append_assoc]
  · rw [semicolonCount_tokens, semicolonCount_tokens, hls, hls',
      countP_decisions_gap_append hlayout', countP_decisions_gap_append hlayout]

/-- Spacing behind a text stands behind the converted text. -/
theorem withSemicolons_append_spacing (source : String)
    (hw : ∀ c ∈ w.toList, isSpacing c = true) :
    withSemicolons (tokens (source ++ w)) = withSemicolons (tokens source) ++ w ∧
      semicolonCount (tokens (source ++ w)) = semicolonCount (tokens source) := by
  obtain ⟨ls', hls', htrailed, hchars, hsemi, hsemi'⟩ := exists_lexemes_append_spacing source hw
  obtain ⟨htext, hcount⟩ := htrailed.flatMap_chars_punctuated hsemi hsemi' hchars
  constructor
  · apply String.toList_inj.mp
    rw [String.toList_append, toList_withSemicolons_tokens, toList_withSemicolons_tokens, hls',
      htext]
  · rw [semicolonCount_tokens, semicolonCount_tokens, hls', hcount]

end Source

end Semicolons
