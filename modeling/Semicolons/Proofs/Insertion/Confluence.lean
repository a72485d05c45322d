import Semicolons.Proofs.Conversion
import Semicolons.Proofs.Insertion.Points

/-!
# Conversion of a text that is partly converted

A written semicolon is not wanted a second time, and it changes no other decision: the layout
behind a lexeme and the next visible lexeme are the same with and without the semicolons that are
written further on. So whichever of the wanted semicolons are there already, the others are still
wanted (`punctuated_decisions_punctuated`).
-/

namespace Semicolons

theorem wantsSemicolon_semicolon (rest : List Lexeme) :
    Lexeme.semicolon.wantsSemicolon rest = false :=
  rfl

/-- No semicolon is wanted in front of one. -/
theorem wantsSemicolon_cons_semicolon (l : Lexeme) (rest : List Lexeme) :
    l.wantsSemicolon (.semicolon :: rest) = false := by
  have hfind : (Lexeme.semicolon :: rest).find? (!·.isLayout) = some .semicolon := rfl
  have htext : (Lexeme.semicolon.text? == some ";") = true := rfl
  rw [Lexeme.wantsSemicolon, hfind, Option.any_some, htext, Bool.not_true, Bool.false_and,
    Bool.and_false]

theorem decisions_cons_semicolon (l : Lexeme) (ls : List Lexeme) :
    decisions (l :: .semicolon :: ls) = (l, false) :: (.semicolon, false) :: decisions ls := by
  rw [decisions, decisions, List.cons_append, wantsSemicolon_cons_semicolon,
    wantsSemicolon_semicolon]

variable {choice : List (Lexeme × Bool)} {ls : List Lexeme}

theorem Within.map_fst {wider : List (Lexeme × Bool)} (h : Within choice wider) :
    choice.map Prod.fst = wider.map Prod.fst := by
  induction h with
  | nil => rfl
  | cons hx _ ih => rw [List.map_cons, List.map_cons, hx.1, ih]

theorem Within.mem {wider : List (Lexeme × Bool)} (h : Within choice wider) {l : Lexeme}
    (hl : (l, true) ∈ choice) : (l, true) ∈ wider := by
  induction h with
  | nil => cases hl
  | @cons x y choice wider hx _ ih =>
    rcases List.mem_cons.mp hl with rfl | hl
    · have hy : y = (l, true) := Prod.ext hx.1.symm (hx.2 rfl)
      rw [hy]
      exact List.mem_cons_self
    · exact List.mem_cons_of_mem _ (ih hl)

/-- A text in which some of the wanted semicolons are written is given the others. -/
theorem punctuated_decisions_punctuated (h : Within choice (decisions ls)) :
    punctuated (decisions (punctuated choice)) = punctuated (decisions ls) ∧
      (decisions (punctuated choice)).countP (·.2) + choice.countP (·.2) =
        (decisions ls).countP (·.2) := by
  induction ls generalizing choice with
  | nil =>
    cases h
    exact ⟨rfl, rfl⟩
  | cons l ls ih =>
    cases h with
    | @cons x _ rest _ hx hrest =>
      obtain ⟨l', written⟩ := x
      have hrest : Within rest (decisions ls) := hrest
      obtain ⟨rfl, hwant⟩ := hx
      obtain ⟨hpunct, hcount⟩ := ih hrest
      cases written with
      | true =>
        have hwant : l'.wantsSemicolon (ls ++ [.endOfInput]) = true := hwant rfl
        have hleft : decisions (punctuated ((l', true) :: rest)) =
            (l', false) :: (.semicolon, false) :: decisions (punctuated rest) :=
          decisions_cons_semicolon l' (punctuated rest)
        have hright : decisions (l' :: ls) = (l', true) :: decisions ls := by
          rw [decisions, hwant]
        rw [hleft, hright]
        refine ⟨by simp [punctuated, hpunct], ?_⟩
        simp only [List.countP_cons, if_true, if_false, Bool.false_eq_true]
        omega
      | false =>
        have hvisible : ∀ l, (l, true) ∈ rest → l.isLayout = false :=
          fun l hl => visible_of_mem_decisions (hrest.mem hl)
        have hleft : decisions (punctuated ((l', false) :: rest)) =
            (l', l'.wantsSemicolon (ls ++ [.endOfInput])) :: decisions (punctuated rest) := by
          rw [punctuated, decisions, wantsSemicolon_punctuated hvisible, hrest.map_fst,
            map_fst_decisions]
        rw [hleft, decisions]
        refine ⟨?_, ?_⟩
        · cases l'.wantsSemicolon (ls ++ [.endOfInput]) <;> simp [punctuated, hpunct]
        · simp only [List.countP_cons, if_false, Bool.false_eq_true]
          omega

section Source

variable {source : String} {points : Finset Nat}

theorem within_chosenAt_insertionPoints (h : points ⊆ insertionPoints (tokens source)) :
    Within (chosenAt points 0 (lexemes source)) (decisions (lexemes source)) := by
  have hpoints : ∀ p ∈ points, 0 < p → p ∈ pointsOf 0 (decisions (lexemes source)) :=
    fun p hp _ => mem_pointsOf_of_subset h p hp
  have hwithin := within_chosenAt (fun _ => chars_ne_nil_of_mem_decisions) hpoints
  rwa [map_fst_decisions] at hwithin

/-- A text in which some of its semicolons are written is cut into its lexemes and those
    semicolons. -/
theorem lexemes_insertSemicolons (h : points ⊆ insertionPoints (tokens source)) :
    lexemes (insertSemicolons points source) =
      punctuated (chosenAt points 0 (lexemes source)) := by
  have hwhole : ∀ l, (l, true) ∈ chosenAt points 0 (lexemes source) → l.EndsWhole :=
    fun l hl => endsWhole_of_mem_decisions ((within_chosenAt_insertionPoints h).mem hl)
  have hcut := (cuts_lexemes source).punctuated (map_fst_chosenAt points 0 _) hwhole
  rw [lexemes, toList_insertSemicolons h, ← cuts_iff.mp hcut]

theorem withSemicolons_insertSemicolons (h : points ⊆ insertionPoints (tokens source)) :
    withSemicolons (tokens (insertSemicolons points source)) = withSemicolons (tokens source) := by
  apply String.toList_inj.mp
  rw [toList_withSemicolons_tokens, toList_withSemicolons_tokens, lexemes_insertSemicolons h,
    (punctuated_decisions_punctuated (within_chosenAt_insertionPoints h)).1]

theorem semicolonCount_insertSemicolons (h : points ⊆ insertionPoints (tokens source)) :
    semicolonCount (tokens (insertSemicolons points source)) =
      (insertionPoints (tokens source)).card - points.card := by
  have hcard := countP_chosenAt (fun _ => chars_ne_nil_of_mem_decisions)
    (mem_pointsOf_of_subset h)
  rw [map_fst_decisions] at hcard
  have hcount := (punctuated_decisions_punctuated (within_chosenAt_insertionPoints h)).2
  rw [card_insertionPoints_tokens, semicolonCount_tokens, semicolonCount_tokens,
    lexemes_insertSemicolons h]
  omega

end Source

/-- Whichever semicolons of a text are written in advance, its conversion is the same, and as many
    fewer semicolons are inserted; a converted text stays as it is. -/
theorem convert_insertSemicolons {policy : Policy} (hpolicy : policy ≠ .fatal)
    (name : Option String) (source : String) :
    ∃ r, (convert policy name source).result = .ok r ∧
      r.output = insertSemicolons (insertionPoints (tokens source)) source ∧
      r.inserted = (insertionPoints (tokens source)).card ∧
      (∀ points ⊆ insertionPoints (tokens source), ∃ r',
        (convert policy name (insertSemicolons points source)).result = .ok r' ∧
          r'.output = r.output ∧
          r'.inserted = (insertionPoints (tokens source)).card - points.card) ∧
      ∃ r', (convert policy name r.output).result = .ok r' ∧
        r'.output = r.output ∧ r'.inserted = 0 := by
  have hresult : ∀ s, (convert policy name s).result = .ok (Conversion.ofSource s) :=
    fun _ => convert_result_of_ne_fatal hpolicy
  have houtput : (Conversion.ofSource source).output =
      insertSemicolons (insertionPoints (tokens source)) source := by
    rw [Conversion.output_ofSource, withSemicolons_eq_insertSemicolons]
  have hpart : ∀ points ⊆ insertionPoints (tokens source), ∃ r',
      (convert policy name (insertSemicolons points source)).result = .ok r' ∧
        r'.output = (Conversion.ofSource source).output ∧
        r'.inserted = (insertionPoints (tokens source)).card - points.card := by
    intro points h
    refine ⟨_, hresult _, ?_, ?_⟩
    · rw [Conversion.output_ofSource, Conversion.output_ofSource, withSemicolons_insertSemicolons h]
    · rw [Conversion.inserted_ofSource, semicolonCount_insertSemicolons h]
  obtain ⟨r', hr', houtput', hinserted'⟩ := hpart _ (Finset.Subset.refl _)
  refine ⟨_, hresult source, houtput, ?_, hpart, r', ?_, houtput', ?_⟩
  · rw [Conversion.inserted_ofSource, card_insertionPoints_tokens]
  · rw [houtput, hr']
  · rw [hinserted', Nat.sub_self]

theorem convert_first_semicolon : ∃ r, (convert .ignore none "x\ny;").result = .ok r ∧
    r.output = "x;\ny;" ∧ r.inserted = 1 := by
  have hpoints : insertionPoints (tokens "x\ny") = {1, 3} := by decide
  have hsecond : insertSemicolons {3} "x\ny" = "x\ny;" := by decide
  have hboth : insertSemicolons {1, 3} "x\ny" = "x;\ny;" := by decide
  have h := convert_insertSemicolons (show Policy.ignore ≠ .fatal by decide) none "x\ny"
  rw [hpoints, hboth] at h
  obtain ⟨r, hr, houtput, hinserted, hpart, hagain⟩ := h
  obtain ⟨r', hr', houtput', hinserted'⟩ := hpart {3} (by decide)
  rw [hsecond] at hr'
  exact ⟨r', hr', houtput'.trans houtput, hinserted'⟩

end Semicolons
