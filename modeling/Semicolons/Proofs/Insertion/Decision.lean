import Semicolons.Insertion
import Semicolons.Proofs.Lexeme.Punctuated
import Semicolons.Proofs.Place.Gap
import Semicolons.Proofs.Token.Layout

/-!
# The decision at a lexeme

Whether a semicolon is written after a token does not depend on its index or its span, nor on
anything in front of it: the lexemes from it on decide (`wantsSemicolon_eq`). The semicolons of a
text are therefore a choice among its lexemes, `decisions`, and the converted text is the text
punctuated by that choice (`toList_withSemicolons_tokens`), which is cut into the punctuated
lexemes (`lexemes_withSemicolons_tokens`).
-/

namespace Semicolons

namespace Lexeme

/-- Whether a semicolon is written after a lexeme that the lexemes `rest` follow. -/
def wantsSemicolon (l : Lexeme) (rest : List Lexeme) : Bool :=
  (!l.isLayout && l.kind.endsStatement && l.fault.isNone) &&
    (rest.find? (!·.isLayout)).any fun n =>
      !(n.text? == some ";") &&
        (n.isEnd || breakBehind (rest.takeWhile (·.isLayout)).reverse)

theorem endsWhole_of_wantsSemicolon {l : Lexeme} {rest : List Lexeme}
    (h : l.wantsSemicolon rest = true) : l.EndsWhole := by
  simp only [wantsSemicolon, Bool.and_eq_true, Option.isNone_iff_eq_none] at h
  exact ⟨h.1.1.2, h.1.2⟩

end Lexeme

section Gap

variable {α : Type} {p : α → Bool} {gap after rest : List α} {n : α}

/-- Items among which one is no layout begin with a gap and such an item behind it. -/
theorem exists_gap (h : rest.find? (!p ·) = some n) :
    ∃ gap after, rest = gap ++ n :: after ∧ (∀ g ∈ gap, p g = true) ∧ p n = false := by
  obtain ⟨hn, gap, after, rfl, hgap⟩ := List.find?_eq_some_iff_append.mp h
  exact ⟨gap, after, rfl, fun g hg => by simpa using hgap g hg, by simpa using hn⟩

theorem find?_gap (hgap : ∀ g ∈ gap, p g = true) (hn : p n = false) :
    (gap ++ n :: after).find? (!p ·) = some n := by
  refine List.find?_eq_some_iff_append.mpr ⟨by simp [hn], gap, after, rfl, ?_⟩
  intro g hg
  simp [hgap g hg]

theorem takeWhile_gap (hgap : ∀ g ∈ gap, p g = true) (hn : p n = false) :
    (gap ++ n :: after).takeWhile p = gap := by
  rw [List.takeWhile_append_of_pos hgap, List.takeWhile_cons_of_neg (by simp [hn]),
    List.append_nil]

end Gap

/-- What decides about a semicolon in front of a gap and a visible lexeme. -/
theorem wantsSemicolon_gap_append {gap : List Lexeme} {n : Lexeme}
    (hgap : ∀ g ∈ gap, g.isLayout = true) (hn : n.isLayout = false) (l : Lexeme)
    (after : List Lexeme) :
    l.wantsSemicolon (gap ++ n :: after) =
      ((!l.isLayout && l.kind.endsStatement && l.fault.isNone) &&
        (!(n.text? == some ";") && (n.isEnd || Lexeme.breakBehind gap.reverse))) := by
  rw [Lexeme.wantsSemicolon, find?_gap hgap hn, takeWhile_gap hgap hn, Option.any_some]

/-- Semicolons written behind visible lexemes leave the layout that a text begins with, and the
    visible lexeme behind it. -/
theorem exists_gap_punctuated {choice : List (Lexeme × Bool)}
    (h : ∀ l, (l, true) ∈ choice → l.isLayout = false) :
    ∃ (gap : List Lexeme) (n : Lexeme) (after after' : List Lexeme),
      (∀ g ∈ gap, g.isLayout = true) ∧ n.isLayout = false ∧
      choice.map Prod.fst ++ [Lexeme.endOfInput] = gap ++ n :: after ∧
      punctuated choice ++ [Lexeme.endOfInput] = gap ++ n :: after' := by
  induction choice with
  | nil => exact ⟨[], .endOfInput, [], [], by simp, rfl, rfl, rfl⟩
  | cons x rest ih =>
    obtain ⟨l, written⟩ := x
    cases hl : l.isLayout with
    | false =>
      refine ⟨[], l, rest.map Prod.fst ++ [.endOfInput], ?_⟩
      cases written with
      | false => exact ⟨punctuated rest ++ [.endOfInput], by simp, hl, rfl, rfl⟩
      | true => exact ⟨.semicolon :: (punctuated rest ++ [.endOfInput]), by simp, hl, rfl, rfl⟩
    | true =>
      obtain ⟨gap, n, after, after', hgap, hn, hfst, hpunct⟩ :=
        ih fun l hl => h l (List.mem_cons_of_mem _ hl)
      cases written with
      | true =>
        rw [h l List.mem_cons_self] at hl
        cases hl
      | false =>
        refine ⟨l :: gap, n, after, after', List.forall_mem_cons.mpr ⟨hl, hgap⟩, hn, ?_, ?_⟩
        · rw [List.map_cons, List.cons_append, hfst, List.cons_append]
        · rw [punctuated, List.cons_append, hpunct, List.cons_append]

/-- Semicolons written further on change no decision. -/
theorem wantsSemicolon_punctuated {choice : List (Lexeme × Bool)}
    (h : ∀ l, (l, true) ∈ choice → l.isLayout = false) (l : Lexeme) :
    l.wantsSemicolon (punctuated choice ++ [.endOfInput]) =
      l.wantsSemicolon (choice.map Prod.fst ++ [.endOfInput]) := by
  obtain ⟨gap, n, after, after', hgap, hn, hfst, hpunct⟩ := exists_gap_punctuated h
  rw [hfst, hpunct, wantsSemicolon_gap_append hgap hn, wantsSemicolon_gap_append hgap hn]

/-- What decides about a semicolon after a token are the lexemes from that token on. -/
theorem wantsSemicolon_eq {behind rest : List Token} {t : Token}
    (hchannel : ∀ x ∈ t :: rest, x.channel = x.kind.channel) :
    (⟨behind, t :: rest⟩ : Place).wantsSemicolon =
      t.toLexeme.wantsSemicolon (rest.map Token.toLexeme) := by
  have hlayout : ∀ x ∈ t :: rest, x.isHidden = x.isLayout :=
    fun x hx => Token.isHidden_eq (hchannel x hx)
  have ht : t.isHidden = t.isLayout := hlayout t List.mem_cons_self
  cases hv : t.isLayout with
  | true => simp [Place.wantsSemicolon, Place.token?, Lexeme.wantsSemicolon, ht, hv]
  | false =>
    cases hfind : rest.find? (!·.isHidden) with
    | none =>
      have hgap : ∀ g ∈ rest, g.isHidden = true := by
        simpa using hfind
      have hnext : (⟨behind, t :: rest⟩ : Place).next? = none := Place.seek_one_eq_none hgap
      have hfind' : (rest.map Token.toLexeme).find? (!·.isLayout) = none := by
        rw [List.find?_eq_none]
        intro l hl
        obtain ⟨g, hg, rfl⟩ := List.mem_map.mp hl
        simp [← hlayout g (List.mem_cons_of_mem _ hg), hgap g hg]
      simp [Place.wantsSemicolon, Lexeme.wantsSemicolon, hnext, hfind']
    | some n =>
      obtain ⟨gap, after, rfl, hgap, hn⟩ := exists_gap hfind
      have hgap' : ∀ l ∈ gap.map Token.toLexeme, l.isLayout = true := by
        intro l hl
        obtain ⟨g, hg, rfl⟩ := List.mem_map.mp hl
        rw [← hlayout g (by simp [hg]), hgap g hg]
      have hn' : n.isLayout = false := by
        rw [← hlayout n (by simp), hn]
      rw [hv] at ht
      have hbreak : (⟨gap.reverse ++ t :: behind, n :: after⟩ : Place).startsLine =
          Lexeme.breakBehind (gap.map Token.toLexeme).reverse :=
        Place.startsLine_gap hgap ht (Lexeme.breaksLine_of_visible hv)
      simp only [Place.wantsSemicolon, Place.token?, Lexeme.wantsSemicolon, Place.next?_gap hgap hn,
        List.head?_cons, Option.any_some, Place.spells_cons hn, hbreak, List.map_append,
        List.map_cons, find?_gap hgap' hn', takeWhile_gap hgap' hn', ht, hv]

/-- The tokens of a stream, each with whether a semicolon is written after it, by the lexemes from
    that token on. -/
def markedByLexemes : List Token → List (Token × Bool)
  | [] => []
  | t :: rest => (t, t.toLexeme.wantsSemicolon (rest.map Token.toLexeme)) :: markedByLexemes rest

theorem marked_eq {stream : List Token} (hchannel : ∀ x ∈ stream, x.channel = x.kind.channel) :
    marked stream = markedByLexemes stream := by
  have hfrom : ∀ behind, (placesFrom behind stream).filterMap
      (fun p => p.token?.map (·, p.wantsSemicolon)) = markedByLexemes stream := by
    induction stream with
    | nil => exact fun _ => rfl
    | cons t rest ih =>
      intro behind
      have hrest := ih fun x hx => hchannel x (List.mem_cons_of_mem _ hx)
      calc
        (placesFrom behind (t :: rest)).filterMap (fun p => p.token?.map (·, p.wantsSemicolon))
          = (t, (⟨behind, t :: rest⟩ : Place).wantsSemicolon) ::
              (placesFrom (t :: behind) rest).filterMap
                (fun p => p.token?.map (·, p.wantsSemicolon)) := rfl
        _ = markedByLexemes (t :: rest) := by
          rw [hrest, wantsSemicolon_eq hchannel, markedByLexemes]
  exact hfrom []

theorem map_fst_markedByLexemes (stream : List Token) :
    (markedByLexemes stream).map Prod.fst = stream := by
  induction stream with
  | nil => rfl
  | cons t rest ih => rw [markedByLexemes, List.map_cons, ih]

theorem mem_markedByLexemes {stream : List Token} {t : Token} {wanted : Bool} :
    (t, wanted) ∈ markedByLexemes stream ↔ ∃ before rest, stream = before ++ t :: rest ∧
      t.toLexeme.wantsSemicolon (rest.map Token.toLexeme) = wanted := by
  induction stream with
  | nil => simp [markedByLexemes]
  | cons s stream ih =>
    rw [markedByLexemes, List.mem_cons, ih]
    constructor
    · rintro (h | ⟨before, rest, rfl, hw⟩)
      · cases h
        exact ⟨[], stream, rfl, rfl⟩
      · exact ⟨s :: before, rest, rfl, hw⟩
    · rintro ⟨before, rest, heq, hw⟩
      cases before with
      | nil =>
        cases heq
        exact Or.inl (by rw [hw])
      | cons b before =>
        cases heq
        exact Or.inr ⟨before, rest, rfl, hw⟩

/-- The lexemes of a text, each with whether a semicolon is written after it. -/
def decisions : List Lexeme → List (Lexeme × Bool)
  | [] => []
  | l :: rest => (l, l.wantsSemicolon (rest ++ [.endOfInput])) :: decisions rest

@[simp] theorem map_fst_decisions (ls : List Lexeme) : (decisions ls).map Prod.fst = ls := by
  induction ls with
  | nil => rfl
  | cons l ls ih => rw [decisions, List.map_cons, ih]

theorem endsWhole_of_mem_decisions {ls : List Lexeme} {l : Lexeme}
    (h : (l, true) ∈ decisions ls) : l.EndsWhole := by
  induction ls with
  | nil => cases h
  | cons l' ls ih =>
    rcases List.mem_cons.mp h with heq | h
    · obtain ⟨rfl, hw⟩ := Prod.mk.inj heq
      exact Lexeme.endsWhole_of_wantsSemicolon hw.symm
    · exact ih h

theorem visible_of_mem_decisions {ls : List Lexeme} {l : Lexeme} (h : (l, true) ∈ decisions ls) :
    l.isLayout = false :=
  Lexeme.visible_of_endsStatement (endsWhole_of_mem_decisions h).1

theorem map_markedByLexemes_inPlace (index offset : Nat) (ls : List Lexeme) :
    (markedByLexemes (inPlace index offset (ls ++ [.endOfInput]))).map
        (fun x => (x.1.toLexeme, x.2)) = decisions ls ++ [(.endOfInput, false)] := by
  induction ls generalizing index offset with
  | nil => rfl
  | cons l ls ih =>
    rw [List.cons_append, inPlace_cons, markedByLexemes, List.map_cons, ih,
      map_toLexeme_inPlace, decisions, List.cons_append]

/-- The semicolons of a source text are decided by its lexemes. -/
theorem map_marked_tokens (source : String) :
    (marked (tokens source)).map (fun x => (x.1.toLexeme, x.2)) =
      decisions (lexemes source) ++ [(.endOfInput, false)] := by
  rw [marked_eq fun _ => channel_of_mem_tokens, tokens_eq_inPlace, map_markedByLexemes_inPlace]

/-- The characters of punctuated lexemes. -/
theorem flatMap_chars_punctuated (choice : List (Lexeme × Bool)) :
    (punctuated choice).flatMap Lexeme.chars =
      choice.flatMap fun x => if x.2 then x.1.chars ++ [';'] else x.1.chars := by
  induction choice with
  | nil => rfl
  | cons x rest ih =>
    obtain ⟨l, written⟩ := x
    cases written <;> simp [punctuated, ih]

/-- A converted text is the text with semicolons after the lexemes decided upon. -/
theorem toList_withSemicolons_tokens (source : String) :
    (withSemicolons (tokens source)).toList =
      (punctuated (decisions (lexemes source))).flatMap Lexeme.chars := by
  have hflat : (withSemicolons (tokens source)).toList =
      ((marked (tokens source)).map fun x => (x.1.toLexeme, x.2)).flatMap
        fun x => if x.2 then x.1.chars ++ [';'] else x.1.chars := by
    rw [withSemicolons, String.toList_ofList, List.flatMap_map]
    rfl
  rw [hflat, map_marked_tokens, List.flatMap_append, ← flatMap_chars_punctuated]
  exact List.append_nil _

/-- As many semicolons are written as are decided upon. -/
theorem semicolonCount_tokens (source : String) :
    semicolonCount (tokens source) = (decisions (lexemes source)).countP (·.2) := by
  have hcount : (marked (tokens source)).countP (·.2) =
      ((marked (tokens source)).map fun x => (x.1.toLexeme, x.2)).countP (·.2) := by
    rw [List.countP_map]
    rfl
  rw [semicolonCount, hcount, map_marked_tokens, List.countP_append]
  rfl

/-- A converted text is cut into the lexemes of the text and the semicolons written. -/
theorem lexemes_withSemicolons_tokens (source : String) :
    lexemes (withSemicolons (tokens source)) = punctuated (decisions (lexemes source)) := by
  have hcut := (cuts_lexemes source).punctuated (map_fst_decisions _)
    fun _ => endsWhole_of_mem_decisions
  rw [lexemes, toList_withSemicolons_tokens, ← cuts_iff.mp hcut]

end Semicolons
