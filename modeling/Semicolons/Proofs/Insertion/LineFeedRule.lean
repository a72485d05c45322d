import Semicolons.Proofs.Conversion
import Semicolons.Proofs.Insertion.Decision
import Semicolons.Proofs.Lexeme.Layout

/-!
# The semicolons that line feeds imply

The language has a rule of its own for semicolons that are not written: one is implied behind each
token on which a statement can end if a line feed lies in the layout behind it or the text ends
there. A conversion writes only semicolons that are implied (`impliesSemicolon_of_wants`), and
those that it leaves out are still implied in the converted text, so that the tokens under that
rule stay the same (`convert_preserves_implied`).
-/

namespace Semicolons

/-- Whether a semicolon is implied in front of the tokens `rest`, behind one on which a statement
    can end. -/
def impliesSemicolon (rest : List Token) : Bool :=
  (rest.takeWhile (·.isHidden)).any (·.hasLineFeed) || (rest.find? (!·.isHidden)).any (·.isEnd)

/-- The visible tokens of a stream, with a semicolon wherever one is implied. -/
def withImplied : List Token → List (Kind × String)
  | [] => []
  | t :: rest =>
    if t.isHidden then withImplied rest
    else if t.kind.endsStatement && impliesSemicolon rest then
      (t.kind, t.text) :: (.punctuation .semicolon, ";") :: withImplied rest
    else (t.kind, t.text) :: withImplied rest

namespace Lexeme

/-- Whether a semicolon is implied in front of the lexemes `rest`. -/
def impliesSemicolon (rest : List Lexeme) : Bool :=
  (rest.takeWhile (·.isLayout)).any (·.hasLineFeed) || (rest.find? (!·.isLayout)).any (·.isEnd)

/-- The visible ones among lexemes, with a semicolon wherever one is implied. -/
def withImplied : List Lexeme → List (Kind × String)
  | [] => []
  | l :: rest =>
    if l.isLayout then withImplied rest
    else if l.kind.endsStatement && impliesSemicolon rest then
      (l.kind, l.text) :: (.punctuation .semicolon, ";") :: withImplied rest
    else (l.kind, l.text) :: withImplied rest

end Lexeme

theorem impliesSemicolon_inPlace (index offset : Nat) (ls : List Lexeme) :
    impliesSemicolon (inPlace index offset ls) = Lexeme.impliesSemicolon ls := by
  induction ls generalizing index offset with
  | nil => rfl
  | cons l ls ih =>
    have hrest := ih (index + 1) (offset + byteLength l.chars)
    have hhidden : (⟨l, l.kind.channel, index, ⟨offset, offset + byteLength l.chars⟩⟩ :
        Token).isHidden = l.isLayout := rfl
    rw [impliesSemicolon, Lexeme.impliesSemicolon] at hrest
    rw [inPlace_cons, impliesSemicolon, Lexeme.impliesSemicolon]
    cases hl : l.isLayout with
    | false => simp [hhidden, hl]
    | true =>
      rw [hl] at hhidden
      simp only [List.takeWhile_cons, List.find?_cons, hhidden, hl, if_true, List.any_cons,
        Bool.or_assoc, Bool.not_true, hrest]

/-- Whether semicolons are implied does not depend on where the tokens stand. -/
theorem withImplied_inPlace (index offset : Nat) (ls : List Lexeme) :
    withImplied (inPlace index offset ls) = Lexeme.withImplied ls := by
  induction ls generalizing index offset with
  | nil => rfl
  | cons l ls ih =>
    rw [inPlace_cons, withImplied, Lexeme.withImplied, impliesSemicolon_inPlace, ih]
    rfl

/-- Behind layout in which a line breaks, seen from its end, some lexeme breaks the line. -/
theorem exists_of_breakBehind {behind : List Lexeme} (h : Lexeme.breakBehind behind = true) :
    ∃ b ∈ behind, b.breaksLine = true := by
  cases behind with
  | nil => cases h
  | cons l before =>
    rw [Lexeme.breakBehind] at h
    split at h
    · obtain ⟨b, hb, hbreak⟩ := (Option.any_eq_true _ _).mp h
      exact ⟨b, List.mem_cons_of_mem _ (List.mem_of_head? hb), hbreak⟩
    · exact ⟨l, List.mem_cons_self, h⟩

/-- Only semicolons that are implied are written. -/
theorem impliesSemicolon_of_wants {l : Lexeme} {rest : List Lexeme}
    (hfeed : ∀ x ∈ rest, x.breaksLine = true → x.hasLineFeed = true)
    (h : l.wantsSemicolon rest = true) : Lexeme.impliesSemicolon rest = true := by
  rw [Lexeme.wantsSemicolon, Bool.and_eq_true] at h
  obtain ⟨n, hfind, hn⟩ := (Option.any_eq_true _ _).mp h.2
  rw [Bool.and_eq_true, Bool.or_eq_true] at hn
  rw [Lexeme.impliesSemicolon, Bool.or_eq_true]
  rcases hn.2 with hend | hbreak
  · right
    rw [hfind]
    exact hend
  · left
    obtain ⟨b, hb, hline⟩ := exists_of_breakBehind hbreak
    have hgap := List.mem_reverse.mp hb
    exact List.any_eq_true.mpr ⟨b, hgap, hfeed b (List.takeWhile_subset _ hgap) hline⟩

/-- Written semicolons do not change whether one is implied in front of them. -/
theorem impliesSemicolon_punctuated {choice : List (Lexeme × Bool)}
    (h : ∀ l, (l, true) ∈ choice → l.isLayout = false) :
    Lexeme.impliesSemicolon (punctuated choice ++ [.endOfInput]) =
      Lexeme.impliesSemicolon (choice.map Prod.fst ++ [.endOfInput]) := by
  obtain ⟨gap, n, after, after', hgap, hn, hfst, hpunct⟩ := exists_gap_punctuated h
  rw [hfst, hpunct, Lexeme.impliesSemicolon, Lexeme.impliesSemicolon, find?_gap hgap hn,
    find?_gap hgap hn, takeWhile_gap hgap hn, takeWhile_gap hgap hn]

/-- In front of the end of the input no lexeme that is written changes what is implied: of the
    semicolons decided upon each was implied, and all others still are. -/
theorem withImplied_punctuated_decisions {ls : List Lexeme}
    (hfeed : ∀ l ∈ ls, l.breaksLine = true → l.hasLineFeed = true) :
    Lexeme.withImplied (punctuated (decisions ls) ++ [.endOfInput]) =
      Lexeme.withImplied (ls ++ [.endOfInput]) := by
  induction ls with
  | nil => rfl
  | cons l ls ih =>
    have hrest := ih fun x hx => hfeed x (List.mem_cons_of_mem _ hx)
    have hvisible : ∀ x, (x, true) ∈ decisions ls → x.isLayout = false :=
      fun x hx => visible_of_mem_decisions hx
    have hsame := impliesSemicolon_punctuated hvisible
    rw [map_fst_decisions] at hsame
    cases hw : l.wantsSemicolon (ls ++ [.endOfInput]) with
    | false =>
      rw [decisions, hw, punctuated, List.cons_append, List.cons_append, Lexeme.withImplied,
        Lexeme.withImplied, hsame, hrest]
    | true =>
      have hfeed' : ∀ x ∈ ls ++ [.endOfInput], x.breaksLine = true → x.hasLineFeed = true := by
        intro x hx hbreak
        rcases List.mem_append.mp hx with hx | hx
        · exact hfeed x (List.mem_cons_of_mem _ hx) hbreak
        · rw [List.mem_singleton.mp hx] at hbreak
          cases hbreak
      have himplied := impliesSemicolon_of_wants hfeed' hw
      have hends := (Lexeme.endsWhole_of_wantsSemicolon hw).1
      have hl := Lexeme.visible_of_endsStatement hends
      have hwritten : ∀ after, Lexeme.impliesSemicolon (.semicolon :: after) = false :=
        fun _ => rfl
      calc
        Lexeme.withImplied (punctuated (decisions (l :: ls)) ++ [.endOfInput])
          = Lexeme.withImplied
              (l :: .semicolon :: (punctuated (decisions ls) ++ [.endOfInput])) := by
            rw [decisions, hw]
            rfl
        _ = (l.kind, l.text) :: (.punctuation .semicolon, ";") ::
              Lexeme.withImplied (punctuated (decisions ls) ++ [.endOfInput]) := by
            rw [Lexeme.withImplied, hl, hwritten, Bool.and_false]
            rfl
        _ = Lexeme.withImplied (l :: ls ++ [.endOfInput]) := by
            rw [hrest, List.cons_append, Lexeme.withImplied, hl, hends, himplied]
            rfl

/-- In a text in which every carriage return is followed by a line feed, a conversion keeps the
    visible tokens together with the semicolons that are implied between them. -/
theorem convert_preserves_implied {policy : Policy} {name : Option String} {source : String}
    {r : Conversion} (hpairs : PairsReturns source.toList)
    (h : (convert policy name source).result = .ok r) :
    withImplied (tokens r.output) = withImplied (tokens source) := by
  have hfeed : ∀ l ∈ lexemes source, l.breaksLine = true → l.hasLineFeed = true :=
    fun _ => (cuts_lexemes source).hasLineFeed_of_breaksLine hpairs
  rw [eq_ofSource_of_convert h, Conversion.output_ofSource, tokens_eq_inPlace (withSemicolons _),
    lexemes_withSemicolons_tokens, withImplied_inPlace, withImplied_punctuated_decisions hfeed,
    tokens_eq_inPlace, withImplied_inPlace]

theorem convert_preserves_implied_behind_comment :
    PairsReturns "x\r\n/* y */z".toList ∧
      (convert .fatal none "x\r\n/* y */z").result = .ok ⟨"x\r\n/* y */z;", 1, []⟩ ∧
      withImplied (tokens "x\r\n/* y */z;") = withImplied (tokens "x\r\n/* y */z") := by
  have hpairs : PairsReturns "x\r\n/* y */z".toList := by decide
  have hresult : (convert .fatal none "x\r\n/* y */z").result =
      .ok ⟨"x\r\n/* y */z;", 1, []⟩ := rfl
  exact ⟨hpairs, hresult, convert_preserves_implied hpairs hresult⟩

end Semicolons
