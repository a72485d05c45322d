import Semicolons.Proofs.Insertion.Rule
import Semicolons.Proofs.Lexeme.Maximal
import Semicolons.Proofs.Token.Tiling

/-!
# Where a line begins

Whether a line begins at a token is asked in two ways. Before a semicolon is written, the one or
two tokens in front of it are looked at by their kinds. Where a signature is checked, a line feed is
looked for in all the layout in front of it. In a text in which every carriage return is followed by
a line feed, the layout that breaks a line is the layout that holds a line feed
(`Cuts.breaksLine_iff_hasLineFeed`), so that the two answers differ only where something other than
blanks stands behind the last line feed (`startsLine_tokens_iff`).
-/

namespace Semicolons

/-- Where an item has a property, there is a last one that has it. -/
theorem exists_last {α : Type} {p : α → Prop} {l : List α} (h : ∃ x ∈ l, p x) :
    ∃ before x after, l = before ++ x :: after ∧ p x ∧ ∀ y ∈ after, ¬ p y := by
  induction l with
  | nil =>
    obtain ⟨x, hx, -⟩ := h
    cases hx
  | cons y l ih =>
    by_cases hl : ∃ x ∈ l, p x
    · obtain ⟨before, x, after, rfl, hx, hafter⟩ := ih hl
      exact ⟨y :: before, x, after, rfl, hx, hafter⟩
    · obtain ⟨x, hx, hpx⟩ := h
      rcases List.mem_cons.mp hx with rfl | hx
      · exact ⟨[], x, l, rfl, hpx, fun y hy hpy => hl ⟨y, hy, hpy⟩⟩
      · exact absurd ⟨x, hx, hpx⟩ hl

/-- Behind the last item that has a property stands the same, however the list is split there. -/
theorem eq_of_last {α : Type} {p : α → Prop} {before after before' after' : List α} {x x' : α}
    (h : before ++ x :: after = before' ++ x' :: after') (hx : p x) (hx' : p x')
    (hafter : ∀ y ∈ after, ¬ p y) (hafter' : ∀ y ∈ after', ¬ p y) : after = after' := by
  rcases List.append_eq_append_iff.mp h with ⟨between, -, hrest⟩ | ⟨between, -, hrest⟩
  · cases between with
    | nil => exact (List.cons.inj hrest).2
    | cons y between =>
      obtain ⟨-, rfl⟩ := List.cons.inj hrest
      exact absurd hx' (hafter x' (by simp))
  · cases between with
    | nil => exact (List.cons.inj hrest).2.symm
    | cons y between =>
      obtain ⟨-, rfl⟩ := List.cons.inj hrest
      exact absurd hx (hafter' x (by simp))

namespace Cuts

variable {text : List Char} {ls : List Lexeme} {l : Lexeme}

theorem isBlank_of_blanks (h : Cuts text ls) (hl : l ∈ ls) (hk : l.kind = .blanks) :
    ∀ c ∈ l.chars, isBlank c = true := by
  obtain ⟨before, after, rfl⟩ := List.append_of_mem hl
  exact (h.isMaximal.blanks hk).2.1

/-- A line comment stops in front of the end of its line. -/
theorem not_lineFeed_of_lineComment (h : Cuts text ls) (hl : l ∈ ls) (hk : l.kind = .lineComment) :
    '\n' ∉ l.chars := by
  obtain ⟨before, after, rfl⟩ := List.append_of_mem hl
  have hsplit : (before ++ l :: after) ++ [Lexeme.endOfInput] =
      before ++ l :: (after ++ [Lexeme.endOfInput]) := by simp
  have hends := h.ends hsplit (by rw [hk]; rfl)
  rw [hk] at hends
  rcases hends with ⟨-, inner, hchars, hinner, -⟩ | ⟨-, hlacks⟩
  · rw [hchars]
    intro hmem
    have hmem : '\n' ∈ inner := by simpa using hmem
    exact absurd (hinner _ hmem) (by decide)
  · exact hlacks.elim

/-- In a text in which every carriage return is followed by a line feed, the layout that breaks a
    line is the layout that holds a line feed. -/
theorem breaksLine_iff_hasLineFeed (h : Cuts text ls) (hpairs : PairsReturns text) (hl : l ∈ ls)
    (hlayout : l.isLayout = true) : l.breaksLine = true ↔ l.hasLineFeed = true := by
  constructor
  · exact h.hasLineFeed_of_breaksLine hpairs hl
  · intro hfeed
    obtain ⟨c, hc, hline⟩ := List.any_eq_true.mp hfeed
    obtain rfl := beq_iff_eq.mp hline
    rw [Lexeme.breaksLine_iff]
    rcases Kind.channel_eq_hidden_iff.mp (beq_iff_eq.mp hlayout) with hk | hk | hk | hk
    · exact absurd (h.isBlank_of_blanks hl hk _ hc) (by decide)
    · exact Or.inl hk
    · exact Or.inr ⟨hk, _, hc, by decide⟩
    · exact absurd hc (h.not_lineFeed_of_lineComment hl hk)

end Cuts

/-- Behind the last token of the layout that holds a line feed stand only blanks. -/
def BlanksBehindLineFeed (gap : List Token) : Prop :=
  ∀ before b after, gap = before ++ b :: after → '\n' ∈ b.chars → (∀ x ∈ after, '\n' ∉ x.chars) →
    ∀ w ∈ after, w.kind = .blanks

/-- Layout ends a line if it holds a line feed, and only blanks stand behind the last one. -/
theorem endsLine_iff_blanksBehindLineFeed {gap : List Token}
    (hbreak : ∀ g ∈ gap, g.IsLineBreak ↔ '\n' ∈ g.chars)
    (hblanks : ∀ g ∈ gap, g.kind = .blanks → '\n' ∉ g.chars) :
    EndsLine gap ↔ (∃ g ∈ gap, '\n' ∈ g.chars) ∧ BlanksBehindLineFeed gap := by
  constructor
  · rintro ⟨before, b, after, rfl, hb, hafter⟩
    have hfeed : '\n' ∈ b.chars := (hbreak b (by simp)).mp hb
    refine ⟨⟨b, by simp, hfeed⟩, ?_⟩
    have hlast : ∀ x ∈ after, '\n' ∉ x.chars := fun x hx => hblanks x (by simp [hx]) (hafter x hx)
    intro before' b' after' hsplit hfeed' hlast'
    obtain rfl := eq_of_last hsplit hfeed hfeed' hlast hlast'
    exact hafter
  · rintro ⟨hfeed, hblanksBehind⟩
    obtain ⟨before, b, after, rfl, hb, hafter⟩ := exists_last hfeed
    exact ⟨before, b, after, rfl, (hbreak b (by simp)).mpr hb,
      hblanksBehind before b after rfl hb hafter⟩

namespace Place

variable {gap behind ahead : List Token} {t x : Token}

/-- Behind a visible token, the layout that lies directly behind a place is all of it. -/
theorem gap_of_visible (hgap : ∀ g ∈ gap, g.isHidden = true) (hx : x.isHidden = false) :
    (⟨gap.reverse ++ x :: behind, t :: ahead⟩ : Place).gap = gap := by
  have hreverse : ∀ g ∈ gap.reverse, g.isHidden = true := by simpa using hgap
  have hbehind : (gap.reverse ++ x :: behind).takeWhile Token.isHidden = gap.reverse := by
    rw [List.takeWhile_append_of_pos hreverse, List.takeWhile_cons_of_neg (by simp [hx]),
      List.append_nil]
  simp [Place.gap, hbehind]

/-- The first visible token in front of a place is the one at the place, if that is visible. -/
theorem continuesLine_one (ht : t.isHidden = false) :
    (⟨behind, t :: ahead⟩ : Place).continuesLine 1 = false ↔
      ∃ g ∈ (⟨behind, t :: ahead⟩ : Place).gap, '\n' ∈ g.chars := by
  have hseek : seek 1 behind (t :: ahead) = some ⟨behind, t :: ahead⟩ :=
    seek_one_gap (fun _ h => absurd h List.not_mem_nil) ht
  simp [continuesLine, visible?, hseek, followsLineFeed, Lexeme.hasLineFeed]

/-- At a token that is not the first visible one, the tokens behind the place end with a visible one
    and the layout behind it. -/
theorem exists_gap_ofIndex {stream : List Token} {c : Nat} (ht : stream[c]? = some t)
    (hearlier : ∃ x ∈ stream.take c, x.channel = .visible) :
    ∃ before x gap ahead, stream = before ++ x :: (gap ++ t :: ahead) ∧ x.isHidden = false ∧
      (∀ g ∈ gap, g.isHidden = true) ∧
      ofIndex stream c = ⟨gap.reverse ++ x :: before.reverse, t :: ahead⟩ := by
  obtain ⟨hc, rfl⟩ := List.getElem?_eq_some_iff.mp ht
  have hearlier : ∃ x ∈ stream.take c, x.isHidden = false := by
    obtain ⟨x, hx, hchannel⟩ := hearlier
    exact ⟨x, hx, by rw [Token.isHidden, hchannel]; rfl⟩
  obtain ⟨before, x, gap, htake, hx, hgap⟩ := exists_last hearlier
  have hdrop : stream.drop c = stream[c] :: stream.drop (c + 1) := List.drop_eq_getElem_cons hc
  refine ⟨before, x, gap, stream.drop (c + 1), ?_, hx, fun g hg => by simpa using hgap g hg, ?_⟩
  · conv_lhs => rw [← List.take_append_drop c stream, htake, hdrop]
    simp
  · rw [ofIndex, if_pos hc.le, htake, hdrop]
    simp

end Place

section Source

variable {source : String} {c : Nat} {t : Token}

theorem mem_lexemes_of_isLayout (ht : t ∈ tokens source) (hlayout : t.isLayout = true) :
    t.toLexeme ∈ lexemes source := by
  refine mem_lexemes_of_mem_tokens ht ?_
  intro heq
  rw [heq] at hlayout
  cases hlayout

/-- A hidden token of a text breaks a line if it holds a line feed. -/
theorem isLineBreak_iff_of_mem_tokens (hpairs : PairsReturns source.toList)
    (ht : t ∈ tokens source) (hlayout : t.isLayout = true) :
    t.IsLineBreak ↔ '\n' ∈ t.chars := by
  rw [Token.isLineBreak_iff, (cuts_lexemes source).breaksLine_iff_hasLineFeed hpairs
    (mem_lexemes_of_isLayout ht hlayout) hlayout]
  simp [Lexeme.hasLineFeed]

theorem not_lineFeed_of_blanks (ht : t ∈ tokens source) (hk : t.kind = .blanks) :
    '\n' ∉ t.chars := by
  have hlayout : t.isLayout = true := by
    rw [Lexeme.isLayout, hk]
    rfl
  intro hfeed
  have hblank := (cuts_lexemes source).isBlank_of_blanks (mem_lexemes_of_isLayout ht hlayout) hk
  exact absurd (hblank _ hfeed) (by decide)

/-- Where every carriage return is followed by a line feed, a line begins at a visible token behind
    another one if a line feed lies between the two, and only blanks stand behind the last one. -/
theorem startsLine_tokens_iff (hpairs : PairsReturns source.toList)
    (ht : (tokens source)[c]? = some t) (hvisible : t.channel = .visible)
    (hearlier : ∃ x ∈ (tokens source).take c, x.channel = .visible) :
    (Place.ofIndex (tokens source) c).startsLine = true ↔
      (Place.ofIndex (tokens source) c).continuesLine 1 = false ∧
        BlanksBehindLineFeed (Place.ofIndex (tokens source) c).gap := by
  have hhead : t.isHidden = false := by
    rw [Token.isHidden, hvisible]
    rfl
  obtain ⟨before, x, gap, ahead, hsplit, hx, hgap, hplace⟩ := Place.exists_gap_ofIndex ht hearlier
  have hmem : ∀ g ∈ gap, g ∈ tokens source := fun g hg => by simp [hsplit, hg]
  have hbreak : ∀ g ∈ gap, g.IsLineBreak ↔ '\n' ∈ g.chars := by
    intro g hg
    refine isLineBreak_iff_of_mem_tokens hpairs (hmem g hg) ?_
    rw [← Token.isHidden_eq (channel_of_mem_tokens (hmem g hg))]
    exact hgap g hg
  have hblanks : ∀ g ∈ gap, g.kind = .blanks → '\n' ∉ g.chars :=
    fun g hg => not_lineFeed_of_blanks (hmem g hg)
  have hxbreak : x.breaksLine = false := by
    have hx' : x ∈ tokens source := by simp [hsplit]
    refine Lexeme.breaksLine_of_visible ?_
    rw [← Token.isHidden_eq (channel_of_mem_tokens hx'), hx]
  rw [hplace, Place.startsLine_gap hgap hx hxbreak, ← endsLine_iff (isChain_gap hsplit),
    endsLine_iff_blanksBehindLineFeed hbreak hblanks, Place.continuesLine_one hhead,
    Place.gap_of_visible hgap hx]

theorem no_line_behind_comment :
    PairsReturns "x\r\n/* y */z".toList ∧
      (Place.ofIndex (tokens "x\r\n/* y */z") 3).startsLine = false ∧
      (Place.ofIndex (tokens "x\r\n/* y */z") 3).continuesLine 1 = false ∧
      ¬ BlanksBehindLineFeed (Place.ofIndex (tokens "x\r\n/* y */z") 3).gap := by
  have hpairs : PairsReturns "x\r\n/* y */z".toList := by decide
  have hearlier : ∃ x ∈ (tokens "x\r\n/* y */z").take 3, x.channel = .visible :=
    ⟨_, List.mem_cons_self, rfl⟩
  have hlooks := startsLine_tokens_iff hpairs (t := (tokens "x\r\n/* y */z")[3]) rfl rfl hearlier
  refine ⟨hpairs, rfl, rfl, fun hblanks => ?_⟩
  have hstarts := hlooks.mpr ⟨rfl, hblanks⟩
  cases hstarts

end Source

end Semicolons
