import Semicolons.Place

/-!
# The gap in front of a visible token

The next visible token behind a place is the first one that no layout token stands for, and what
is asked at its place depends only on the layout passed over on the way (`next?_gap`,
`startsLine_gap`).
-/

namespace Semicolons

namespace Place

/-- Seeking the first visible token passes over the hidden ones and leaves them behind. -/
theorem seek_one_gap {behind gap after : List Token} {n : Token}
    (hgap : ∀ g ∈ gap, g.isHidden = true) (hn : n.isHidden = false) :
    seek 1 behind (gap ++ n :: after) = some ⟨gap.reverse ++ behind, n :: after⟩ := by
  induction gap generalizing behind with
  | nil => simp [seek, hn]
  | cons g gap ih =>
    have hg : g.isHidden = true := hgap g List.mem_cons_self
    rw [List.cons_append, seek, if_pos hg, ih fun g' h => hgap g' (List.mem_cons_of_mem _ h)]
    simp

theorem seek_one_eq_none {behind ahead : List Token} (h : ∀ g ∈ ahead, g.isHidden = true) :
    seek 1 behind ahead = none := by
  induction ahead generalizing behind with
  | nil => rfl
  | cons g ahead ih =>
    have hg : g.isHidden = true := h g List.mem_cons_self
    rw [seek, if_pos hg]
    exact ih fun g' hg' => h g' (List.mem_cons_of_mem _ hg')

theorem next?_gap {behind gap after : List Token} {t n : Token}
    (hgap : ∀ g ∈ gap, g.isHidden = true) (hn : n.isHidden = false) :
    (⟨behind, t :: (gap ++ n :: after)⟩ : Place).next? =
      some ⟨gap.reverse ++ t :: behind, n :: after⟩ :=
  seek_one_gap hgap hn

/-- At the place of a visible token, that token is the one that is asked for its text. -/
theorem spells_cons {behind after : List Token} {n : Token} (hn : n.isHidden = false)
    (text : String) : (⟨behind, n :: after⟩ : Place).spells text = (n.text? == some text) := by
  have hseek : seek 1 behind (n :: after) = some ⟨behind, n :: after⟩ :=
    seek_one_gap (fun _ h => absurd h List.not_mem_nil) hn
  simp [spells, visible?, hseek, token?]

end Place

namespace Lexeme

/-- Whether a lexeme is layout. -/
def isLayout (l : Lexeme) : Bool :=
  l.kind.channel == .hidden

/-- Whether a line begins behind layout that is given from its end backwards: its last lexeme
    breaks the line, or the one before that does and only blanks follow it. -/
def breakBehind : List Lexeme → Bool
  | [] => false
  | l :: before => if l.kind = .blanks then before.head?.any (·.breaksLine) else l.breaksLine

theorem visible_of_endsStatement {l : Lexeme} (h : l.kind.endsStatement = true) :
    l.isLayout = false := by
  simp [isLayout, Kind.channel_of_endsStatement h]

theorem ne_endOfInput_of_endsStatement {l : Lexeme} (h : l.kind.endsStatement = true) :
    l ≠ .endOfInput := by
  rintro rfl
  cases h

/-- A lexeme that breaks the line is layout. -/
theorem isLayout_of_breaksLine {l : Lexeme} (h : l.breaksLine = true) : l.isLayout = true := by
  rw [breaksLine] at h
  split at h
  · next hk => simp [isLayout, hk, Kind.channel]
  · next hk => simp [isLayout, hk, Kind.channel]
  · cases h

theorem breaksLine_of_visible {l : Lexeme} (h : l.isLayout = false) : l.breaksLine = false := by
  cases hb : l.breaksLine with
  | false => rfl
  | true =>
    rw [isLayout_of_breaksLine hb] at h
    cases h

end Lexeme

/-- On the channel of its kind, a token is hidden if its lexeme is layout. -/
theorem Token.isHidden_eq {t : Token} (h : t.channel = t.kind.channel) :
    t.isHidden = t.isLayout := by
  rw [isHidden, h]
  rfl

/-- Behind a visible token and layout, the layout alone settles whether a line begins: one step
    past it there is the visible token, which breaks no line. -/
theorem Place.startsLine_gap {behind gap ahead : List Token} {t : Token}
    (hgap : ∀ g ∈ gap, g.isHidden = true) (ht : t.isHidden = false)
    (hbreak : t.breaksLine = false) :
    (⟨gap.reverse ++ t :: behind, ahead⟩ : Place).startsLine =
      Lexeme.breakBehind (gap.map Token.toLexeme).reverse := by
  rw [← List.map_reverse]
  cases hrev : gap.reverse with
  | nil => simp [startsLine, ht, Lexeme.breakBehind]
  | cons g before =>
    have hg : g.isHidden = true := hgap g (List.mem_reverse.mp (hrev ▸ List.mem_cons_self))
    cases before with
    | nil => simp [startsLine, hg, Lexeme.breakBehind, hbreak]
    | cons b before => simp [startsLine, hg, Lexeme.breakBehind]

end Semicolons
