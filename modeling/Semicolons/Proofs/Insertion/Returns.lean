import Semicolons.Proofs.Insertion.Decision
import Semicolons.Proofs.Lexeme.Returns

/-!
# Decisions without carriage returns

The lexemes of a text are asked for their kinds, whether a line breaks in them, and whether they are
semicolons. Where every carriage return is followed by a line feed, the carriage returns make no
difference to the answers, and so none to where semicolons are written
(`withSemicolons_withoutReturns`).
-/

namespace Semicolons

section Text

variable {text : List Char}

theorem mem_dropReturns {c : Char} : c ∈ dropReturns text ↔ c ∈ text ∧ c ≠ '\r' := by
  simp [dropReturns]

theorem lineFeed_mem_dropReturns : '\n' ∈ dropReturns text ↔ '\n' ∈ text := by
  rw [mem_dropReturns]
  exact and_iff_left (by decide)

namespace PairsReturns

/-- A text that holds a carriage return holds a line feed. -/
theorem lineFeed_mem (h : PairsReturns text) (hmem : '\r' ∈ text) : '\n' ∈ text := by
  obtain ⟨before, after, rfl⟩ := List.append_of_mem hmem
  obtain ⟨after, rfl⟩ := List.head?_eq_some_iff.mp h.head?_eq
  simp

theorem any_isLineBreak (h : PairsReturns text) :
    (dropReturns text).any isLineBreak = text.any isLineBreak := by
  rw [Bool.eq_iff_iff, List.any_eq_true, List.any_eq_true]
  constructor
  · rintro ⟨c, hc, hbreak⟩
    exact ⟨c, (mem_dropReturns.mp hc).1, hbreak⟩
  · rintro ⟨c, hc, hbreak⟩
    have hfeed : '\n' ∈ text := by
      rcases isLineBreak_eq_true_iff.mp hbreak with rfl | rfl
      · exact h.lineFeed_mem hc
      · exact hc
    exact ⟨'\n', lineFeed_mem_dropReturns.mpr hfeed, rfl⟩

/-- A text without line feeds is found where it stands. -/
theorem dropReturns_eq_iff {w : List Char} (h : PairsReturns text) (hreturn : '\r' ∉ w)
    (hfeed : '\n' ∉ w) : dropReturns text = w ↔ text = w := by
  constructor
  · rintro rfl
    have hnone : '\r' ∉ text := by
      intro hmem
      exact hfeed (lineFeed_mem_dropReturns.mpr (h.lineFeed_mem hmem))
    exact (dropReturns_of_not_mem hnone).symm
  · rintro rfl
    exact dropReturns_of_not_mem hreturn

end PairsReturns

end Text

namespace Lexeme

variable {l : Lexeme} {ls : List Lexeme}

@[simp] theorem withoutReturns_endOfInput : endOfInput.withoutReturns = endOfInput :=
  rfl

@[simp] theorem withoutReturns_semicolon : semicolon.withoutReturns = semicolon :=
  rfl

theorem breaksLine_withoutReturns (h : PairsReturns l.chars) :
    l.withoutReturns.breaksLine = l.breaksLine := by
  rw [breaksLine, breaksLine, chars_withoutReturns, h.any_isLineBreak]
  rfl

theorem text?_withoutReturns (h : PairsReturns l.chars) :
    (l.withoutReturns.text? == some ";") = (l.text? == some ";") := by
  have htext : Semicolons.withoutReturns l.text = ";" ↔ l.text = ";" := by
    rw [← String.toList_inj, ← String.toList_inj, toList_withoutReturns]
    exact h.dropReturns_eq_iff (by decide) (by decide)
  have hend : l.withoutReturns.isEnd = l.isEnd := rfl
  rw [Bool.eq_iff_iff, beq_iff_eq, beq_iff_eq, text?, text?, hend]
  cases l.isEnd with
  | true => rfl
  | false => simpa [withoutReturns] using htext

theorem breakBehind_withoutReturns (h : ∀ l ∈ ls, PairsReturns l.chars) :
    breakBehind (ls.map withoutReturns) = breakBehind ls := by
  cases ls with
  | nil => rfl
  | cons l ls =>
    obtain ⟨hl, hls⟩ := List.forall_mem_cons.mp h
    have hkind : l.withoutReturns.kind = l.kind := rfl
    rw [List.map_cons, breakBehind, breakBehind, hkind, breaksLine_withoutReturns hl]
    cases ls with
    | nil => rfl
    | cons b ls =>
      rw [List.map_cons, List.head?_cons, List.head?_cons, Option.any_some, Option.any_some,
        breaksLine_withoutReturns (hls b List.mem_cons_self)]

/-- Carriage returns do not decide about a semicolon. -/
theorem wantsSemicolon_withoutReturns {rest : List Lexeme} (h : ∀ l ∈ rest, PairsReturns l.chars) :
    l.withoutReturns.wantsSemicolon (rest.map withoutReturns) = l.wantsSemicolon rest := by
  have hfind : (rest.map withoutReturns).find? (!·.isLayout) =
      (rest.find? (!·.isLayout)).map withoutReturns := by
    rw [List.find?_map]
    rfl
  have hgap : ((rest.map withoutReturns).takeWhile (·.isLayout)).reverse =
      (rest.takeWhile (·.isLayout)).reverse.map withoutReturns := by
    rw [List.takeWhile_map, List.map_reverse]
    rfl
  have hbreak : breakBehind ((rest.takeWhile (·.isLayout)).reverse.map withoutReturns) =
      breakBehind (rest.takeWhile (·.isLayout)).reverse := by
    apply breakBehind_withoutReturns
    intro g hg
    exact h g ((List.takeWhile_sublist _).subset (List.mem_reverse.mp hg))
  rw [wantsSemicolon, wantsSemicolon, hfind, hgap, hbreak]
  cases hn : rest.find? (!·.isLayout) with
  | none => rfl
  | some n =>
    have hpairs := h n (List.mem_of_find?_eq_some hn)
    rw [Option.map_some, Option.any_some, Option.any_some, text?_withoutReturns hpairs]
    rfl

end Lexeme

/-- The end of the input holds no carriage return. -/
theorem pairsReturns_of_mem_endOfInput {ls : List Lexeme} (h : ∀ l ∈ ls, PairsReturns l.chars) :
    ∀ l ∈ ls ++ [Lexeme.endOfInput], PairsReturns l.chars := by
  intro l hl
  rcases List.mem_append.mp hl with hl | hl
  · exact h l hl
  · rw [List.mem_singleton.mp hl]
    trivial

theorem decisions_withoutReturns {ls : List Lexeme} (h : ∀ l ∈ ls, PairsReturns l.chars) :
    decisions (ls.map Lexeme.withoutReturns) =
      (decisions ls).map fun x => (x.1.withoutReturns, x.2) := by
  induction ls with
  | nil => rfl
  | cons l ls ih =>
    obtain ⟨-, hls⟩ := List.forall_mem_cons.mp h
    have hwants := Lexeme.wantsSemicolon_withoutReturns (l := l) (pairsReturns_of_mem_endOfInput hls)
    rw [List.map_append, List.map_singleton, Lexeme.withoutReturns_endOfInput] at hwants
    rw [List.map_cons, decisions, hwants, ih hls, decisions, List.map_cons]

theorem punctuated_withoutReturns (choice : List (Lexeme × Bool)) :
    punctuated (choice.map fun x => (x.1.withoutReturns, x.2)) =
      (punctuated choice).map Lexeme.withoutReturns := by
  induction choice with
  | nil => rfl
  | cons x rest ih =>
    obtain ⟨l, written⟩ := x
    cases written <;> simp [punctuated, ih]

theorem flatMap_chars_withoutReturns (ls : List Lexeme) :
    (ls.map Lexeme.withoutReturns).flatMap Lexeme.chars = dropReturns (ls.flatMap Lexeme.chars) := by
  induction ls with
  | nil => rfl
  | cons l ls ih =>
    rw [List.map_cons, List.flatMap_cons, ih, List.flatMap_cons, dropReturns_append,
      Lexeme.chars_withoutReturns]

section Source

variable {source : String}

theorem lexemes_withoutReturns (h : PairsReturns source.toList) :
    lexemes (withoutReturns source) = (lexemes source).map Lexeme.withoutReturns := by
  have hcut := (cuts_lexemes source).withoutReturns h
  rw [lexemes, toList_withoutReturns, ← cuts_iff.mp hcut]

theorem decisions_lexemes_withoutReturns (h : PairsReturns source.toList) :
    decisions (lexemes (withoutReturns source)) =
      (decisions (lexemes source)).map fun x => (x.1.withoutReturns, x.2) := by
  rw [lexemes_withoutReturns h]
  exact decisions_withoutReturns fun l hl => (cuts_lexemes source).pairsReturns_chars h hl

/-- Semicolons are written at the same places of a text with and without its carriage returns. -/
theorem withSemicolons_withoutReturns (h : PairsReturns source.toList) :
    withSemicolons (tokens (withoutReturns source)) =
      withoutReturns (withSemicolons (tokens source)) := by
  rw [← String.toList_inj, toList_withoutReturns, toList_withSemicolons_tokens,
    toList_withSemicolons_tokens, decisions_lexemes_withoutReturns h, punctuated_withoutReturns,
    flatMap_chars_withoutReturns]

theorem semicolonCount_withoutReturns (h : PairsReturns source.toList) :
    semicolonCount (tokens (withoutReturns source)) = semicolonCount (tokens source) := by
  rw [semicolonCount_tokens, semicolonCount_tokens, decisions_lexemes_withoutReturns h,
    List.countP_map]
  rfl

end Source

end Semicolons
