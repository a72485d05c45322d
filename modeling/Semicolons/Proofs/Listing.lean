import Mathlib.Logic.Function.Basic
import Semicolons.Listing
import Semicolons.Proofs.Text.Quoted
import Semicolons.Proofs.Token.Tiling

/-!
# What a listing tells

A line of a listing ends with the quotation of its token's text, and nothing in front of the
quotation can be taken for its mark (`exists_front`). The line holds no line break, so that a
listing falls into its lines in one way (`eq_of_lines_eq`), and the lines tell the texts of all
tokens. These texts are all there is in a source text, which its listing therefore tells
(`listing_tokens_eq_iff`).
-/

namespace Semicolons

/-- A character that can stand in front of the quotation in a line. -/
def isPlain (c : Char) : Bool :=
  c ≠ '"' && c ≠ '\r' && c ≠ '\n'

section Names

theorem Keyword.isPlain_name (word : Keyword) : word.name.toList.all isPlain = true := by
  cases word <;> rfl

theorem Punctuation.isPlain_name (mark : Punctuation) : mark.name.toList.all isPlain = true := by
  cases mark <;> rfl

theorem Kind.isPlain_name (k : Kind) : k.name.toList.all isPlain = true := by
  cases k with
  | keyword word =>
    have hword := word.isPlain_name
    simp only [name, String.toList_append, List.all_append, hword]
    rfl
  | punctuation mark =>
    have hmark := mark.isPlain_name
    simp only [name, String.toList_append, List.all_append, hmark]
    rfl
  | _ => rfl

end Names

section Columns

variable {text : String}

theorem isPlain_blanks (n : Nat) : (List.replicate n ' ').all isPlain = true := by
  rw [List.all_replicate]
  split <;> rfl

theorem isPlain_alignRight (width : Nat) (h : text.toList.all isPlain = true) :
    (alignRight width text).toList.all isPlain = true := by
  simp only [alignRight, String.toList_append, String.toList_ofList, List.all_append,
    isPlain_blanks, h, Bool.and_self]

theorem isPlain_alignLeft (width : Nat) (h : text.toList.all isPlain = true) :
    (alignLeft width text).toList.all isPlain = true := by
  simp only [alignLeft, String.toList_append, String.toList_ofList, List.all_append,
    isPlain_blanks, h, Bool.and_self]

theorem isPlain_toString (n : Nat) : (toString n).toList.all isPlain = true := by
  rw [Nat.toString_eq_ofList_toDigits, String.toList_ofList, List.all_eq_true]
  intro c hc
  obtain ⟨digit, rfl⟩ := Text.exists_digitChar_of_mem (by decide) hc
  have hquote : digit.digitChar ≠ '"' := Nat.digitChar_ne '"' rfl
  have hreturn : digit.digitChar ≠ '\r' := Nat.digitChar_ne '\r' rfl
  have hfeed : digit.digitChar ≠ '\n' := Nat.digitChar_ne '\n' rfl
  simp [isPlain, hquote, hreturn, hfeed]

end Columns

namespace Token

variable {t t' : Token}

/-- A line ends with the quotation of its token's text. -/
theorem exists_front (t : Token) :
    ∃ front, t.line.toList = front ++ Text.quotation '"' (t.text?.getD "").toList ∧
      ∀ c ∈ front, isPlain c = true := by
  refine ⟨(alignRight 4 (toString t.index) ++ " " ++
    alignLeft 6 (if t.isHidden then "hidden" else "") ++ " " ++ t.kind.name ++ " ").toList, ?_, ?_⟩
  · simp only [line, Text.quotedString, String.toList_append, String.toList_ofList]
  · have hblank : (" " : String).toList.all isPlain = true := by decide
    have hchannel : (if t.isHidden then "hidden" else "").toList.all isPlain = true := by
      split <;> decide
    rw [← List.all_eq_true]
    simp only [String.toList_append, List.all_append, isPlain_alignRight 4 (isPlain_toString t.index),
      isPlain_alignLeft 6 hchannel, t.kind.isPlain_name, hblank, Bool.and_self]

/-- A line of a listing is one line. -/
theorem not_lineBreak_of_mem_line {x : Char} (hx : x ∈ t.line.toList) : x ≠ '\r' ∧ x ≠ '\n' := by
  obtain ⟨front, hline, hfront⟩ := exists_front t
  rw [hline] at hx
  rcases List.mem_append.mp hx with hx | hx
  · have hplain := hfront x hx
    simp only [isPlain, Bool.and_eq_true, decide_eq_true_eq] at hplain
    exact ⟨hplain.1.2, hplain.2⟩
  · exact Text.not_lineBreak_of_mem_quotation (Or.inl rfl) hx

/-- A line tells the text of its token. -/
theorem text_eq_of_line_eq (h : t.line = t'.line) : t.text?.getD "" = t'.text?.getD "" := by
  obtain ⟨front, hline, hfront⟩ := exists_front t
  obtain ⟨front', hline', hfront'⟩ := exists_front t'
  rw [← String.toList_inj, hline, hline'] at h
  have hquote : ∀ f : List Char, (∀ c ∈ f, isPlain c = true) → '"' ∉ f := by
    intro f hf hmem
    exact absurd (hf '"' hmem) (by decide)
  -- The mark that begins the quotation is the first one in the line.
  obtain ⟨-, hbehind⟩ := Text.eq_of_append_cons_eq (hquote front hfront) (hquote front' hfront') h
  have hquotation := congrArg ('"' :: ·) hbehind
  obtain ⟨htext, -⟩ := Text.prefixFree_quotation (Or.inl rfl) _ _ [] []
    (congrArg (· ++ []) hquotation)
  exact String.toList_inj.mp htext

end Token

/-- A text falls in one way into lines with a line feed at the end of each. -/
theorem eq_of_lines_eq {ls ls' : List (List Char)} (h : ∀ l ∈ ls, '\n' ∉ l)
    (h' : ∀ l ∈ ls', '\n' ∉ l)
    (heq : ls.flatMap (· ++ ['\n']) = ls'.flatMap (· ++ ['\n'])) : ls = ls' := by
  induction ls generalizing ls' with
  | nil =>
    cases ls' with
    | nil => rfl
    | cons l' ls' => simp at heq
  | cons l ls ih =>
    cases ls' with
    | nil => simp at heq
    | cons l' ls' =>
      obtain ⟨hl, hls⟩ := List.forall_mem_cons.mp h
      obtain ⟨hl', hls'⟩ := List.forall_mem_cons.mp h'
      rw [List.flatMap_cons, List.flatMap_cons, List.append_assoc, List.append_assoc] at heq
      obtain ⟨rfl, hrest⟩ := Text.eq_of_append_cons_eq hl hl' heq
      rw [ih hls hls' hrest]

theorem toList_listing (stream : List Token) :
    (listing stream).toList = (stream.map (·.line.toList)).flatMap (· ++ ['\n']) := by
  rw [listing, String.toList_join, List.flatMap_map, List.flatMap_map]
  simp only [String.toList_append]
  rfl

/-- A listing tells the texts of its tokens. -/
theorem map_text_of_listing_eq {stream stream' : List Token} (h : listing stream = listing stream') :
    stream.map (·.text?.getD "") = stream'.map (·.text?.getD "") := by
  have hnone : ∀ stream : List Token, ∀ l ∈ stream.map (·.line.toList), '\n' ∉ l := by
    intro stream l hl hmem
    obtain ⟨t, -, rfl⟩ := List.mem_map.mp hl
    exact (Token.not_lineBreak_of_mem_line hmem).2 rfl
  have hlines : stream.map (·.line.toList) = stream'.map (·.line.toList) := by
    apply eq_of_lines_eq (hnone stream) (hnone stream')
    rw [← toList_listing, ← toList_listing, h]
  have hfactor : Function.FactorsThrough (fun t : Token => t.text?.getD "") (·.line.toList) :=
    fun _ _ hline => Token.text_eq_of_line_eq (String.toList_inj.mp hline)
  rw [← hfactor.extend_comp fun _ => "", ← List.map_map, ← List.map_map, hlines]

/-- The end of the input is listed as the empty text that it is. -/
theorem text?_of_mem_tokens {source : String} {t : Token} (ht : t ∈ tokens source) :
    t.text?.getD "" = t.text := by
  by_cases hend : t.toLexeme = .endOfInput
  · rw [hend]
    rfl
  · have hkind := (cuts_lexemes source).kind_ne_endOfInput (mem_lexemes_of_mem_tokens ht hend)
    simp [Lexeme.text?, Lexeme.isEnd, hkind]

/-- A listing tells the text whose tokens it shows, and holds a line for each token with no line
    break in it. -/
theorem listing_tokens_eq_iff (source source' : String) :
    (listing (tokens source) = listing (tokens source') ↔ source = source') ∧
      ∀ t ∈ tokens source, '\r' ∉ t.line.toList ∧ '\n' ∉ t.line.toList := by
  refine ⟨⟨?_, ?_⟩, ?_⟩
  · intro h
    have htexts : ∀ s, (tokens s).map (·.text?.getD "") = (tokens s).map (·.text) :=
      fun s => List.map_congr_left fun t ht => text?_of_mem_tokens ht
    have hsame := map_text_of_listing_eq h
    rw [htexts, htexts] at hsame
    rw [← join_text_tokens source, hsame, join_text_tokens]
  · rintro rfl
    rfl
  · intro t _
    exact ⟨fun h => (Token.not_lineBreak_of_mem_line h).1 rfl,
      fun h => (Token.not_lineBreak_of_mem_line h).2 rfl⟩

/-- A line feed in a raw string is not listed like a backslash and a letter there. -/
theorem listing_tokens_line_feed :
    listing (tokens "`\n`") ≠ listing (tokens "`\\n`") ∧
      ∃ t ∈ tokens "`\n`", t.hasLineFeed = true ∧ '\n' ∉ t.line.toList := by
  obtain ⟨hiff, hnone⟩ := listing_tokens_eq_iff "`\n`" "`\\n`"
  have hmem : (⟨⟨.rawString, "`\n`", none⟩, .visible, 0, ⟨0, 3⟩⟩ : Token) ∈ tokens "`\n`" := by
    decide
  refine ⟨?_, _, hmem, by decide, (hnone _ hmem).2⟩
  intro h
  exact absurd (hiff.mp h) (by decide)

end Semicolons
