import Mathlib.Data.List.Chain
import Semicolons.Proofs.Token.Layout

/-!
# Tokens tile their text

Every byte of a text belongs to exactly one token. The tokens stand in the order of their indices,
each one begins where the one before it ends, and each holds the bytes of its span, which does not
cut a character (`tiles_tokens`). So nothing is lost when a text is cut, and writing the tokens one
after the other gives the text back.
-/

namespace Semicolons

theorem index_of_getElem?_inPlace {index offset i : Nat} {ls : List Lexeme} {t : Token}
    (h : (inPlace index offset ls)[i]? = some t) : t.index = index + i := by
  induction ls generalizing index offset i with
  | nil => cases h
  | cons l ls ih =>
    rw [inPlace_cons] at h
    cases i with
    | zero =>
      cases h
      rfl
    | succ i =>
      rw [List.getElem?_cons_succ] at h
      have hindex := ih h
      omega

/-- The first token begins where the laying out does. -/
theorem head?_start_inPlace (index offset : Nat) (l : Lexeme) (ls : List Lexeme) :
    (inPlace index offset (l :: ls)).head?.map (·.span.start) = some offset := by
  rw [inPlace_cons]
  rfl

/-- Each token begins where the one before it ends. -/
theorem isChain_inPlace (index offset : Nat) (ls : List Lexeme) :
    (inPlace index offset ls).IsChain fun a b => b.span.start = a.span.stop := by
  induction ls generalizing index offset with
  | nil => exact .nil
  | cons l ls ih =>
    rw [inPlace_cons, List.isChain_cons]
    refine ⟨?_, ih _ _⟩
    intro t ht
    cases ls with
    | nil => cases ht
    | cons l' ls =>
      have hstart := head?_start_inPlace (index + 1) (offset + byteLength l.chars) l' ls
      rw [ht] at hstart
      exact Option.some.inj hstart

theorem inPlace_append (index offset : Nat) (ls ls' : List Lexeme) :
    inPlace index offset (ls ++ ls') = inPlace index offset ls ++
      inPlace (index + ls.length) (offset + byteLength (ls.flatMap Lexeme.chars)) ls' := by
  induction ls generalizing index offset with
  | nil => rfl
  | cons l ls ih =>
    have hindex : index + 1 + ls.length = index + (l :: ls).length := by
      rw [List.length_cons]
      omega
    rw [List.cons_append, inPlace_cons, inPlace_cons, ih, hindex, List.flatMap_cons,
      byteLength_append, Nat.add_assoc offset, List.cons_append]

/-- Tokens that cover a text without a gap and without an overlap, with one of no bytes at its
    end. -/
structure Tiles (source : String) (stream : List Token) : Prop where
  index : ∀ (i : Nat) (t : Token), stream[i]? = some t → t.index = i
  first : stream.head?.map (·.span.start) = some 0
  adjoin : stream.IsChain fun a b => b.span.start = a.span.stop
  /-- No span begins or ends inside a character. -/
  boundary : ∀ t ∈ stream, (⟨t.span.start⟩ : String.Pos.Raw).IsValid source ∧
    (⟨t.span.stop⟩ : String.Pos.Raw).IsValid source
  slice : ∀ t ∈ stream,
    t.text.toByteArray = source.toByteArray.extract t.span.start t.span.stop
  last : ∃ before e, stream = before ++ [e] ∧
    e.kind = .endOfInput ∧ e.span = ⟨source.utf8ByteSize, source.utf8ByteSize⟩ ∧
    ∀ t ∈ before, t.kind ≠ .endOfInput ∧ t.text ≠ ""
  joined : String.join (stream.map (·.text)) = source
  hidden : ∀ t ∈ stream, t.channel = .hidden ↔
    t.kind = .blanks ∨ t.kind = .lineBreaks ∨ t.kind = .blockComment ∨ t.kind = .lineComment

section Source

variable {source : String} {t : Token}

/-- A token stands in its text, behind as many bytes as its span says. -/
theorem exists_split_of_mem_tokens (ht : t ∈ tokens source) :
    ∃ before after, source.toList = before ++ (t.chars ++ after) ∧
      byteLength before = t.span.start := by
  obtain ⟨before, after, hlexemes, hstart⟩ := exists_lexemes_of_mem_tokens ht
  exact ⟨_, _, toList_eq_of_split hlexemes, hstart.symm⟩

/-- The same, in texts instead of characters. -/
theorem exists_texts_of_mem_tokens (ht : t ∈ tokens source) :
    ∃ before after : String, source = before ++ (t.text ++ after) ∧
      before.utf8ByteSize = t.span.start ∧ (before ++ t.text).utf8ByteSize = t.span.stop := by
  obtain ⟨before, after, hsplit, hstart⟩ := exists_split_of_mem_tokens ht
  obtain ⟨-, -, hstop⟩ := bounds_of_mem_inPlace ht
  refine ⟨String.ofList before, String.ofList after, ?_, ?_, ?_⟩
  · apply String.toList_inj.mp
    rw [hsplit]
    simp [Lexeme.chars]
  · rw [utf8ByteSize_ofList, hstart]
  · rw [String.utf8ByteSize_append, utf8ByteSize_ofList, hstart, Lexeme.utf8ByteSize_text, hstop]

theorem isValid_span (ht : t ∈ tokens source) :
    (⟨t.span.start⟩ : String.Pos.Raw).IsValid source ∧
      (⟨t.span.stop⟩ : String.Pos.Raw).IsValid source := by
  obtain ⟨before, after, hsource, hstart, hstop⟩ := exists_texts_of_mem_tokens ht
  constructor
  · apply String.Pos.Raw.isValid_iff_exists_append.mpr
    exact ⟨before, t.text ++ after, hsource, String.Pos.Raw.ext hstart.symm⟩
  · apply String.Pos.Raw.isValid_iff_exists_append.mpr
    refine ⟨before ++ t.text, after, ?_, String.Pos.Raw.ext hstop.symm⟩
    rw [hsource, String.append_assoc]

/-- The bytes of a token are the bytes of its text between the ends of its span. -/
theorem toByteArray_text (ht : t ∈ tokens source) :
    t.text.toByteArray = source.toByteArray.extract t.span.start t.span.stop := by
  obtain ⟨before, after, hsource, hstart, hstop⟩ := exists_texts_of_mem_tokens ht
  have hbytes : source.toByteArray =
      before.toByteArray ++ (t.text.toByteArray ++ after.toByteArray) := by
    rw [hsource, String.toByteArray_append, String.toByteArray_append]
  rw [String.utf8ByteSize_append] at hstop
  calc
    t.text.toByteArray = (t.text.toByteArray ++ after.toByteArray).extract 0 t.text.utf8ByteSize :=
      (ByteArray.extract_append_eq_left rfl).symm
    _ = (before.toByteArray ++ (t.text.toByteArray ++ after.toByteArray)).extract
          (before.toByteArray.size + 0) (before.toByteArray.size + t.text.utf8ByteSize) := by
      rw [ByteArray.extract_append_size_add]
    _ = source.toByteArray.extract t.span.start t.span.stop := by
      rw [hbytes, ← hstart, ← hstop]
      rfl

/-- The tokens of a text, written one after the other, are the text. -/
theorem join_text_tokens (source : String) :
    String.join ((tokens source).map (·.text)) = source := by
  apply String.toList_inj.mp
  have htexts : (tokens source).map (·.text) =
      (lexemes source ++ [Lexeme.endOfInput]).map Lexeme.text := by
    rw [← map_toLexeme_tokens, List.map_map]
    rfl
  rw [String.toList_join, htexts, List.flatMap_map]
  exact flatMap_chars_lexemes_endOfInput source

/-- The last token is empty and stands behind all bytes, and it is the only one of its kind and the
    only one without characters. -/
theorem exists_last_tokens (source : String) :
    ∃ before e, tokens source = before ++ [e] ∧
      e.kind = .endOfInput ∧ e.span = ⟨source.utf8ByteSize, source.utf8ByteSize⟩ ∧
      ∀ t ∈ before, t.kind ≠ .endOfInput ∧ t.text ≠ "" := by
  have hsize : 0 + byteLength ((lexemes source).flatMap Lexeme.chars) = source.utf8ByteSize := by
    rw [flatMap_chars_lexemes, byteLength_toList, Nat.zero_add]
  refine ⟨inPlace 0 0 (lexemes source),
    ⟨.endOfInput, .visible, 0 + (lexemes source).length,
      ⟨source.utf8ByteSize, source.utf8ByteSize⟩⟩,
    ?_, rfl, rfl, ?_⟩
  · rw [tokens_eq_inPlace, inPlace_append, hsize, inPlace_cons, inPlace_nil]
    rfl
  · intro t ht
    have hmem : t.toLexeme ∈ lexemes source := by
      rw [← map_toLexeme_inPlace 0 0 (lexemes source)]
      exact List.mem_map_of_mem ht
    refine ⟨(cuts_lexemes source).kind_ne_endOfInput hmem, ?_⟩
    intro hempty
    apply (cuts_lexemes source).chars_ne_nil hmem
    rw [Lexeme.chars, hempty]
    rfl

/-- Each token of a text begins behind those in front of it. -/
theorem pairwise_start_tokens (source : String) :
    (tokens source).Pairwise fun t t' => t.span.start < t'.span.start := by
  obtain ⟨before, e, htokens, -, -, hbefore⟩ := exists_last_tokens source
  have hpairs : (tokens source).Pairwise fun t t' => t.span.stop ≤ t'.span.start :=
    (pairwise_inPlace 0 0 _).imp And.right
  have hlt : ∀ t ∈ before, t.span.start < t.span.stop := by
    intro t ht
    have hmem : t ∈ tokens source := by simp [htokens, ht]
    apply span_lt_of_mem_tokens hmem
    intro hend
    exact (hbefore t ht).1 (congrArg Lexeme.kind hend)
  rw [htokens, List.pairwise_append] at hpairs ⊢
  obtain ⟨hbetween, -, hlast⟩ := hpairs
  refine ⟨hbetween.imp_of_mem ?_, List.pairwise_singleton _ _, ?_⟩
  · intro t t' ht _ hle
    exact Nat.lt_of_lt_of_le (hlt t ht) hle
  · intro t ht t' ht'
    exact Nat.lt_of_lt_of_le (hlt t ht) (hlast t ht t' ht')

end Source

theorem Kind.channel_eq_hidden_iff {k : Kind} : k.channel = .hidden ↔
    k = .blanks ∨ k = .lineBreaks ∨ k = .blockComment ∨ k = .lineComment := by
  cases k <;> simp [channel]

/-- Cutting a text gives tokens that tile it. -/
theorem tiles_tokens (source : String) : Tiles source (tokens source) := by
  constructor
  case index =>
    intro i t h
    rw [index_of_getElem?_inPlace h, Nat.zero_add]
  case first =>
    cases hls : lexemes source with
    | nil => rw [tokens_eq_inPlace, hls, List.nil_append, head?_start_inPlace]
    | cons l ls => rw [tokens_eq_inPlace, hls, List.cons_append, head?_start_inPlace]
  case adjoin => exact isChain_inPlace 0 0 _
  case boundary => exact fun t ht => isValid_span ht
  case slice => exact fun t ht => toByteArray_text ht
  case last => exact exists_last_tokens source
  case joined => exact join_text_tokens source
  case hidden =>
    intro t ht
    rw [channel_of_mem_tokens ht, Kind.channel_eq_hidden_iff]

example : (tokens "é/*\n").map Token.span = [⟨0, 2⟩, ⟨2, 5⟩, ⟨5, 5⟩] := by
  decide

end Semicolons
