import Semicolons.Proofs.Lexeme.Cut
import Semicolons.Token

/-!
# Tokens in their places

What `layOut` does to the lexemes of a text: nothing but to put each one behind the one before it.
Indices and spans grow along the stream (`pairwise_inPlace`), so that no two tokens of a text are
equal (`nodup_tokens`), and none but the last one is empty (`span_lt_of_mem_tokens`).
-/

namespace Semicolons

/-- The number of bytes that characters take. -/
def byteLength : List Char → Nat
  | [] => 0
  | c :: text => c.utf8Size + byteLength text

@[simp] theorem byteLength_nil : byteLength [] = 0 :=
  rfl

@[simp] theorem byteLength_cons (c : Char) (text : List Char) :
    byteLength (c :: text) = c.utf8Size + byteLength text :=
  rfl

@[simp] theorem byteLength_append (a b : List Char) :
    byteLength (a ++ b) = byteLength a + byteLength b := by
  induction a with
  | nil => simp
  | cons c a ih => rw [List.cons_append, byteLength_cons, byteLength_cons, ih, Nat.add_assoc]

theorem utf8ByteSize_ofList (text : List Char) :
    (String.ofList text).utf8ByteSize = byteLength text := by
  induction text with
  | nil => rfl
  | cons c text ih =>
    rw [← List.singleton_append, String.ofList_append, String.utf8ByteSize_append,
      ← String.singleton_eq_ofList, String.utf8ByteSize_singleton, ih, List.singleton_append,
      byteLength_cons]

theorem byteLength_toList (s : String) : byteLength s.toList = s.utf8ByteSize := by
  rw [← utf8ByteSize_ofList, String.ofList_toList]

theorem byteLength_pos {text : List Char} (h : text ≠ []) : 0 < byteLength text := by
  cases text with
  | nil => exact absurd rfl h
  | cons c text =>
    have hc := c.utf8Size_pos
    rw [byteLength_cons]
    omega

namespace Lexeme

/-- The number of bytes of a lexeme. -/
theorem utf8ByteSize_text (l : Lexeme) : l.text.utf8ByteSize = byteLength l.chars := by
  rw [chars, byteLength_toList]

end Lexeme

/-- Lexemes in their places, each on the channel of its kind. -/
def inPlace (index offset : Nat) (ls : List Lexeme) : List Token :=
  layOut index offset (ls.map fun l => (l, l.kind.channel))

theorem tokens_eq_inPlace (source : String) :
    tokens source = inPlace 0 0 (lexemes source ++ [Lexeme.endOfInput]) :=
  rfl

@[simp] theorem inPlace_nil (index offset : Nat) : inPlace index offset [] = [] :=
  rfl

theorem inPlace_cons (index offset : Nat) (l : Lexeme) (ls : List Lexeme) :
    inPlace index offset (l :: ls) =
      ⟨l, l.kind.channel, index, ⟨offset, offset + byteLength l.chars⟩⟩ ::
        inPlace (index + 1) (offset + byteLength l.chars) ls := by
  rw [← l.utf8ByteSize_text]
  rfl

@[simp] theorem map_toLexeme_inPlace (index offset : Nat) (ls : List Lexeme) :
    (inPlace index offset ls).map Token.toLexeme = ls := by
  induction ls generalizing index offset with
  | nil => rfl
  | cons l ls ih => rw [inPlace_cons, List.map_cons, ih]

theorem length_inPlace (index offset : Nat) (ls : List Lexeme) :
    (inPlace index offset ls).length = ls.length := by
  have hlexemes := congrArg List.length (map_toLexeme_inPlace index offset ls)
  rwa [List.length_map] at hlexemes

theorem channel_of_mem_inPlace {index offset : Nat} {ls : List Lexeme} {t : Token}
    (h : t ∈ inPlace index offset ls) : t.channel = t.kind.channel := by
  induction ls generalizing index offset with
  | nil => cases h
  | cons l ls ih =>
    rw [inPlace_cons] at h
    rcases List.mem_cons.mp h with rfl | h
    · rfl
    · exact ih h

/-- Every token begins at or behind the place where the laying out begins, and ends as many bytes
    later as it has. -/
theorem bounds_of_mem_inPlace {index offset : Nat} {ls : List Lexeme} {t : Token}
    (h : t ∈ inPlace index offset ls) :
    index ≤ t.index ∧ offset ≤ t.span.start ∧ t.span.stop = t.span.start + byteLength t.chars := by
  induction ls generalizing index offset with
  | nil => cases h
  | cons l ls ih =>
    rw [inPlace_cons] at h
    rcases List.mem_cons.mp h with rfl | h
    · exact ⟨Nat.le_refl _, Nat.le_refl _, rfl⟩
    · obtain ⟨hindex, hstart, hstop⟩ := ih h
      exact ⟨by omega, by omega, hstop⟩

/-- A token is one of the lexemes laid out, and begins behind the bytes of those in front of it. -/
theorem exists_lexemes_of_mem_inPlace {index offset : Nat} {ls : List Lexeme} {t : Token}
    (h : t ∈ inPlace index offset ls) :
    ∃ before after, ls = before ++ t.toLexeme :: after ∧
      t.span.start = offset + byteLength (before.flatMap Lexeme.chars) := by
  induction ls generalizing index offset with
  | nil => cases h
  | cons l ls ih =>
    rw [inPlace_cons] at h
    rcases List.mem_cons.mp h with rfl | h
    · exact ⟨[], ls, rfl, rfl⟩
    · obtain ⟨before, after, rfl, hstart⟩ := ih h
      refine ⟨l :: before, after, rfl, ?_⟩
      rw [hstart, List.flatMap_cons, byteLength_append, Nat.add_assoc]

/-- Tokens come one behind the other, by their indices and by their spans. -/
theorem pairwise_inPlace (index offset : Nat) (ls : List Lexeme) :
    (inPlace index offset ls).Pairwise fun t t' =>
      t.index < t'.index ∧ t.span.stop ≤ t'.span.start := by
  induction ls generalizing index offset with
  | nil => exact List.Pairwise.nil
  | cons l ls ih =>
    rw [inPlace_cons, List.pairwise_cons]
    refine ⟨?_, ih _ _⟩
    intro t ht
    obtain ⟨hindex, hstart, -⟩ := bounds_of_mem_inPlace ht
    exact ⟨hindex, hstart⟩

theorem nodup_inPlace (index offset : Nat) (ls : List Lexeme) :
    (inPlace index offset ls).Nodup := by
  refine (pairwise_inPlace index offset ls).imp ?_
  rintro t t' ⟨hindex, -⟩ rfl
  exact Nat.lt_irrefl _ hindex

section Source

variable {source : String}

@[simp] theorem map_toLexeme_tokens (source : String) :
    (tokens source).map Token.toLexeme = lexemes source ++ [Lexeme.endOfInput] :=
  map_toLexeme_inPlace 0 0 _

theorem channel_of_mem_tokens {t : Token} (h : t ∈ tokens source) : t.channel = t.kind.channel :=
  channel_of_mem_inPlace h

/-- No token occurs twice in a text. -/
theorem nodup_tokens (source : String) : (tokens source).Nodup :=
  nodup_inPlace 0 0 _

/-- The lexemes of a source text are the ones it falls into. -/
theorem cuts_lexemes (source : String) : Cuts source.toList (lexemes source) :=
  cuts_lexemesOfChars source.toList

theorem flatMap_chars_lexemes_endOfInput (source : String) :
    (lexemes source ++ [Lexeme.endOfInput]).flatMap Lexeme.chars = source.toList := by
  rw [Lexeme.flatMap_chars_append_endOfInput, flatMap_chars_lexemes]

/-- The text around a lexeme is that of the lexemes around it. -/
theorem toList_eq_of_split {before after : List Lexeme} {l : Lexeme}
    (h : lexemes source ++ [Lexeme.endOfInput] = before ++ l :: after) :
    source.toList =
      before.flatMap Lexeme.chars ++ (l.chars ++ after.flatMap Lexeme.chars) := by
  rw [← flatMap_chars_lexemes_endOfInput, h, List.flatMap_append, List.flatMap_cons]

/-- A token begins behind the bytes of the lexemes in front of it. -/
theorem exists_lexemes_of_mem_tokens {t : Token} (h : t ∈ tokens source) :
    ∃ before after, lexemes source ++ [Lexeme.endOfInput] = before ++ t.toLexeme :: after ∧
      t.span.start = byteLength (before.flatMap Lexeme.chars) := by
  obtain ⟨before, after, hsplit, hstart⟩ := exists_lexemes_of_mem_inPlace h
  rw [Nat.zero_add] at hstart
  exact ⟨before, after, hsplit, hstart⟩

/-- Every token but the last one is a lexeme of the text. -/
theorem mem_lexemes_of_mem_tokens {t : Token} (h : t ∈ tokens source)
    (hend : t.toLexeme ≠ Lexeme.endOfInput) : t.toLexeme ∈ lexemes source := by
  have hmem : t.toLexeme ∈ lexemes source ++ [Lexeme.endOfInput] := by
    rw [← map_toLexeme_tokens]
    exact List.mem_map_of_mem h
  rcases List.mem_append.mp hmem with hmem | hmem
  · exact hmem
  · exact absurd (List.mem_singleton.mp hmem) hend

/-- Every token but the last one covers a byte. -/
theorem span_lt_of_mem_tokens {t : Token} (h : t ∈ tokens source)
    (hend : t.toLexeme ≠ Lexeme.endOfInput) : t.span.start < t.span.stop := by
  obtain ⟨-, -, hstop⟩ := bounds_of_mem_inPlace h
  have hchars := (cuts_lexemes source).chars_ne_nil (mem_lexemes_of_mem_tokens h hend)
  have hpos := byteLength_pos hchars
  omega

/-- Two tokens that cover bytes and begin at one place are one token. -/
theorem eq_of_start_eq {t t' : Token} (h : t ∈ tokens source) (h' : t' ∈ tokens source)
    (hstart : t.span.start = t'.span.start) (hlt : t.span.start < t.span.stop)
    (hlt' : t'.span.start < t'.span.stop) : t = t' := by
  have hpair : (tokens source).Pairwise fun a b => a.span.stop ≤ b.span.start :=
    (pairwise_inPlace 0 0 _).imp And.right
  refine List.Pairwise.forall_of_forall_of_flip
    (R := fun a b => a.span.start = b.span.start → a.span.start < a.span.stop →
      b.span.start < b.span.stop → a = b)
    (fun _ _ _ _ _ => rfl) (hpair.imp ?_) (hpair.imp ?_) h h' hstart hlt hlt'
  · intro a b hle heq ha hb
    omega
  · intro a b hle heq ha hb
    omega

/-- Two tokens that cover the same bytes, and some, are one token. -/
theorem eq_of_span_eq {t t' : Token} (h : t ∈ tokens source) (h' : t' ∈ tokens source)
    (hspan : t.span = t'.span) (hlt : t.span.start < t.span.stop) : t = t' :=
  eq_of_start_eq h h' (congrArg Span.start hspan) hlt (hspan ▸ hlt)

/-- Tokens that cover bytes come in the order of their indices. -/
theorem start_le_iff_index_le {t t' : Token} (h : t ∈ tokens source) (h' : t' ∈ tokens source)
    (hlt : t.span.start < t.span.stop) (hlt' : t'.span.start < t'.span.stop) :
    t.span.start ≤ t'.span.start ↔ t.index ≤ t'.index := by
  have hpair := pairwise_inPlace 0 0 (lexemes source ++ [Lexeme.endOfInput])
  refine List.Pairwise.forall_of_forall_of_flip
    (R := fun a b => a.span.start < a.span.stop → b.span.start < b.span.stop →
      (a.span.start ≤ b.span.start ↔ a.index ≤ b.index))
    (fun _ _ _ _ => iff_of_true (Nat.le_refl _) (Nat.le_refl _)) (hpair.imp ?_) (hpair.imp ?_) h h'
    hlt hlt'
  · rintro a b ⟨hindex, hplace⟩ ha hb
    omega
  · rintro a b ⟨hindex, hplace⟩ ha hb
    omega

end Source

end Semicolons
