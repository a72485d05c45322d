import Semicolons.Proofs.Insertion.Relexing
import Semicolons.Proofs.Token.Tiling

/-!
# Cutting from a token on

A text can be cut from any of its tokens on: what begins there is cut into the same tokens, with
their indices and places counted from that token, and the same faults are found in them
(`tokens_restart`). So nothing of what stands in front of a token has a part in how it is cut.
-/

namespace Semicolons

/-- A token that stands `count` tokens and `bytes` bytes further behind. -/
def Token.moved (count bytes : Nat) (t : Token) : Token :=
  { t with index := t.index + count, span := ⟨t.span.start + bytes, t.span.stop + bytes⟩ }

/-- Lexemes that are laid out further behind. -/
theorem map_moved_inPlace (count bytes index offset : Nat) (ls : List Lexeme) :
    (inPlace index offset ls).map (·.moved count bytes) =
      inPlace (index + count) (offset + bytes) ls := by
  induction ls generalizing index offset with
  | nil => rfl
  | cons l ls ih =>
    have hindex : index + 1 + count = index + count + 1 := by omega
    have hoffset : offset + byteLength l.chars + bytes = offset + bytes + byteLength l.chars := by
      omega
    rw [inPlace_cons, inPlace_cons, List.map_cons, ih, hindex, hoffset, Token.moved, hoffset]

theorem map_moved_lexicalDiagnostics (count bytes : Nat) (stream : List Token) :
    (lexicalDiagnostics stream).map (·.moved bytes) =
      lexicalDiagnostics (stream.map (·.moved count bytes)) := by
  induction stream with
  | nil => rfl
  | cons t stream ih =>
    rw [List.map_cons, lexicalDiagnostics_cons, lexicalDiagnostics_cons, List.map_append, ih,
      map_moved_diagnosticsAt]
    rfl

section Source

variable {source : String} {i : Nat} {t : Token}

/-- The tokens of a text are those of the first lexemes, and behind them those of the others. -/
theorem tokens_eq_append {before after : List Lexeme} (h : lexemes source = before ++ after) :
    tokens source = inPlace 0 0 before ++
      (tokens (String.ofList (after.flatMap Lexeme.chars))).map
        (·.moved before.length (byteLength (before.flatMap Lexeme.chars))) := by
  have hcuts : Cuts source.toList (before ++ after) := by
    rw [← h]
    exact cuts_lexemes source
  have hbehind : lexemes (String.ofList (after.flatMap Lexeme.chars)) = after := by
    rw [lexemes, String.toList_ofList]
    exact (cuts_iff.mp hcuts.of_append).symm
  rw [tokens_eq_inPlace, tokens_eq_inPlace, hbehind, h, List.append_assoc, inPlace_append,
    map_moved_inPlace]

/-- The first of the tokens that are moved begins as far behind as they are moved. -/
theorem start_of_moved {front : List Token} {suffix : String} {bytes : Nat}
    (hfront : front.length = i)
    (ht : (front ++ (tokens suffix).map (·.moved i bytes))[i]? = some t) :
    t.span.start = bytes := by
  rw [List.getElem?_append_right (Nat.le_of_eq hfront), hfront, Nat.sub_self,
    ← List.head?_eq_getElem?, List.head?_map, Option.map_eq_some_iff] at ht
  obtain ⟨first, hfirst, rfl⟩ := ht
  have hstart := (tiles_tokens suffix).first
  rw [hfirst, Option.map_some, Option.some.injEq] at hstart
  show first.span.start + bytes = bytes
  rw [hstart, Nat.zero_add]

/-- In front of a token stand as many tokens as its index says, and the text behind them holds the
    others. -/
theorem exists_suffix_of_token (ht : (tokens source)[i]? = some t) :
    ∃ (before suffix : String) (front : List Token), source = before ++ suffix ∧
      before.utf8ByteSize = t.span.start ∧ front.length = i ∧
      tokens source = front ++ (tokens suffix).map (·.moved i t.span.start) := by
  obtain ⟨hlt, -⟩ := List.getElem?_eq_some_iff.mp ht
  rw [tokens_eq_inPlace, length_inPlace, List.length_append, List.length_singleton] at hlt
  have hlength : ((lexemes source).take i).length = i :=
    List.length_take_of_le (Nat.le_of_lt_succ hlt)
  have hfront : (inPlace 0 0 ((lexemes source).take i)).length = i := by
    rw [length_inPlace, hlength]
  have htokens := tokens_eq_append (List.take_append_drop i (lexemes source)).symm
  rw [hlength] at htokens
  rw [htokens] at ht
  have hstart := start_of_moved hfront ht
  refine ⟨String.ofList (((lexemes source).take i).flatMap Lexeme.chars),
    String.ofList (((lexemes source).drop i).flatMap Lexeme.chars), _, ?_, ?_, hfront, ?_⟩
  · apply String.toList_inj.mp
    rw [String.toList_append, String.toList_ofList, String.toList_ofList, ← List.flatMap_append,
      List.take_append_drop, flatMap_chars_lexemes]
  · rw [utf8ByteSize_ofList, hstart]
  · rw [hstart]
    exact htokens

/-- What is found in front of a token begins in front of it. -/
theorem start_lt_of_mem_front {front behind : List Token} {d : Diagnostic}
    (hsplit : tokens source = front ++ behind) (ht : t ∈ behind)
    (hd : d ∈ lexicalDiagnostics front) : d.span.start < t.span.start := by
  obtain ⟨t', ht', f, hf, rfl⟩ := mem_lexicalDiagnostics.mp hd
  have hpairs := pairwise_inPlace 0 0 (lexemes source ++ [Lexeme.endOfInput])
  rw [← tokens_eq_inPlace, hsplit, List.pairwise_append] at hpairs
  have hle := (hpairs.2.2 t' ht' t ht).2
  have hmem : t' ∈ tokens source := hsplit ▸ List.mem_append_left behind ht'
  have hlt := span_lt_of_mem_tokens hmem (Lexeme.ne_endOfInput_of_fault hf)
  exact Nat.lt_of_lt_of_le hlt hle

end Source

/-- From a token on, a text is cut as that part of it is by itself: into the same tokens, counted
    from there, and with the same faults. -/
theorem tokens_restart {source : String} {i : Nat} {t : Token}
    (ht : (tokens source)[i]? = some t) :
    ∃ suffix : String,
      suffix.toByteArray = source.toByteArray.extract t.span.start source.utf8ByteSize ∧
      (tokens suffix).map (·.moved i t.span.start) = (tokens source).drop i ∧
      (lexicalDiagnostics (tokens suffix)).map (·.moved t.span.start) =
        (lexicalDiagnostics (tokens source)).filter (t.span.start ≤ ·.span.start) := by
  obtain ⟨before, suffix, front, hsource, hsize, hfront, htokens⟩ := exists_suffix_of_token ht
  have hdrop : (tokens source).drop i = (tokens suffix).map (·.moved i t.span.start) := by
    rw [htokens, List.drop_left' hfront]
  refine ⟨suffix, ?_, hdrop.symm, ?_⟩
  · rw [hsource, String.utf8ByteSize_append, String.toByteArray_append, ← hsize]
    exact (ByteArray.extract_append_eq_right rfl rfl).symm
  · rw [htokens, lexicalDiagnostics_append, List.filter_append]
    have hmem : t ∈ (tokens source).drop i := by
      have hhead : ((tokens source).drop i)[0]? = some t := by rwa [List.getElem?_drop]
      exact List.mem_of_getElem? hhead
    rw [hdrop] at hmem
    have hfirst : (lexicalDiagnostics front).filter (t.span.start ≤ ·.span.start) = [] := by
      rw [List.filter_eq_nil_iff]
      intro d hd
      have hlt := start_lt_of_mem_front htokens hmem hd
      rw [decide_eq_true_eq]
      exact Nat.not_le_of_lt hlt
    have hlater : (lexicalDiagnostics ((tokens suffix).map (·.moved i t.span.start))).filter
        (t.span.start ≤ ·.span.start) =
        (lexicalDiagnostics (tokens suffix)).map (·.moved t.span.start) := by
      rw [← map_moved_lexicalDiagnostics, List.filter_eq_self]
      intro d hd
      obtain ⟨d, -, rfl⟩ := List.mem_map.mp hd
      exact decide_eq_true (Nat.le_add_left _ _)
    rw [hfirst, hlater, List.nil_append]

/-- What stands behind the comment is cut into the open rune and the end. -/
theorem tokens_restart_behind_comment :
    ∃ suffix : String, suffix.toByteArray = "é/**/'x".toByteArray.extract 6 8 ∧
      (tokens suffix).map (·.moved 2 6) = (tokens "é/**/'x").drop 2 ∧
      (lexicalDiagnostics (tokens suffix)).map (·.moved 6) =
        (lexicalDiagnostics (tokens "é/**/'x")).filter (6 ≤ ·.span.start) := by
  have ht : (tokens "é/**/'x")[2]? =
      some ⟨⟨.rune, "'x", some .openRune⟩, .visible, 2, ⟨6, 8⟩⟩ := by
    decide
  exact tokens_restart ht

end Semicolons
