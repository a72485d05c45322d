import Semicolons.Proofs.Lexeme.Delimited
import Semicolons.Proofs.Problem.Tokens
import Semicolons.Proofs.Token.Position

/-!
# Faults of the tokens of a text

Every comment, string and rune of a text reaches to its end, or as far as it can where its end is
missing. The faults of a text are those of the latter, one for each, and one for each stray
character, in the order of the tokens (`tokens_reach_ends`).
-/

namespace Semicolons

namespace Token

/-- A token stands in a text in front of characters before which a lexeme of its kind that is
    complete ends. -/
def HasEndIn (t : Token) (source : String) : Prop :=
  ∃ before rest, source.toList = before ++ (t.chars ++ rest) ∧ byteLength before = t.span.start ∧
    t.kind.HasEnd t.chars rest

/-- A token stands in a text in front of characters before which a lexeme of its kind stops for
    want of an end. -/
def LacksEndIn (t : Token) (source : String) : Prop :=
  ∃ before rest, source.toList = before ++ (t.chars ++ rest) ∧ byteLength before = t.span.start ∧
    t.kind.LacksEnd t.chars rest

end Token

section Source

variable {source : String} {t : Token}

/-- What stands behind a token is known from its place. -/
theorem rest_unique {before before' chars rest rest' : List Char}
    (h : before ++ (chars ++ rest) = before' ++ (chars ++ rest'))
    (hplace : byteLength before = byteLength before') : rest = rest' := by
  have hbefore := textBefore?_append before (chars ++ rest)
  rw [h, hplace, textBefore?_append] at hbefore
  obtain rfl := Option.some.inj hbefore
  exact List.append_cancel_left (List.append_cancel_left h)

theorem not_lacksEndIn (h : t.HasEndIn source) : ¬ t.LacksEndIn source := by
  rintro ⟨before', rest', hsource', hplace', hlacks⟩
  obtain ⟨before, rest, hsource, hplace, hend⟩ := h
  obtain rfl := rest_unique (hsource.symm.trans hsource') (hplace.trans hplace'.symm)
  exact Kind.not_lacksEnd hend hlacks

/-- A comment, string or rune has a fault exactly where its end is missing. -/
theorem ends_of_mem_tokens (ht : t ∈ tokens source) (hkind : t.kind.isDelimited = true) :
    (t.fault = none ∧ t.HasEndIn source) ∨ (t.fault ≠ none ∧ t.LacksEndIn source) := by
  obtain ⟨before, after, hlexemes, hstart⟩ := exists_lexemes_of_mem_tokens ht
  have hsource := toList_eq_of_split hlexemes
  refine ((cuts_lexemes source).ends hlexemes hkind).imp ?_ ?_
  · rintro ⟨hfault, hend⟩
    exact ⟨hfault, _, _, hsource, hstart.symm, hend⟩
  · rintro ⟨hfault, hlacks⟩
    exact ⟨hfault, _, _, hsource, hstart.symm, hlacks⟩

theorem isDelimited_of_lacksEndIn (h : t.LacksEndIn source) : t.kind.isDelimited = true := by
  obtain ⟨before, rest, -, -, hlacks⟩ := h
  cases hk : t.kind <;> rw [hk] at hlacks <;> first | rfl | exact hlacks.elim

/-- The tokens with a fault are the stray characters and those of which the end is missing. -/
theorem fault_ne_none_iff (ht : t ∈ tokens source) :
    t.fault ≠ none ↔ t.kind = .stray ∨ t.LacksEndIn source := by
  cases hkind : t.kind.isDelimited with
  | true =>
    have hstray : t.kind ≠ .stray := by
      intro hstray
      rw [hstray] at hkind
      cases hkind
    rcases ends_of_mem_tokens ht hkind with ⟨hfault, hend⟩ | ⟨hfault, hlacks⟩
    · simp [hfault, hstray, not_lacksEndIn hend]
    · exact iff_of_true hfault (Or.inr hlacks)
  | false =>
    have hlacks : ¬ t.LacksEndIn source := fun hlacks => by
      rw [isDelimited_of_lacksEndIn hlacks] at hkind
      cases hkind
    by_cases hend : t.toLexeme = .endOfInput
    · have hfault : t.fault = none := congrArg Lexeme.fault hend
      have hk : t.kind = .endOfInput := congrArg Lexeme.kind hend
      simp [hfault, hk, hlacks]
    · have hmem := mem_lexemes_of_mem_tokens ht hend
      rw [(cuts_lexemes source).fault_iff_stray hmem hkind, or_iff_left hlacks]

end Source

/-- What a reader is told about the fault of a token. -/
def Token.faultMessage (t : Token) : String :=
  (t.fault.map Fault.message).getD ""

theorem diagnostics_faults (stream : List Token) :
    (faults stream).map Problem.diagnostic =
      (stream.filter (·.fault.isSome)).map fun t => .lexical t.faultMessage t.span := by
  induction stream with
  | nil => rfl
  | cons t stream ih =>
    cases hf : t.fault with
    | none =>
      rw [List.filter_cons_of_neg (by simp [hf]), ← ih]
      simp [faults, hf]
    | some f =>
      rw [List.filter_cons_of_pos (by simp [hf]), List.map_cons, ← ih]
      simp [faults, hf, Problem.diagnostic, Token.faultMessage]

/-- Comments, strings and runes reach to their end, or as far as they can without. The faults of a
    text are one for each stray character and one for each comment, string or rune that lacks its
    end, at the place of that token, in the order of the tokens. -/
theorem tokens_reach_ends (source : String) :
    (∀ t ∈ tokens source, t.kind.isDelimited = true →
      t.HasEndIn source ∧ ¬ t.LacksEndIn source ∨ t.LacksEndIn source ∧ ¬ t.HasEndIn source) ∧
    ∃ faulty : List Token, faulty.Sublist (tokens source) ∧ faulty.Nodup ∧
      (∀ t, t ∈ faulty ↔ t ∈ tokens source ∧ (t.kind = .stray ∨ t.LacksEndIn source)) ∧
      (faults (tokens source)).map Problem.diagnostic =
        faulty.map fun t => .lexical t.faultMessage t.span := by
  constructor
  · intro t ht hkind
    rcases ends_of_mem_tokens ht hkind with ⟨-, hend⟩ | ⟨-, hlacks⟩
    · exact Or.inl ⟨hend, not_lacksEndIn hend⟩
    · exact Or.inr ⟨hlacks, fun hend => not_lacksEndIn hend hlacks⟩
  · have hsublist : ((tokens source).filter (·.fault.isSome)).Sublist (tokens source) :=
      List.filter_sublist
    refine ⟨_, hsublist, hsublist.nodup (nodup_tokens source), ?_, diagnostics_faults _⟩
    intro t
    rw [List.mem_filter, Option.isSome_iff_ne_none]
    exact and_congr_right fault_ne_none_iff

/-- A backslash in front of the line break is the last character of a string that is left open. -/
theorem tokens_reach_ends_backslash :
    ∃ t ∈ tokens "`/*`+\"a\\\n/*/", t.text = "\"a\\" ∧ t.kind.isDelimited = true ∧
      t.LacksEndIn "`/*`+\"a\\\n/*/" := by
  have ht : (⟨⟨.string, "\"a\\", some .openString⟩, .visible, 2, ⟨5, 8⟩⟩ : Token) ∈
      tokens "`/*`+\"a\\\n/*/" := by decide
  refine ⟨_, ht, rfl, rfl, ?_⟩
  rcases (tokens_reach_ends "`/*`+\"a\\\n/*/").1 _ ht rfl with ⟨hend, -⟩ | ⟨hlacks, -⟩
  · obtain ⟨before, rest, -, -, units, hchars, -⟩ := hend
    have hlast := congrArg List.getLast? hchars
    rw [← List.cons_append, List.getLast?_append] at hlast
    cases hlast
  · exact hlacks

example : (faults (tokens "`/*`+\"a\\\n/*/")).map Problem.diagnostic =
    [.lexical "string literal not terminated" ⟨5, 8⟩,
      .lexical "comment not terminated" ⟨9, 12⟩] := by
  decide

end Semicolons
