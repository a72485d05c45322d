import Semicolons.Proofs.Conversion
import Semicolons.Proofs.Insertion.Decision
import Semicolons.Proofs.Lexeme.LineBreak

/-!
# Texts joined at the end of a line

A conversion goes by lines: if a text ends with a line break, and a text that begins with a visible
token is written behind it, then the two are converted one after the other
(`convert_append_at_line`). In front of the line break a semicolon is written where the text ends
for the same reason as where it goes on (`wantsSemicolon_append`), unless it goes on with a
semicolon.
-/

namespace Semicolons

variable {l last n : Lexeme} {ls ls' : List Lexeme}

theorem Lexeme.isLayout_of_lineBreaks (h : l.kind = .lineBreaks) : l.isLayout = true := by
  simp [isLayout, h, Kind.channel]

theorem wantsSemicolon_of_isLayout (h : l.isLayout = true) (rest : List Lexeme) :
    l.wantsSemicolon rest = false := by
  simp [Lexeme.wantsSemicolon, h]

/-- A line begins behind layout that ends with a line break. -/
theorem breakBehind_of_lineBreaks (h : last.kind = .lineBreaks) (before : List Lexeme) :
    Lexeme.breakBehind (last :: before) = true := by
  simp [Lexeme.breakBehind, Lexeme.breaksLine, h]

/-- In front of the end of a line it makes no difference whether the text ends there too. -/
theorem wantsSemicolon_append (hlast : last.kind = .lineBreaks) (hn : n.isLayout = false)
    (htext : n.text? ≠ some ";") :
    l.wantsSemicolon (ls ++ [last] ++ n :: ls') =
      l.wantsSemicolon (ls ++ [last] ++ [.endOfInput]) := by
  have hend : Lexeme.endOfInput.isLayout = false := rfl
  cases hfind : ls.find? (!·.isLayout) with
  | some m =>
    obtain ⟨gap, after, rfl, hgap, hm⟩ := exists_gap hfind
    simp only [List.append_assoc, List.cons_append, wantsSemicolon_gap_append hgap hm]
  | none =>
    -- Nothing visible stands behind the lexeme, so that its gap reaches to the line break.
    have hgap : ∀ g ∈ ls ++ [last], g.isLayout = true := by
      intro g hg
      rcases List.mem_append.mp hg with hg | hg
      · simpa using List.find?_eq_none.mp hfind g hg
      · rw [List.mem_singleton.mp hg]
        exact Lexeme.isLayout_of_lineBreaks hlast
    have hbreak : Lexeme.breakBehind (ls ++ [last]).reverse = true := by
      rw [List.reverse_append]
      exact breakBehind_of_lineBreaks hlast _
    have hspell : (n.text? == some ";") = false := by simpa using htext
    have hspellEnd : (Lexeme.endOfInput.text? == some ";") = false := rfl
    rw [wantsSemicolon_gap_append hgap hn, wantsSemicolon_gap_append hgap hend, hbreak]
    simp only [hspell, hspellEnd, Bool.or_true]

/-- Behind the end of a line the decisions begin anew. -/
theorem decisions_append (hlast : last.kind = .lineBreaks) (hn : n.isLayout = false)
    (htext : n.text? ≠ some ";") :
    decisions (ls ++ [last] ++ n :: ls') = decisions (ls ++ [last]) ++ decisions (n :: ls') := by
  induction ls with
  | nil =>
    have hlayout := Lexeme.isLayout_of_lineBreaks hlast
    simp only [List.nil_append, List.cons_append, decisions, wantsSemicolon_of_isLayout hlayout]
  | cons l ls ih =>
    have hwants : l.wantsSemicolon (ls ++ [last] ++ n :: (ls' ++ [.endOfInput])) =
        l.wantsSemicolon (ls ++ [last] ++ [.endOfInput]) :=
      wantsSemicolon_append hlast hn htext
    have hassoc : ls ++ [last] ++ n :: ls' ++ [Lexeme.endOfInput] =
        ls ++ [last] ++ n :: (ls' ++ [.endOfInput]) := by
      simp
    have hfirst : decisions (l :: (ls ++ [last])) =
        (l, l.wantsSemicolon (ls ++ [last] ++ [.endOfInput])) :: decisions (ls ++ [last]) := rfl
    rw [List.cons_append, List.cons_append, decisions, hassoc, hwants, ih, hfirst, List.cons_append]

theorem punctuated_append (choice choice' : List (Lexeme × Bool)) :
    punctuated (choice ++ choice') = punctuated choice ++ punctuated choice' := by
  induction choice with
  | nil => rfl
  | cons x rest ih =>
    obtain ⟨l, written⟩ := x
    cases written <;> simp [punctuated, ih]

section Source

variable {first second : String} {before rest : List Token} {lineEnd eof head : Token}

/-- The last token in front of the end of the input is the last lexeme. -/
theorem exists_lexemes_of_last (h : tokens first = before ++ [lineEnd, eof]) :
    ∃ ls, lexemes first = ls ++ [lineEnd.toLexeme] := by
  refine ⟨before.map Token.toLexeme, ?_⟩
  have hmap := map_toLexeme_tokens first
  rw [h, List.map_append, List.map_cons, List.map_singleton, ← List.singleton_append,
    ← List.append_assoc] at hmap
  exact (List.append_inj' hmap rfl).1.symm

/-- The first token of a text that holds one is the first lexeme. -/
theorem exists_lexemes_of_head (h : tokens second = head :: rest) (hend : head.kind ≠ .endOfInput) :
    ∃ ls, lexemes second = head.toLexeme :: ls := by
  have hmap := map_toLexeme_tokens second
  rw [h, List.map_cons] at hmap
  cases hls : lexemes second with
  | nil =>
    rw [hls] at hmap
    obtain ⟨hhead, -⟩ := List.cons.inj hmap
    exact absurd (congrArg Lexeme.kind hhead) hend
  | cons l ls =>
    rw [hls] at hmap
    obtain ⟨rfl, -⟩ := List.cons.inj hmap
    exact ⟨ls, rfl⟩

/-- A text that ends with a line break and one that begins with a visible token are cut apart where
    they are joined. -/
theorem lexemes_append (hlast : lexemes first = ls ++ [last]) (hbreak : last.kind = .lineBreaks)
    (hhead : lexemes second = n :: ls') (hn : n.isLayout = false) :
    lexemes (first ++ second) = lexemes first ++ lexemes second := by
  have hfirst := cuts_lexemes first
  have hsecond := cuts_lexemes second
  rw [hlast] at hfirst
  rw [hhead] at hsecond
  have hstart : ∀ c ∈ second.toList.head?, isLineBreak c = false := by
    intro c hc
    obtain ⟨chars, hchars⟩ := List.head?_eq_some_iff.mp hc
    rw [hchars] at hsecond
    exact hsecond.not_isLineBreak_head hn
  have hcut := hfirst.append_of_lineBreaks hbreak hsecond hstart
  rw [lexemes, String.toList_append, ← cuts_iff.mp hcut, hlast, hhead]

end Source

/-- A text that begins with a visible token other than a semicolon, written behind a text that ends
    with a line break, is converted on its own, and so is the text in front of it. -/
theorem convert_append_at_line {policy : Policy} (hpolicy : policy ≠ .fatal) (name : Option String)
    {first second : String} {before rest : List Token} {lineEnd eof head : Token}
    (hfirst : tokens first = before ++ [lineEnd, eof]) (hbreak : lineEnd.kind = .lineBreaks)
    (hsecond : tokens second = head :: rest) (hvisible : head.channel = .visible)
    (hend : head.kind ≠ .endOfInput) (hsemi : head.text ≠ ";") :
    ∃ r r' joined, (convert policy name first).result = .ok r ∧
      (convert policy name second).result = .ok r' ∧
      (convert policy name (first ++ second)).result = .ok joined ∧
      joined.output = r.output ++ r'.output ∧ joined.inserted = r.inserted + r'.inserted := by
  have hresult : ∀ s, (convert policy name s).result = .ok (Conversion.ofSource s) :=
    fun _ => convert_result_of_ne_fatal hpolicy
  obtain ⟨ls, hlast⟩ := exists_lexemes_of_last hfirst
  obtain ⟨ls', hhead⟩ := exists_lexemes_of_head hsecond hend
  have hn : head.toLexeme.isLayout = false := by
    have hmem : head ∈ tokens second := by simp [hsecond]
    rw [Lexeme.isLayout, ← channel_of_mem_tokens hmem, hvisible]
    rfl
  have htext : head.toLexeme.text? ≠ some ";" := by
    rw [Lexeme.text?]
    split
    · simp
    · simpa using hsemi
  have hdecisions : decisions (lexemes (first ++ second)) =
      decisions (lexemes first) ++ decisions (lexemes second) := by
    rw [lexemes_append hlast hbreak hhead hn, hlast, hhead, decisions_append hbreak hn htext]
  refine ⟨_, _, _, hresult first, hresult second, hresult (first ++ second), ?_, ?_⟩
  · apply String.toList_inj.mp
    rw [Conversion.output_ofSource, Conversion.output_ofSource, Conversion.output_ofSource,
      String.toList_append, toList_withSemicolons_tokens, toList_withSemicolons_tokens,
      toList_withSemicolons_tokens, hdecisions, punctuated_append, List.flatMap_append]
  · rw [Conversion.inserted_ofSource, Conversion.inserted_ofSource, Conversion.inserted_ofSource,
      semicolonCount_tokens, semicolonCount_tokens, semicolonCount_tokens, hdecisions,
      List.countP_append]

theorem convert_append_open_literal :
    (convert .ignore none "x /* y\n*/ 1.e\r\n").result =
        .ok ⟨"x; /* y\n*/ 1.e;\r\n", 2, []⟩ ∧
      ∃ r' joined, (convert .ignore none "+5)\n\"z").result = .ok r' ∧
        r'.output = "+5);\n\"z" ∧ r'.inserted = 1 ∧
        (convert .ignore none ("x /* y\n*/ 1.e\r\n" ++ "+5)\n\"z")).result = .ok joined ∧
        joined.output = "x; /* y\n*/ 1.e;\r\n" ++ "+5);\n\"z" ∧ joined.inserted = 2 + 1 := by
  have hfirst : tokens "x /* y\n*/ 1.e\r\n" = (tokens "x /* y\n*/ 1.e\r\n").take 5 ++
      [⟨⟨.lineBreaks, "\r\n", none⟩, .hidden, 5, ⟨13, 15⟩⟩,
        ⟨.endOfInput, .visible, 6, ⟨15, 15⟩⟩] := by
    decide
  have hsecond : tokens "+5)\n\"z" =
      ⟨⟨.punctuation .plus, "+", none⟩, .visible, 0, ⟨0, 1⟩⟩ :: (tokens "+5)\n\"z").tail := by
    decide
  obtain ⟨r, r', joined, hr, hr', hjoined, houtput, hinserted⟩ :=
    convert_append_at_line (show Policy.ignore ≠ .fatal by decide) none hfirst rfl hsecond rfl
      (by decide) (by decide)
  have hresult : (convert .ignore none "x /* y\n*/ 1.e\r\n").result =
      .ok ⟨"x; /* y\n*/ 1.e;\r\n", 2, []⟩ := rfl
  have houtput' : r'.output = "+5);\n\"z" := by
    rw [eq_ofSource_of_convert hr']
    rfl
  have hinserted' : r'.inserted = 1 := by
    rw [eq_ofSource_of_convert hr']
    rfl
  obtain rfl := Except.ok.inj (hresult.symm.trans hr)
  rw [houtput'] at houtput
  rw [hinserted'] at hinserted
  exact ⟨hresult, r', joined, hr', houtput', hinserted', hjoined, houtput, hinserted⟩

end Semicolons
