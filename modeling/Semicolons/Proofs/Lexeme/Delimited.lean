import Mathlib.Data.List.Infix
import Semicolons.Proofs.Lexeme.Lookahead

/-!
# Lexemes with an end of their own

Comments, strings and runes reach from the marks that begin them to marks that end them, and where
these are missing to the end of the line or of the text. How far that is, is said here of the text
alone (`Kind.HasEnd`, `Kind.LacksEnd`). The phases come to the same place, and they have a fault
exactly where the end is missing (`Phase.ends_of_run`).
-/

namespace Semicolons

/-- The characters of a string or rune: each stands for itself, if it is neither the mark nor a
    backslash, or comes behind a backslash. None of them breaks the line. -/
inductive Units (quote : Quote) : List Char → Prop
  | nil : Units quote []
  | plain {c : Char} {text : List Char} : c ≠ quote.mark → c ≠ '\\' → isLineBreak c = false →
      Units quote text → Units quote (c :: text)
  | escape {c : Char} {text : List Char} : isLineBreak c = false →
      Units quote text → Units quote ('\\' :: c :: text)

/-- The longest run of units that a text begins with. -/
def IsLongestUnits (quote : Quote) (text units : List Char) : Prop :=
  Units quote units ∧ units <+: text ∧
    ∀ others, Units quote others → others <+: text → others <+: units

/-- A text that begins with a line break, or is empty. -/
def AtLineEnd (text : List Char) : Prop :=
  ∀ c ∈ text.head?, isLineBreak c = true

/-- The characters that end a block comment. -/
def commentClose : List Char :=
  ['*', '/']

namespace Quote

/-- A string or rune goes through the longest run of units, and the mark that comes next. -/
def HasEnd (quote : Quote) (chars rest : List Char) : Prop :=
  ∃ units, chars = quote.mark :: (units ++ [quote.mark]) ∧
    IsLongestUnits quote (units ++ quote.mark :: rest) units

/-- Where no mark comes next, a string or rune stops at the end of the line. A backslash may be left
    in front of that. -/
def LacksEnd (quote : Quote) (chars rest : List Char) : Prop :=
  ∃ units slash, chars = quote.mark :: (units ++ slash) ∧ (slash = [] ∨ slash = ['\\']) ∧
    AtLineEnd rest ∧ IsLongestUnits quote (units ++ (slash ++ rest)) units

end Quote

namespace Kind

/-- Whether lexemes of a kind have an end of their own. -/
def isDelimited : Kind → Bool
  | .lineComment | .blockComment | .rawString | .string | .rune => true
  | _ => false

/-- The characters `chars` in front of `rest` reach as far as a lexeme of the kind that has its
    end: the end of the line, or the first place where the characters come that end it. -/
def HasEnd : Kind → List Char → List Char → Prop
  | .lineComment, chars, rest => ∃ inner, chars = '/' :: '/' :: inner ∧
      (∀ c ∈ inner, isLineBreak c = false) ∧ AtLineEnd rest
  | .blockComment, chars, _ => ∃ inner, chars = '/' :: '*' :: (inner ++ commentClose) ∧
      ¬ commentClose <:+: inner ++ ['*']
  | .rawString, chars, _ => ∃ inner, chars = '`' :: (inner ++ ['`']) ∧ '`' ∉ inner
  | .string, chars, rest => Quote.double.HasEnd chars rest
  | .rune, chars, rest => Quote.single.HasEnd chars rest
  | _, _, _ => False

/-- The characters `chars` in front of `rest` reach as far as a lexeme of the kind of which the end
    is missing. -/
def LacksEnd : Kind → List Char → List Char → Prop
  | .blockComment, chars, rest => ∃ inner, chars = '/' :: '*' :: inner ∧
      ¬ commentClose <:+: inner ∧ rest = []
  | .rawString, chars, rest => ∃ inner, chars = '`' :: inner ∧ '`' ∉ inner ∧ rest = []
  | .string, chars, rest => Quote.double.LacksEnd chars rest
  | .rune, chars, rest => Quote.single.LacksEnd chars rest
  | _, _, _ => False

end Kind

section Units

variable {quote : Quote} {units rest : List Char}

theorem Quote.mark_ne_slash (quote : Quote) : quote.mark ≠ '\\' := by
  cases quote <;> decide

/-- Units that nothing behind them goes on are the longest run. -/
theorem Units.isLongest (h : Units quote units)
    (hend : ∀ others, Units quote others → others <+: rest → others = []) :
    IsLongestUnits quote (units ++ rest) units := by
  refine ⟨h, List.prefix_append units rest, ?_⟩
  induction h with
  | nil =>
    intro others hothers hfront
    rw [hend others hothers hfront]
  | @plain c text hmark hslash hbreak _ ih =>
    intro others hothers hfront
    cases hothers with
    | nil => exact List.nil_prefix
    | @plain d others _ _ _ hothers =>
      obtain ⟨rfl, hbehind⟩ := List.cons_prefix_cons.mp hfront
      exact List.cons_prefix_cons.mpr ⟨rfl, ih others hothers hbehind⟩
    | escape _ _ => exact absurd (List.cons_prefix_cons.mp hfront).1.symm hslash
  | @escape c text hbreak _ ih =>
    intro others hothers hfront
    cases hothers with
    | nil => exact List.nil_prefix
    | plain _ hslash _ _ => exact absurd (List.cons_prefix_cons.mp hfront).1 hslash
    | @escape d others _ hothers =>
      obtain ⟨-, hescaped⟩ := List.cons_prefix_cons.mp hfront
      obtain ⟨rfl, hbehind⟩ := List.cons_prefix_cons.mp hescaped
      have hbegins := ih others hothers hbehind
      exact List.cons_prefix_cons.mpr ⟨rfl, List.cons_prefix_cons.mpr ⟨rfl, hbegins⟩⟩

/-- No unit begins with the mark. -/
theorem Units.eq_nil_of_mark {others : List Char} (h : Units quote others)
    (hfront : others <+: quote.mark :: rest) : others = [] := by
  cases h with
  | nil => rfl
  | plain hmark _ _ _ => exact absurd (List.cons_prefix_cons.mp hfront).1 hmark
  | escape _ _ => exact absurd (List.cons_prefix_cons.mp hfront).1.symm quote.mark_ne_slash

/-- No unit reaches past the end of the line. -/
theorem Units.eq_nil_of_lineEnd {slash others : List Char} (hslash : slash = [] ∨ slash = ['\\'])
    (hrest : AtLineEnd rest) (h : Units quote others) (hfront : others <+: slash ++ rest) :
    others = [] := by
  have hhead : ∀ {c : Char} {text : List Char}, c :: text <+: rest → isLineBreak c = true := by
    intro c text hcons
    obtain ⟨behind, rfl⟩ := hcons
    exact hrest c rfl
  cases h with
  | nil => rfl
  | plain _ hne hbreak _ =>
    rcases hslash with rfl | rfl
    · rw [hhead hfront] at hbreak
      cases hbreak
    · exact absurd (List.cons_prefix_cons.mp hfront).1 hne
  | escape hbreak _ =>
    rcases hslash with rfl | rfl
    · have hslash := hhead hfront
      cases hslash
    · rw [hhead (List.cons_prefix_cons.mp hfront).2] at hbreak
      cases hbreak

theorem Units.append {others : List Char} (h : Units quote units) (h' : Units quote others) :
    Units quote (units ++ others) := by
  induction h with
  | nil => exact h'
  | plain hmark hslash hbreak _ ih => exact .plain hmark hslash hbreak ih
  | escape hbreak _ ih => exact .escape hbreak ih

theorem IsLongestUnits.eq {text units' : List Char} (h : IsLongestUnits quote text units)
    (h' : IsLongestUnits quote text units') : units = units' :=
  (h'.2.2 units h.1 h.2.1).eq_of_length_le (h.2.2 units' h'.1 h'.2.1).length_le

end Units

section Phase

theorem singleton_suffix_concat {x c : Char} {read : List Char} : [x] <:+ read ++ [c] ↔ x = c := by
  rw [List.suffix_concat_iff]
  constructor
  · rintro (hnil | ⟨t, ht, -⟩)
    · cases hnil
    · cases t with
      | nil => exact (List.cons.inj ht).1
      | cons d t => simp at ht
  · rintro rfl
    exact Or.inr ⟨[], rfl, List.nil_suffix⟩

theorem not_infix_commentClose_concat {c : Char} {read : List Char} :
    ¬ commentClose <:+: read ++ [c] ↔
      ¬ commentClose <:+: read ∧ ¬ (['*'] <:+ read ∧ c = '/') := by
  have hsuffix : commentClose <:+ read ++ [c] ↔ ['*'] <:+ read ∧ c = '/' := by
    rw [List.suffix_concat_iff]
    constructor
    · rintro (hnil | ⟨t, ht, hread⟩)
      · cases hnil
      · have hends : ['*'] ++ ['/'] = t ++ [c] := ht
        obtain ⟨rfl, hc⟩ := List.append_inj' hends rfl
        exact ⟨hread, (List.cons.inj hc).1.symm⟩
    · rintro ⟨hread, rfl⟩
      exact Or.inr ⟨['*'], rfl, hread⟩
  rw [List.infix_concat_iff, hsuffix]
  tauto

namespace Phase

/-- The phase in which a comment, string or rune begins that has come to the given phase. -/
def beginning? : Phase → Option Phase
  | .lineComment => some .lineComment
  | .commentSlash | .comment | .commentStar | .commentEnd => some .commentSlash
  | .quoted q | .escape q | .quotedEnd q => some (.quoted q)
  | .raw | .rawEnd => some .raw
  | _ => none

theorem beginning?_step {p q : Phase} {c : Char} {next : Option Char}
    (h : p.step c next = some q) : q.beginning? = p.beginning? := by
  cases p with
  | mark m left => cases left <;> grind [step, beginning?]
  | _ => grind [step, stepDecimal, stepHexadecimal, stepExponent, beginning?]

theorem beginning?_run {p q : Phase} {taken : List Char} {next : Option Char}
    (h : p.run taken next = some q) : q.beginning? = p.beginning? := by
  induction taken generalizing p with
  | nil => rw [Option.some.inj h]
  | cons c taken ih =>
    obtain ⟨p', hstep, hrest⟩ := run_cons_eq_some.mp h
    rw [ih hrest, beginning?_step hstep]

/-- What comments, strings and runes begin with: the phase in which they begin tells the first
    character, and in front of comments the character behind it. -/
def Opens (c : Char) (next : Option Char) (b : Phase) : Prop :=
  (b = .lineComment ∧ c = '/' ∧ next = some '/') ∨ (b = .commentSlash ∧ c = '/' ∧ next = some '*') ∨
    (∃ quote : Quote, b = .quoted quote ∧ c = quote.mark) ∨ (b = .raw ∧ c = '`')

theorem opens_of_startBeforeMark? {c : Char} {next : Option Char} {p b : Phase}
    (hs : startBeforeMark? c next = some p) (h : p.beginning? = some b) :
    p = b ∧ Opens c next b := by
  -- The conditions are gone through in the order in which they are asked.
  rw [startBeforeMark?] at hs
  by_cases hblank : isBlank c = true
  · rw [if_pos hblank] at hs
    cases hs
    cases h
  by_cases hbreak : isLineBreak c = true
  · rw [if_neg hblank, if_pos hbreak] at hs
    cases hs
    cases h
  rw [if_neg hblank, if_neg hbreak] at hs
  by_cases hline : c = '/' ∧ next = some '/'
  · rw [if_pos hline] at hs
    cases hs
    cases h
    exact ⟨rfl, Or.inl ⟨rfl, hline⟩⟩
  by_cases hblock : c = '/' ∧ next = some '*'
  · rw [if_neg hline, if_pos hblock] at hs
    cases hs
    cases h
    exact ⟨rfl, Or.inr (Or.inl ⟨rfl, hblock⟩)⟩
  rw [if_neg hline, if_neg hblock] at hs
  by_cases hdouble : c = '"'
  · rw [if_pos hdouble] at hs
    cases hs
    cases h
    exact ⟨rfl, Or.inr (Or.inr (Or.inl ⟨.double, rfl, hdouble⟩))⟩
  by_cases hsingle : c = '\''
  · rw [if_neg hdouble, if_pos hsingle] at hs
    cases hs
    cases h
    exact ⟨rfl, Or.inr (Or.inr (Or.inl ⟨.single, rfl, hsingle⟩))⟩
  rw [if_neg hdouble, if_neg hsingle] at hs
  by_cases hraw : c = '`'
  · rw [if_pos hraw] at hs
    cases hs
    cases h
    exact ⟨rfl, Or.inr (Or.inr (Or.inr ⟨rfl, hraw⟩))⟩
  -- Numbers and words are left.
  rw [if_neg hraw] at hs
  grind [beginning?]

theorem opens_of_start {c : Char} {rest : List Char} {b : Phase}
    (h : (start c rest).beginning? = some b) : start c rest = b ∧ Opens c rest.head? b := by
  have hmark : (startMark c rest).beginning? = none := by
    rw [startMark]
    cases Punctuation.longest? (c :: rest) <;> rfl
  rw [start_eq] at h ⊢
  cases hs : startBeforeMark? c rest.head? with
  | none =>
    rw [hs, Option.getD_none, hmark] at h
    cases h
  | some p =>
    rw [hs, Option.getD_some] at h
    exact opens_of_startBeforeMark? hs h

/-- What the characters `read` between the marks that begin a lexeme and the place that its reading
    has come to are like. -/
def Inside : Phase → List Char → Prop
  | .lineComment, read => ∀ c ∈ read, isLineBreak c = false
  | .comment, read => ¬ commentClose <:+: read ∧ ¬ ['*'] <:+ read
  | .commentStar, read => ¬ commentClose <:+: read ∧ ['*'] <:+ read
  | .commentEnd, read => ∃ inner, read = inner ++ commentClose ∧ ¬ commentClose <:+: inner ++ ['*']
  | .quoted quote, read => Units quote read
  | .escape quote, read => ∃ units, read = units ++ ['\\'] ∧ Units quote units
  | .quotedEnd quote, read => ∃ units, read = units ++ [quote.mark] ∧ Units quote units
  | .raw, read => '`' ∉ read
  | .rawEnd, read => ∃ inner, read = inner ++ ['`'] ∧ '`' ∉ inner
  | _, _ => False

theorem inside_step {p q : Phase} {c : Char} {next : Option Char} {read : List Char}
    (h : p.Inside read) (hstep : p.step c next = some q) : q.Inside (read ++ [c]) := by
  cases p with
  | lineComment =>
    obtain ⟨hbreak, rfl⟩ : isLineBreak c = false ∧ lineComment = q := by simpa [step] using hstep
    intro x hx
    rcases List.mem_append.mp hx with hx | hx
    · exact h x hx
    · rwa [List.mem_singleton.mp hx]
  | comment =>
    obtain ⟨hclose, hstar⟩ := h
    have hnone : ¬ commentClose <:+: read ++ [c] := by
      rw [not_infix_commentClose_concat]
      exact ⟨hclose, fun hends => absurd hends.1 hstar⟩
    by_cases hc : c = '*'
    · obtain rfl : commentStar = q := by simpa [step, hc] using hstep
      exact ⟨hnone, hc ▸ List.suffix_append read ['*']⟩
    · obtain rfl : comment = q := by simpa [step, hc] using hstep
      exact ⟨hnone, fun hends => hc (singleton_suffix_concat.mp hends).symm⟩
  | commentStar =>
    obtain ⟨hclose, hstar⟩ := h
    by_cases hslash : c = '/'
    · obtain rfl : commentEnd = q := by simpa [step, hslash] using hstep
      obtain ⟨inner, rfl⟩ := hstar
      exact ⟨inner, by simp [hslash, commentClose], hclose⟩
    · have hnone : ¬ commentClose <:+: read ++ [c] := by
        rw [not_infix_commentClose_concat]
        exact ⟨hclose, fun hends => absurd hends.2 hslash⟩
      by_cases hc : c = '*'
      · obtain rfl : commentStar = q := by simpa [step, hc] using hstep
        exact ⟨hnone, hc ▸ List.suffix_append read ['*']⟩
      · obtain rfl : comment = q := by simpa [step, hslash, hc] using hstep
        exact ⟨hnone, fun hends => hc (singleton_suffix_concat.mp hends).symm⟩
  | quoted quote =>
    simp only [step] at hstep
    split_ifs at hstep with hbreak hslash hmark <;> cases hstep
    · exact ⟨read, by rw [hslash], h⟩
    · exact ⟨read, by rw [hmark], h⟩
    · exact h.append (.plain hmark hslash (Bool.eq_false_iff.mpr hbreak) .nil)
  | escape quote =>
    obtain ⟨hbreak, rfl⟩ : isLineBreak c = false ∧ quoted quote = q := by simpa [step] using hstep
    obtain ⟨units, rfl, hunits⟩ := h
    rw [List.append_assoc]
    exact hunits.append (.escape hbreak .nil)
  | raw =>
    simp only [step] at hstep
    split_ifs at hstep with hmark <;> cases hstep
    · exact ⟨read, by rw [hmark], h⟩
    · have hne : '`' ≠ c := fun heq => hmark heq.symm
      simpa [Inside, hne] using h
  | commentEnd | quotedEnd | rawEnd => cases hstep
  | _ => exact h.elim

theorem inside_run {p q : Phase} {read taken : List Char} {next : Option Char} (h : p.Inside read)
    (hrun : p.run taken next = some q) : q.Inside (read ++ taken) := by
  induction taken generalizing p read with
  | nil =>
    cases hrun
    rwa [List.append_nil]
  | cons c taken ih =>
    obtain ⟨p', hstep, hrest⟩ := run_cons_eq_some.mp hrun
    have hread := ih (inside_step h hstep) hrest
    rwa [List.append_assoc] at hread

section Ends

variable {c : Char} {taken rest : List Char} {q : Phase} {text : String}

/-- A phase that needs no further character, but may take any, stops only at the end of a text. -/
theorem StopsBefore.eq_nil (h : q.StopsBefore rest) (hstep : ∀ c next, q.step c next ≠ none) :
    rest = [] := by
  cases rest with
  | nil => rfl
  | cons d rest => exact absurd h (hstep d rest.head?)

/-- A phase that takes all characters of a line stops only at the end of the line. -/
theorem StopsBefore.atLineEnd (h : q.StopsBefore rest)
    (hstep : ∀ c next, q.step c next = none → isLineBreak c = true) : AtLineEnd rest := by
  cases rest with
  | nil => exact fun d hd => by cases hd
  | cons d rest =>
    intro x hx
    cases hx
    exact hstep d rest.head? h

/-- A phase that takes the character in front of it takes it. -/
theorem exists_cons_of_stops {p : Phase} {d : Char} (hhead : (taken ++ rest).head? = some d)
    (hrun : p.run taken rest.head? = some q) (hstop : q.StopsBefore rest)
    (hstep : ∀ next, p.step d next ≠ none) : ∃ inner, taken = d :: inner := by
  cases taken with
  | nil =>
    cases hrun
    cases rest with
    | nil => cases hhead
    | cons x rest =>
      cases hhead
      exact absurd hstop (hstep rest.head?)
  | cons x inner =>
    cases hhead
    exact ⟨inner, rfl⟩

theorem hasEnd_lineComment (hhead : (taken ++ rest).head? = some '/')
    (hrun : lineComment.run taken rest.head? = some q) (hstop : q.StopsBefore rest) :
    q = .lineComment ∧ Kind.lineComment.HasEnd ('/' :: taken) rest := by
  obtain ⟨inner, rfl⟩ := exists_cons_of_stops hhead hrun hstop (by simp [step, isLineBreak])
  have hbegin : lineComment.Inside [] := fun x hx => absurd hx List.not_mem_nil
  have hread := inside_run hbegin hrun
  have hq := beginning?_run hrun
  cases q <;> cases hq
  refine ⟨rfl, inner, rfl, fun x hx => hread x (List.mem_cons_of_mem _ hx), ?_⟩
  exact hstop.atLineEnd fun x next hstep => by simpa [step] using hstep

/-- A block comment has a fault where its end is missing, and only there. -/
theorem ends_blockComment (hhead : (taken ++ rest).head? = some '*')
    (hrun : commentSlash.run taken rest.head? = some q) (hstop : q.StopsBefore rest) :
    (q = .commentEnd ∧ Kind.blockComment.HasEnd ('/' :: taken) rest) ∨
      ((q = .comment ∨ q = .commentStar) ∧ Kind.blockComment.LacksEnd ('/' :: taken) rest) := by
  obtain ⟨inner, rfl⟩ := exists_cons_of_stops hhead hrun hstop (by simp [step])
  obtain ⟨p, hstep, hrun⟩ := run_cons_eq_some.mp hrun
  cases hstep
  have hbegin : comment.Inside [] := by simp [Inside, commentClose]
  have hread := inside_run hbegin hrun
  have hq := beginning?_run hrun
  cases q with
  | comment =>
    have hrest := hstop.eq_nil fun x next => by by_cases hx : x = '*' <;> simp [step, hx]
    exact Or.inr ⟨Or.inl rfl, inner, rfl, hread.1, hrest⟩
  | commentStar =>
    have hrest := hstop.eq_nil fun x next => by
      by_cases hx : x = '/' <;> by_cases hx' : x = '*' <;> simp [step, hx, hx']
    exact Or.inr ⟨Or.inr rfl, inner, rfl, hread.1, hrest⟩
  | commentEnd =>
    obtain ⟨inner, hinner, hclose⟩ := hread
    rw [List.nil_append] at hinner
    exact Or.inl ⟨rfl, inner, by rw [hinner], hclose⟩
  | commentSlash => exact hread.elim
  | _ => cases hq

theorem ends_rawString (hrun : raw.run taken rest.head? = some q) (hstop : q.StopsBefore rest) :
    (q = .rawEnd ∧ Kind.rawString.HasEnd ('`' :: taken) rest) ∨
      (q = .raw ∧ Kind.rawString.LacksEnd ('`' :: taken) rest) := by
  have hbegin : raw.Inside [] := List.not_mem_nil
  have hread := inside_run hbegin hrun
  have hq := beginning?_run hrun
  cases q with
  | raw =>
    have hrest := hstop.eq_nil fun x next => by by_cases hx : x = '`' <;> simp [step, hx]
    exact Or.inr ⟨rfl, taken, rfl, hread, hrest⟩
  | rawEnd =>
    obtain ⟨inner, hinner, hmark⟩ := hread
    rw [List.nil_append] at hinner
    exact Or.inl ⟨rfl, inner, by rw [hinner], hmark⟩
  | _ => cases hq

theorem ends_quoted {quote : Quote} (hrun : (quoted quote).run taken rest.head? = some q)
    (hstop : q.StopsBefore rest) :
    (q = .quotedEnd quote ∧ quote.HasEnd (quote.mark :: taken) rest) ∨
      ((q = .quoted quote ∨ q = .escape quote) ∧ quote.LacksEnd (quote.mark :: taken) rest) := by
  have hbegin : (quoted quote).Inside [] := Units.nil
  have hread := inside_run hbegin hrun
  have hq := beginning?_run hrun
  cases q with
  | quoted quote' =>
    cases hq
    have hend : AtLineEnd rest := hstop.atLineEnd fun x next hstep => by grind [step]
    refine Or.inr ⟨Or.inl rfl, taken, [], by simp, Or.inl rfl, hend, ?_⟩
    exact hread.isLongest fun others hothers => hothers.eq_nil_of_lineEnd (Or.inl rfl) hend
  | escape quote' =>
    cases hq
    obtain ⟨units, hunits, hread⟩ := hread
    rw [List.nil_append] at hunits
    have hend : AtLineEnd rest := hstop.atLineEnd fun x next hstep => by simpa [step] using hstep
    refine Or.inr ⟨Or.inr rfl, units, ['\\'], by rw [hunits], Or.inr rfl, hend, ?_⟩
    exact hread.isLongest fun others hothers => hothers.eq_nil_of_lineEnd (Or.inr rfl) hend
  | quotedEnd quote' =>
    cases hq
    obtain ⟨units, hunits, hread⟩ := hread
    rw [List.nil_append] at hunits
    refine Or.inl ⟨rfl, units, by rw [hunits], ?_⟩
    exact hread.isLongest fun others hothers => hothers.eq_nil_of_mark
  | _ => cases hq

/-- How far comments, strings and runes reach. They have a fault where their end is missing, and
    only there. -/
theorem ends_of_run (hrun : (start c (taken ++ rest)).run taken rest.head? = some q)
    (hstop : q.StopsBefore rest) (hkind : (q.kind text).isDelimited = true) :
    (q.fault? = none ∧ (q.kind text).HasEnd (c :: taken) rest) ∨
      (q.fault? ≠ none ∧ (q.kind text).LacksEnd (c :: taken) rest) := by
  obtain ⟨b, hb⟩ : ∃ b, q.beginning? = some b := by
    cases q with
    | word => cases hk : Keyword.ofSpelling? text <;> simp [kind, hk, Kind.isDelimited] at hkind
    | lineComment | commentSlash | comment | commentStar | commentEnd => exact ⟨_, rfl⟩
    | quoted | escape | quotedEnd | raw | rawEnd => exact ⟨_, rfl⟩
    | _ => cases hkind
  obtain ⟨hstart, hopens⟩ := opens_of_start ((beginning?_run hrun).symm.trans hb)
  rw [hstart] at hrun
  rcases hopens with ⟨rfl, rfl, hhead⟩ | ⟨rfl, rfl, hhead⟩ | ⟨quote, rfl, rfl⟩ | ⟨rfl, rfl⟩
  · obtain ⟨rfl, hend⟩ := hasEnd_lineComment hhead hrun hstop
    exact Or.inl ⟨rfl, hend⟩
  · rcases ends_blockComment hhead hrun hstop with ⟨rfl, hend⟩ | ⟨rfl | rfl, hlacks⟩
    · exact Or.inl ⟨rfl, hend⟩
    · exact Or.inr ⟨Option.some_ne_none _, hlacks⟩
    · exact Or.inr ⟨Option.some_ne_none _, hlacks⟩
  · rcases ends_quoted hrun hstop with ⟨rfl, hend⟩ | ⟨rfl | rfl, hlacks⟩
    · cases quote <;> exact Or.inl ⟨rfl, hend⟩
    · cases quote <;> exact Or.inr ⟨Option.some_ne_none _, hlacks⟩
    · cases quote <;> exact Or.inr ⟨Option.some_ne_none _, hlacks⟩
  · rcases ends_rawString hrun hstop with ⟨rfl, hend⟩ | ⟨rfl, hlacks⟩
    · exact Or.inl ⟨rfl, hend⟩
    · exact Or.inr ⟨Option.some_ne_none _, hlacks⟩

end Ends

end Phase

end Phase

section Lexeme

/-- A lexeme that has its end does not lack it. -/
theorem Kind.not_lacksEnd {kind : Kind} {chars rest : List Char} (h : kind.HasEnd chars rest) :
    ¬ kind.LacksEnd chars rest := by
  have hquote : ∀ quote : Quote, quote.HasEnd chars rest → ¬ quote.LacksEnd chars rest := by
    rintro quote ⟨units, rfl, hlongest⟩ ⟨units', slash, hchars, hslash, -, hlongest'⟩
    have hinner : units ++ [quote.mark] = units' ++ slash := (List.cons.inj hchars).2
    have htext : units ++ quote.mark :: rest = units' ++ (slash ++ rest) := by
      rw [← List.append_assoc, ← hinner, List.append_assoc]
      rfl
    rw [htext] at hlongest
    obtain rfl := hlongest.eq hlongest'
    have hmark : [quote.mark] = slash := List.append_cancel_left hinner
    rcases hslash with rfl | rfl
    · cases hmark
    · exact quote.mark_ne_slash (List.cons.inj hmark).1
  cases kind with
  | blockComment =>
    rintro ⟨inner', hchars, hclose, -⟩
    obtain ⟨inner, rfl, -⟩ := h
    have hinner : inner ++ commentClose = inner' := by simpa using hchars
    rw [← hinner] at hclose
    exact hclose (List.suffix_append inner commentClose).isInfix
  | rawString =>
    rintro ⟨inner', hchars, hmark, -⟩
    obtain ⟨inner, rfl, -⟩ := h
    have hinner : inner ++ ['`'] = inner' := by simpa using hchars
    rw [← hinner] at hmark
    exact hmark (by simp)
  | string => exact hquote .double h
  | rune => exact hquote .single h
  | lineComment => exact False.elim
  | _ => exact h.elim

variable {text : List Char} {ls : List Lexeme}

/-- How far a comment, string or rune reaches among the lexemes of a text. -/
theorem Cuts.ends (h : Cuts text ls) {before after : List Lexeme} {l : Lexeme}
    (hsplit : ls ++ [Lexeme.endOfInput] = before ++ l :: after)
    (hkind : l.kind.isDelimited = true) :
    (l.fault = none ∧ l.kind.HasEnd l.chars (after.flatMap Lexeme.chars)) ∨
      (l.fault ≠ none ∧ l.kind.LacksEnd l.chars (after.flatMap Lexeme.chars)) := by
  obtain ⟨rfl, -, -⟩ | ⟨inner, rfl, rfl⟩ := Lexeme.eq_endOfInput_or_split hsplit
  · cases hkind
  · obtain ⟨c, taken, q, rfl, hrun, hstop⟩ := h.exists_run_of_append
    rw [Lexeme.flatMap_chars_append_endOfInput, Lexeme.chars_finish, List.reverse_reverse]
    exact Phase.ends_of_run hrun hstop hkind

/-- Of the lexemes that have no end of their own, those with a fault are the stray ones. -/
theorem Cuts.fault_iff_stray (h : Cuts text ls) {l : Lexeme} (hl : l ∈ ls)
    (hkind : l.kind.isDelimited = false) : l.fault ≠ none ↔ l.kind = .stray := by
  obtain ⟨q, c, taken, rfl⟩ := h.exists_finish hl
  cases q with
  | word =>
    show none ≠ none ↔ (Keyword.ofSpelling? _).elim Kind.identifier Kind.keyword = .stray
    cases Keyword.ofSpelling? _ <;> simp
  | quoted quote | escape quote | quotedEnd quote => cases quote <;> cases hkind
  | lineComment | commentSlash | comment | commentStar | commentEnd | raw | rawEnd => cases hkind
  | _ => simp [Lexeme.finish, Phase.kind, Phase.fault?]

end Lexeme

end Semicolons
