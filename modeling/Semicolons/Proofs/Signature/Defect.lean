import Semicolons.Signature

/-!
# Defects of signatures

Reading a signature only moves forward in the sites: each part of it is a stretch of them, and what
follows is a suffix (`parameters?_suffix`, `afterResult_suffix`). `defect?_eq_some_iff` says what a
defect is in terms of these parts. It is always about one of the sites, a parenthesis that opens no
closed group or a brace behind a line feed (`defect?_cases`).
-/

namespace Semicolons

namespace Signature

variable {s : Site} {ss rest after : List Site}

theorem beginsWith_iff {mark : Punctuation} :
    beginsWith ss mark = true ↔ ∃ s rest, ss = s :: rest ∧ s.isMark mark = true := by
  cases ss <;> simp [beginsWith]

theorem beginsWithName_iff :
    beginsWithName ss = true ↔ ∃ s rest, ss = s :: rest ∧ s.kind = .identifier := by
  cases ss <;> simp [beginsWithName]

/-- A site is at most one mark. -/
theorem isMark_of_isMark_ne {mark mark' : Punctuation} (h : s.isMark mark = true)
    (hne : mark ≠ mark') : s.isMark mark' = false := by
  have hkind : s.token.kind = .punctuation mark := beq_iff_eq.mp h
  simp [Site.isMark, Token.isMark, hkind, hne]

theorem isMark_of_kind_eq {mark : Punctuation} (h : s.kind = .identifier) :
    s.isMark mark = false := by
  have hkind : s.token.kind = .identifier := h
  simp [Site.isMark, Token.isMark, hkind]

theorem afterGroup?_cons (s : Site) (rest : List Site) :
    afterGroup? (s :: rest) = s.inside.map fun n => rest.drop (n + 1) :=
  rfl

theorem afterGroup?_suffix (h : afterGroup? ss = some rest) : rest <:+ ss := by
  cases ss with
  | nil => cases h
  | cons s tail =>
    obtain ⟨n, -, rfl⟩ := Option.map_eq_some_iff.mp h
    exact (List.drop_suffix (n + 1) tail).trans (List.suffix_cons s tail)

section Parameters

variable {tail : List Site}

/-- Parameters behind a name are right there, or behind the type parameters. -/
theorem namedParameters?_eq_some_iff : namedParameters? ss = some rest ↔
    ∃ n tail, ss = n :: tail ∧ n.kind = .identifier ∧ beginsWith rest .lParen = true ∧
      (tail = rest ∨ beginsWith tail .lBracket = true ∧ afterGroup? tail = some rest) := by
  unfold namedParameters?
  cases ss with
  | nil => simp [beginsWithName]
  | cons n tail =>
    by_cases hname : n.kind = .identifier
    · rw [if_pos (beginsWithName_iff.mpr ⟨n, tail, rfl, hname⟩)]
      show Option.filter _ (if beginsWith tail .lBracket then afterGroup? tail else some tail) = _ ↔ _
      rw [Option.filter_eq_some_iff]
      constructor
      · rintro ⟨hfound, hbegin⟩
        refine ⟨n, tail, rfl, hname, hbegin, ?_⟩
        split at hfound
        · next hbracket => exact Or.inr ⟨hbracket, hfound⟩
        · exact Or.inl (Option.some.inj hfound)
      · rintro ⟨n', tail', hsplit, -, hbegin, htail⟩
        obtain ⟨rfl, rfl⟩ := List.cons.inj hsplit
        refine ⟨?_, hbegin⟩
        rcases htail with rfl | ⟨hbracket, hgroup⟩
        · obtain ⟨s, rest, rfl, hmark⟩ := beginsWith_iff.mp hbegin
          have hother : beginsWith (s :: rest) .lBracket = false :=
            isMark_of_isMark_ne hmark (by decide)
          rw [hother]
          rfl
        · rw [if_pos hbracket, hgroup]
    · have hother : beginsWithName (n :: tail) = false := by simp [beginsWithName, hname]
      simp [hother, hname]

theorem namedParameters?_suffix (h : namedParameters? ss = some rest) :
    rest <:+ ss ∧ beginsWith rest .lParen = true := by
  obtain ⟨n, tail, rfl, -, hbegin, htail⟩ := namedParameters?_eq_some_iff.mp h
  refine ⟨?_, hbegin⟩
  rcases htail with rfl | ⟨-, hgroup⟩
  · exact List.suffix_cons n tail
  · exact (afterGroup?_suffix hgroup).trans (List.suffix_cons n tail)

theorem parameters?_unclosed (hs : s.isMark .lParen = true)
    (hgroup : afterGroup? (s :: tail) = none) : parameters? (s :: tail) = .error s.token := by
  simp [parameters?, hs, hgroup]

theorem parameters?_receiver (hs : s.isMark .lParen = true)
    (hgroup : afterGroup? (s :: tail) = some after) (hfollow : followReceiver after = true) :
    parameters? (s :: tail) = .ok (namedParameters? after) := by
  simp [parameters?, hs, hgroup, hfollow]

theorem parameters?_unnamed (hs : s.isMark .lParen = true)
    (hgroup : afterGroup? (s :: tail) = some after) (hfollow : followReceiver after = false) :
    parameters? (s :: tail) = .ok (some (s :: tail)) := by
  simp [parameters?, hs, hgroup, hfollow]

theorem parameters?_named (hs : s.isMark .lParen = false) :
    parameters? (s :: tail) = .ok (namedParameters? (s :: tail)) := by
  simp [parameters?, hs]

/-- The ways in which parameters are looked for, with the answer of each. -/
theorem parameters?_cases (s : Site) (tail : List Site) :
    (s.isMark .lParen = true ∧ afterGroup? (s :: tail) = none ∧
        parameters? (s :: tail) = .error s.token) ∨
      (∃ after, s.isMark .lParen = true ∧ afterGroup? (s :: tail) = some after ∧
        followReceiver after = true ∧ parameters? (s :: tail) = .ok (namedParameters? after)) ∨
      (∃ after, s.isMark .lParen = true ∧ afterGroup? (s :: tail) = some after ∧
        followReceiver after = false ∧ parameters? (s :: tail) = .ok (some (s :: tail))) ∨
      (s.isMark .lParen = false ∧
        parameters? (s :: tail) = .ok (namedParameters? (s :: tail))) := by
  cases hs : s.isMark .lParen with
  | false => exact Or.inr (Or.inr (Or.inr ⟨rfl, parameters?_named hs⟩))
  | true =>
    cases hgroup : afterGroup? (s :: tail) with
    | none => exact Or.inl ⟨rfl, rfl, parameters?_unclosed hs hgroup⟩
    | some after =>
      cases hfollow : followReceiver after with
      | true =>
        exact Or.inr (Or.inl ⟨after, rfl, rfl, hfollow, parameters?_receiver hs hgroup hfollow⟩)
      | false =>
        exact Or.inr (Or.inr (Or.inl
          ⟨after, rfl, rfl, hfollow, parameters?_unnamed hs hgroup hfollow⟩))

/-- Parameters are a stretch of the sites that begins with a parenthesis. -/
theorem parameters?_suffix (h : parameters? ss = .ok (some rest)) :
    rest <:+ ss ∧ beginsWith rest .lParen = true := by
  cases ss with
  | nil => cases h
  | cons s tail =>
    rcases parameters?_cases s tail with ⟨-, -, heq⟩ | ⟨after, -, hgroup, -, heq⟩ |
      ⟨after, hs, -, -, heq⟩ | ⟨-, heq⟩
    · rw [heq] at h
      cases h
    · rw [heq] at h
      obtain ⟨hsuffix, hbegin⟩ := namedParameters?_suffix (Except.ok.inj h)
      exact ⟨hsuffix.trans (afterGroup?_suffix hgroup), hbegin⟩
    · rw [heq] at h
      obtain rfl : s :: tail = rest := Option.some.inj (Except.ok.inj h)
      exact ⟨List.suffix_refl _, beginsWith_iff.mpr ⟨s, tail, rfl, hs⟩⟩
    · rw [heq] at h
      exact namedParameters?_suffix (Except.ok.inj h)

/-- It is an error only if the parenthesis that begins the sites is never closed. -/
theorem parameters?_eq_error {opener : Token} (h : parameters? ss = .error opener) :
    ∃ s rest, ss = s :: rest ∧ s.token = opener ∧ s.isMark .lParen = true ∧
      afterGroup? (s :: rest) = none := by
  cases ss with
  | nil => cases h
  | cons s tail =>
    rcases parameters?_cases s tail with ⟨hs, hgroup, heq⟩ | ⟨after, -, -, -, heq⟩ |
      ⟨after, -, -, -, heq⟩ | ⟨-, heq⟩
    · rw [heq] at h
      exact ⟨s, tail, rfl, Except.error.inj h, hs, hgroup⟩
    all_goals
      rw [heq] at h
      cases h

end Parameters

section Result

/-- The words and marks that belong to a result on their own. -/
def resultKinds : List Kind :=
  [.identifier, .keyword .map, .keyword .chan, .keyword .func, .punctuation .dot,
    .punctuation .star, .punctuation .arrow]

/-- The sites after the part of a result that the site `s` begins in front of `rest`. -/
def afterPart? (s : Site) (rest : List Site) : Option (List Site) :=
  (resultPart? s rest).map rest.drop

/-- A part of a result is a word or a mark, a group in parentheses or brackets, or the keyword
    and the group of a type with fields. -/
theorem afterPart?_eq_some_iff : afterPart? s rest = some after ↔
    s.kind ∈ resultKinds ∧ rest = after ∨
    (s.isMark .lParen = true ∨ s.isMark .lBracket = true) ∧ afterGroup? (s :: rest) = some after ∨
    (s.kind = .keyword .struct ∨ s.kind = .keyword .interface) ∧
      beginsWith rest .lBrace = true ∧ afterGroup? rest = some after := by
  have hmark : ∀ mark, s.isMark mark = true ↔ s.kind = .punctuation mark := fun _ => beq_iff_eq
  have hgroup : (s.inside.map (· + 1)).map rest.drop = afterGroup? (s :: rest) := by
    rw [Option.map_map]
    rfl
  rw [hmark, hmark, afterPart?]
  unfold resultPart?
  split
  case h_8 hk | h_9 hk =>
    rw [hgroup]
    simp [resultKinds, hk]
  case h_10 hk | h_11 hk =>
    cases rest with
    | nil => simp [resultKinds, hk, beginsWith]
    | cons brace rest =>
      cases hbrace : brace.isMark .lBrace <;> cases hinside : brace.inside <;>
        simp [resultKinds, hk, beginsWith, hbrace, hinside, afterGroup?]
  case h_12 => simp_all [resultKinds]
  all_goals next hk => simp [resultKinds, hk]

theorem afterPart?_suffix (h : afterPart? s rest = some after) : after <:+ rest := by
  obtain ⟨n, -, rfl⟩ := Option.map_eq_some_iff.mp h
  exact List.drop_suffix n rest

/-- No result goes on with a brace or a semicolon. -/
theorem afterPart?_eq_none {mark : Punctuation} (h : s.isMark mark = true)
    (hmark : mark = .lBrace ∨ mark = .semicolon) : afterPart? s rest = none := by
  have hkind : s.kind = .punctuation mark := beq_iff_eq.mp h
  rcases hmark with rfl | rfl <;> simp [afterPart?, resultPart?, hkind]

/-- Passing over sites of a result is dropping them. -/
theorem afterResult_eq_drop (skip : Nat) (ss : List Site) :
    afterResult skip ss = afterResult 0 (ss.drop skip) := by
  induction ss generalizing skip with
  | nil => simp [afterResult]
  | cons s rest ih =>
    cases skip with
    | zero => rfl
    | succ skip => exact ih skip

/-- A result ends in front of a line feed, and in front of what is no part of it. -/
theorem afterResult_cons (s : Site) (rest : List Site) :
    afterResult 0 (s :: rest) =
      if s.followsLineFeed then s :: rest
      else match afterPart? s rest with
        | none => s :: rest
        | some after => afterResult 0 after := by
  rw [afterResult, afterPart?]
  split
  · rfl
  · cases resultPart? s rest with
    | none => rfl
    | some more => exact afterResult_eq_drop more rest

theorem afterResult_lineFeed (h : s.followsLineFeed = true) :
    afterResult 0 (s :: rest) = s :: rest := by
  rw [afterResult_cons, if_pos h]

theorem afterResult_stop (h : afterPart? s rest = none) : afterResult 0 (s :: rest) = s :: rest := by
  rw [afterResult_cons, h]
  split <;> rfl

theorem afterResult_part (hfeed : s.followsLineFeed = false) (h : afterPart? s rest = some after) :
    afterResult 0 (s :: rest) = afterResult 0 after := by
  rw [afterResult_cons, h, hfeed]
  rfl

theorem afterResult_suffix (skip : Nat) (ss : List Site) : afterResult skip ss <:+ ss := by
  induction ss generalizing skip with
  | nil => exact List.suffix_refl _
  | cons s rest ih =>
    have hstep : ∀ n, afterResult n rest <:+ s :: rest :=
      fun n => (ih n).trans (List.suffix_cons s rest)
    cases skip with
    | succ skip => exact hstep skip
    | zero =>
      rw [afterResult]
      split
      · exact List.suffix_refl _
      · cases resultPart? s rest with
        | none => exact List.suffix_refl _
        | some more => exact hstep more

/-- In front of a line feed, a result ends before it begins. -/
theorem bodyAfter_eq (ss : List Site) : bodyAfter ss = afterResult 0 ss := by
  unfold bodyAfter
  split
  · next h =>
    cases ss with
    | nil => rfl
    | cons s rest => exact (afterResult_lineFeed h).symm
  · rfl

end Result

/-- A signature is defective if the parenthesis of a receiver or of the parameters is never
    closed, or if a brace behind a line feed follows the result. -/
theorem defect?_eq_some_iff {d : Defect} : defect? ss = some d ↔
    (∃ opener, parameters? ss = .error opener ∧ d = .unclosedParenthesis opener) ∨
    (∃ opener tail, parameters? ss = .ok (some (opener :: tail)) ∧
      afterGroup? (opener :: tail) = none ∧ d = .unclosedParenthesis opener.token) ∨
    ∃ parameters after brace rest, parameters? ss = .ok (some parameters) ∧
      afterGroup? parameters = some after ∧ afterResult 0 after = brace :: rest ∧
      brace.isMark .lBrace = true ∧ brace.followsLineFeed = true ∧
      d = .detachedBody brace.token := by
  unfold defect?
  cases hp : parameters? ss with
  | error opener => simp [@eq_comm _ d]
  | ok found =>
    cases found with
    | none => simp
    | some parameters =>
      obtain ⟨-, hbegin⟩ := parameters?_suffix hp
      obtain ⟨opener, tail, rfl, -⟩ := beginsWith_iff.mp hbegin
      cases hgroup : afterGroup? (opener :: tail) with
      | none => simp [hgroup, @eq_comm _ d, and_assoc]
      | some after =>
        simp only [bodyAfter_eq]
        cases hbody : afterResult 0 after with
        | nil => simp [hgroup, hbody]
        | cons brace rest => simp [hgroup, hbody, @eq_comm _ d, and_assoc]

/-- A defect is about a site: a parenthesis that opens no closed group, or a brace behind a line
    feed. -/
theorem defect?_cases {d : Defect} (h : defect? ss = some d) :
    ∃ s ∈ ss, (d = .unclosedParenthesis s.token ∧ s.isMark .lParen = true ∧ s.inside = none) ∨
      (d = .detachedBody s.token ∧ s.isMark .lBrace = true ∧ s.followsLineFeed = true) := by
  rcases defect?_eq_some_iff.mp h with ⟨opener, hp, rfl⟩ | ⟨opener, tail, hp, hgroup, rfl⟩ |
    ⟨parameters, after, brace, rest, hp, hgroup, hbody, hmark, hfeed, rfl⟩
  · obtain ⟨s, rest, rfl, rfl, hmark, hgroup⟩ := parameters?_eq_error hp
    exact ⟨s, List.mem_cons_self, Or.inl ⟨rfl, hmark, Option.map_eq_none_iff.mp hgroup⟩⟩
  · obtain ⟨hsuffix, hbegin⟩ := parameters?_suffix hp
    exact ⟨opener, hsuffix.subset List.mem_cons_self,
      Or.inl ⟨rfl, hbegin, Option.map_eq_none_iff.mp hgroup⟩⟩
  · have hmem : brace ∈ afterResult 0 after := by
      rw [hbody]
      exact List.mem_cons_self
    have hafter := (afterResult_suffix 0 after).subset hmem
    have hss := (parameters?_suffix hp).1.subset ((afterGroup?_suffix hgroup).subset hafter)
    exact ⟨brace, hss, Or.inr ⟨rfl, hmark, hfeed⟩⟩

/-- The defects of a stream are those of the signatures behind each `func`. -/
theorem mem_defects {d : Defect} :
    d ∈ defects ss ↔ ∃ before s rest, ss = before ++ s :: rest ∧ s.kind = .keyword .func ∧
      defect? rest = some d := by
  induction ss with
  | nil => simp [defects]
  | cons s ss ih =>
    constructor
    · intro h
      have hcases : (s.kind = .keyword .func ∧ defect? ss = some d) ∨ d ∈ defects ss := by
        unfold defects at h
        split at h
        · next hfunc =>
          rcases List.mem_append.mp h with h | h
          · exact Or.inl ⟨hfunc, Option.mem_toList.mp h⟩
          · exact Or.inr h
        · exact Or.inr h
      rcases hcases with ⟨hfunc, hd⟩ | hd
      · exact ⟨[], s, ss, rfl, hfunc, hd⟩
      · obtain ⟨before, s', rest, rfl, hfunc, hd⟩ := ih.mp hd
        exact ⟨s :: before, s', rest, rfl, hfunc, hd⟩
    · rintro ⟨before, s', rest, hsplit, hfunc, hd⟩
      unfold defects
      cases before with
      | nil =>
        obtain ⟨rfl, rfl⟩ := List.cons.inj hsplit
        rw [if_pos hfunc, hd]
        exact List.mem_cons_self
      | cons b before =>
        obtain ⟨-, rfl⟩ := List.cons.inj hsplit
        have hrest := ih.mpr ⟨before, s', rest, rfl, hfunc, hd⟩
        split
        · exact List.mem_append_right _ hrest
        · exact hrest

end Signature

end Semicolons
