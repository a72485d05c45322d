import Mathlib.Order.Bounds.Basic
import Semicolons.Proofs.Nesting.Word
import Semicolons.Proofs.Place.Visible
import Semicolons.Proofs.Site.Counting

/-!
# Parentheses ahead of a place

From a place, the parenthesis that closes a group is looked for by its number, past layout and past
the groups inside, but not past the end of the input. Among the visible tokens in front of that end
it is the bracket that closes the group (`closingNumber?_eq`). So it has the least number at which
the closing parentheses outnumber the opening ones (`answersByCount_ofIndex`).
-/

namespace Semicolons

theorem le_length_takeWhile_iff {α : Type} {p : α → Bool} {l : List α} {n : Nat} :
    n ≤ (l.takeWhile p).length ↔ n ≤ l.length ∧ ∀ x ∈ l.take n, p x = true := by
  induction l generalizing n with
  | nil => simp
  | cons x l ih =>
    cases n with
    | zero => simp
    | succ n =>
      by_cases hx : p x = true
      · simp [hx, ih]
      · simp [hx]

/-- The tokens in front of the one that ends the input. -/
def beforeEnd (ts : List Token) : List Token :=
  ts.takeWhile (!·.isEnd)

theorem beforeEnd_cons_of_end {t : Token} (h : t.isEnd = true) (ts : List Token) :
    beforeEnd (t :: ts) = [] := by
  simp [beforeEnd, h]

theorem beforeEnd_cons {t : Token} (h : t.isEnd = false) (ts : List Token) :
    beforeEnd (t :: ts) = t :: beforeEnd ts := by
  simp [beforeEnd, h]

theorem exists_append_beforeEnd (ts : List Token) : ∃ behind, ts = beforeEnd ts ++ behind := by
  obtain ⟨behind, hbehind⟩ := List.takeWhile_prefix (l := ts) (!·.isEnd)
  exact ⟨behind, hbehind.symm⟩

theorem isEnd_of_mem_beforeEnd {ts : List Token} {t : Token} (h : t ∈ beforeEnd ts) :
    t.isEnd = false := by
  simpa using List.all_eq_true.mp List.all_takeWhile t h

/-- A mark does not end the input. -/
theorem isEnd_of_isMark {t : Token} {mark : Punctuation} (h : t.isMark mark = true) :
    t.isEnd = false := by
  rw [Lexeme.isEnd, beq_iff_eq.mp h]
  rfl

namespace Place

section ClosingNumber

variable {t : Token} {rest : List Token} {depth k : Nat}

theorem closingNumber?_hidden (h : t.isHidden = true) :
    closingNumber? depth k (t :: rest) = closingNumber? depth k rest := by
  cases depth <;> simp [closingNumber?, h]

theorem closingNumber?_end (hvisible : t.isHidden = false) (hend : t.isEnd = true) :
    closingNumber? depth k (t :: rest) = none := by
  cases depth <;> simp [closingNumber?, hvisible, hend]

/-- Past a visible token the search goes on with the next number, unless that token closes the
    group. -/
theorem closingNumber?_visible (hvisible : t.isHidden = false) (hend : t.isEnd = false) :
    closingNumber? depth k (t :: rest) =
      if depth = 0 ∧ t.kind.bracket? = some (.closing, .round) then some (k + 1)
      else closingNumber? (depthBehind .round t.kind depth) (k + 1) rest := by
  by_cases hopening : t.kind.bracket? = some (.opening, .round)
  · have hmark : t.isMark .lParen = true := isMark_opening_iff.mpr hopening
    cases depth <;> simp [closingNumber?, depthBehind, hvisible, hend, hmark, hopening]
  · have hopen : t.isMark .lParen = false :=
      Bool.eq_false_iff.mpr fun h => hopening (isMark_opening_iff.mp h)
    by_cases hclosing : t.kind.bracket? = some (.closing, .round)
    · have hmark : t.isMark .rParen = true := isMark_rParen_iff.mpr hclosing
      cases depth <;>
        simp [closingNumber?, depthBehind, hvisible, hend, hopen, hmark, hclosing]
    · have hmark : t.isMark .rParen = false :=
        Bool.eq_false_iff.mpr fun h => hclosing (isMark_rParen_iff.mp h)
      cases depth <;>
        simp [closingNumber?, depthBehind, hvisible, hend, hopen, hmark, hopening, hclosing]

/-- The parenthesis that closes a group is the bracket that closes it, among the visible tokens in
    front of the end of the input. -/
theorem closingNumber?_eq (depth k : Nat) (ts : List Token) :
    closingNumber? depth k ts =
      (closer? .round depth ((beforeEnd (visibleTokens ts)).map (·.kind))).map (k + 1 + ·) := by
  induction ts generalizing depth k with
  | nil => cases depth <;> rfl
  | cons t rest ih =>
    by_cases ht : t.isHidden = true
    · rw [closingNumber?_hidden ht, ih, visibleTokens_hidden ht]
    · have hvisible : t.isHidden = false := by simpa using ht
      rw [visibleTokens_visible hvisible]
      by_cases hend : t.isEnd = true
      · rw [closingNumber?_end hvisible hend, beforeEnd_cons_of_end hend]
        rfl
      · have hend : t.isEnd = false := by simpa using hend
        rw [closingNumber?_visible hvisible hend, beforeEnd_cons hend, List.map_cons]
        by_cases hstop : depth = 0 ∧ t.kind.bracket? = some (.closing, .round)
        · rw [if_pos hstop, hstop.1, closer?_closing_zero hstop.2]
          rfl
        · rw [if_neg hstop, ih, closer?_next hstop, Option.map_map]
          congr 1
          funext n
          show k + 1 + 1 + n = k + 1 + (n + 1)
          omega

end ClosingNumber

/-- The visible token with the given number. -/
def visibleToken? (p : Place) (k : Nat) : Option Token :=
  (p.visible? k).bind token?

/-- What is said of the token with a number: nothing unless it is an opening parenthesis, and else
    where the search among the tokens behind it ends. -/
theorem closingParenthesis?_cases (p : Place) (k : Nat) :
    ((∀ t, p.visibleToken? k = some t → t.isMark .lParen = false) ∧
      p.closingParenthesis? k = .ok none) ∨
    ∃ first t second, visibleTokens p.ahead = first ++ t :: second ∧ first.length + 1 = k ∧
      (∀ x ∈ first, x.isEnd = false) ∧ p.visibleToken? k = some t ∧ t.isMark .lParen = true ∧
      p.closingParenthesis? k =
        match closer? .round 0 ((beforeEnd second).map (·.kind)) with
        | some n => .ok (some (k + 1 + n))
        | none => .error t := by
  unfold visibleToken? closingParenthesis?
  cases hq : p.visible? k with
  | none => exact Or.inl ⟨by simp, rfl⟩
  | some q =>
    cases k with
    | zero => simp [visible?, seek] at hq
    | succ j =>
      obtain ⟨passed, t, rest, hsplit, ⟨hvisible, hfirst, hnumber⟩, rfl⟩ := seek_eq_some_iff.mp hq
      by_cases hopening : t.isMark .lParen = true
      · right
        have hlength : (visibleTokens passed).length = j := by
          rcases hnumber with hlength | ⟨-, htrue⟩
          · exact hlength
          · rw [isEnd_of_isMark hopening] at htrue
            cases htrue
        refine ⟨visibleTokens passed, t, visibleTokens rest, ?_, by rw [hlength], hfirst, rfl,
          hopening, ?_⟩
        · rw [hsplit, ← visibleTokens_visible hvisible]
          exact List.filter_append passed (t :: rest)
        · simp only [hopening, if_true, closingNumber?_eq]
          cases closer? .round 0 ((beforeEnd (visibleTokens rest)).map (·.kind)) <;> rfl
      · left
        have hopening : t.isMark .lParen = false := by simpa using hopening
        simp [token?, hopening]

end Place

/-- Of visible tokens that are counted from one, those with the numbers from `k + 1` to `m` close
    one parenthesis more than they open, and none of them ends the input. -/
def ClosesParenthesis (ts : List Token) (k m : Nat) : Prop :=
  k < m ∧ m ≤ ts.length ∧ (∀ t ∈ (ts.take m).drop k, t.isEnd = false) ∧
    ((ts.take m).drop k).countP (·.isMark .rParen) =
      ((ts.take m).drop k).countP (·.isMark .lParen) + 1

/-- Tokens that are brackets by their marks are counted as brackets by their kinds. -/
theorem countP_isMark {mark : Punctuation} {side : Side} {b : Bracket}
    (h : ∀ t : Token, t.isMark mark = true ↔ t.kind.bracket? = some (side, b)) (ts : List Token) :
    ts.countP (·.isMark mark) = countBrackets side b (ts.map (·.kind)) := by
  rw [countBrackets, List.countP_map]
  congr 1
  funext t
  exact Bool.eq_iff_iff.mpr ((h t).trans decide_eq_true_iff.symm)

/-- Counting behind a number is counting in what stands behind the token with that number. -/
theorem closesParenthesis_iff {first second : List Token} {t : Token} {k : Nat}
    (hk : first.length + 1 = k) (m : Nat) : ClosesParenthesis (first ++ t :: second) k m ↔
      ∃ n, m = k + 1 + n ∧ ClosesAt .round 0 ((beforeEnd second).map (·.kind)) n := by
  have hsegment : ∀ n, ((first ++ t :: second).take (k + 1 + n)).drop k = second.take (n + 1) := by
    intro n
    rw [List.drop_take, ← hk, ← List.singleton_append, ← List.append_assoc, List.drop_left']
    · congr 1
      omega
    · simp
  have hbefore : ∀ n, n + 1 ≤ (beforeEnd second).length ↔
      n + 1 ≤ second.length ∧ ∀ x ∈ second.take (n + 1), x.isEnd = false := by
    intro n
    rw [beforeEnd, le_length_takeWhile_iff]
    simp only [Bool.not_eq_true']
  have htake : ∀ n, n + 1 ≤ (beforeEnd second).length →
      (beforeEnd second).take (n + 1) = second.take (n + 1) := by
    intro n hn
    obtain ⟨behind, hbehind⟩ := exists_append_beforeEnd second
    conv_rhs => rw [hbehind]
    exact (List.take_append_of_le_length hn).symm
  have hopening : ∀ t : Token,
      t.isMark .lParen = true ↔ t.kind.bracket? = some (.opening, .round) :=
    fun t => isMark_opening_iff (b := .round)
  simp only [ClosesParenthesis, ClosesAt, countP_isMark hopening,
    countP_isMark fun t => isMark_rParen_iff]
  constructor
  · rintro ⟨hlt, hlength, hend, hcount⟩
    obtain ⟨n, rfl⟩ := Nat.exists_eq_add_of_le (Nat.succ_le_of_lt hlt)
    rw [Nat.succ_eq_add_one, hsegment] at hend hcount
    have hn : n + 1 ≤ (beforeEnd second).length := by
      refine (hbefore n).mpr ⟨?_, hend⟩
      simp only [List.length_append, List.length_cons] at hlength
      omega
    refine ⟨n, rfl, by rwa [List.length_map], ?_⟩
    rw [← List.map_take, htake n hn, hcount]
  · rintro ⟨n, rfl, hn, hcount⟩
    rw [List.length_map] at hn
    obtain ⟨hlength, hend⟩ := (hbefore n).mp hn
    rw [← List.map_take, htake n hn] at hcount
    rw [hsegment]
    refine ⟨by omega, ?_, hend, hcount⟩
    simp only [List.length_append, List.length_cons]
    omega

namespace Place

/-- Where the parenthesis that closes a group is found: for the token with the number `k` in front
    of a place, where the visible tokens `ahead` come. -/
structure FindsByCount (p : Place) (ahead : List Token) (k : Nat) : Prop where
  /-- Nothing is looked for behind any other token. -/
  other : p.closingParenthesis? k = .ok none ↔
    ∀ t, p.visibleToken? k = some t → t.isMark .lParen = false
  /-- The number that is found is the least one at which the count is right. -/
  closed : ∀ m, p.closingParenthesis? k = .ok (some m) ↔
    (∃ t, p.visibleToken? k = some t ∧ t.isMark .lParen = true) ∧
      IsLeast {m | ClosesParenthesis ahead k m} m
  /-- The token with that number is the parenthesis at which it is. -/
  closer : ∀ m, p.closingParenthesis? k = .ok (some m) →
    ∃ t, p.visibleToken? m = some t ∧ ahead[m - 1]? = some t ∧ t.isMark .rParen = true
  /-- It is an error if the count is never right. -/
  unclosed : ∀ t, p.closingParenthesis? k = .error t ↔
    p.visibleToken? k = some t ∧ t.isMark .lParen = true ∧ ∀ m, ¬ ClosesParenthesis ahead k m

/-- Whether the line goes on behind a group, too, is asked where the count is right. -/
structure AnswersByCount (p : Place) (ahead : List Token) (k : Nat) : Prop
    extends FindsByCount p ahead k where
  line_other : p.closingParenthesis? k = .ok none → p.continuesAfterGroup k = .ok true
  line_unclosed : ∀ t, p.closingParenthesis? k = .error t → p.continuesAfterGroup k = .error t
  line_closed : ∀ m, p.closingParenthesis? k = .ok (some m) →
    ∃ b, p.continuesAfterGroup k = .ok b ∧
      (b = true ↔ ∀ q, p.visible? (m + 1) = some q → ∀ g ∈ q.gap, '\n' ∉ g.chars)

theorem followsLineFeed_eq_false_iff {q : Place} :
    q.followsLineFeed = false ↔ ∀ g ∈ q.gap, '\n' ∉ g.chars := by
  simp [followsLineFeed, Lexeme.hasLineFeed]

theorem continuesLine_iff {p : Place} {k : Nat} :
    p.continuesLine k = true ↔ ∀ q, p.visible? k = some q → ∀ g ∈ q.gap, '\n' ∉ g.chars := by
  rw [continuesLine, Option.all_eq_true]
  simp only [Bool.not_eq_true', followsLineFeed_eq_false_iff]

/-- The parenthesis that closes the one with a number is found by its own number, and stands among
    the visible tokens where that number says. -/
theorem exists_closing_of_closer {p : Place} {first second : List Token} {t : Token} {k n : Nat}
    (hahead : visibleTokens p.ahead = first ++ t :: second) (hk : first.length + 1 = k)
    (hfirst : ∀ x ∈ first, x.isEnd = false) (ht : t.isMark .lParen = true)
    (hn : closer? .round 0 ((beforeEnd second).map (·.kind)) = some n) :
    ∃ c, p.visibleToken? (k + 1 + n) = some c ∧ (visibleTokens p.ahead)[k + n]? = some c ∧
      c.isMark .rParen = true := by
  obtain ⟨kinds, kind, others, hkinds, hlength, hclosing⟩ := exists_closing_of_closer? hn
  obtain ⟨inner, behind, hsplit, rfl, hbehind⟩ := List.map_eq_append_iff.mp hkinds
  obtain ⟨c, after, rfl, rfl, -⟩ := List.map_eq_cons_iff.mp hbehind
  rw [List.length_map] at hlength
  obtain ⟨more, hmore⟩ := exists_append_beforeEnd second
  have hahead' : visibleTokens p.ahead = (first ++ t :: inner) ++ c :: (after ++ more) := by
    rw [hahead, hmore, hsplit]
    simp
  have hnumber : k + n = (first ++ t :: inner).length := by
    rw [List.length_append, List.length_cons]
    omega
  have hend : ∀ x ∈ first ++ t :: inner, x.isEnd = false := by
    intro x hx
    rcases List.mem_append.mp hx with hx | hx
    · exact hfirst x hx
    · rcases List.mem_cons.mp hx with rfl | hx
      · exact isEnd_of_isMark ht
      · have hmem : x ∈ beforeEnd second := by simp [hsplit, hx]
        exact isEnd_of_mem_beforeEnd hmem
  obtain ⟨passed, rest, -, -, -, hvisible⟩ := visible?_of_visibleTokens hahead' hend
  refine ⟨c, ?_, ?_, isMark_rParen_iff.mpr hclosing⟩
  · rw [Nat.add_right_comm, hnumber, visibleToken?, hvisible]
    rfl
  · rw [hahead', hnumber]
    simp

section Cases

variable {p : Place} {k : Nat}

theorem findsByCount_of_other (hother : ∀ t, p.visibleToken? k = some t → t.isMark .lParen = false)
    (hanswer : p.closingParenthesis? k = .ok none) :
    FindsByCount p (visibleTokens p.ahead) k := by
  have hnone : ∀ t, ¬ (p.visibleToken? k = some t ∧ t.isMark .lParen = true) := by
    rintro t ⟨ht, hopening⟩
    rw [hother t ht] at hopening
    cases hopening
  exact {
    other := iff_of_true hanswer hother
    closed := fun m => iff_of_false (by simp [hanswer]) fun ⟨⟨t, ht⟩, _⟩ => hnone t ht
    closer := fun m h => by simp [hanswer] at h
    unclosed := fun t => iff_of_false (by simp [hanswer]) fun ⟨ht, hopening, _⟩ =>
      hnone t ⟨ht, hopening⟩ }

variable {t : Token}

theorem not_other (ht : p.visibleToken? k = some t) (hopening : t.isMark .lParen = true) :
    ¬ ∀ t, p.visibleToken? k = some t → t.isMark .lParen = false := by
  intro h
  rw [h t ht] at hopening
  cases hopening

theorem findsByCount_of_closed {c : Token} {m : Nat} (ht : p.visibleToken? k = some t)
    (hopening : t.isMark .lParen = true) (hanswer : p.closingParenthesis? k = .ok (some m))
    (hleast : IsLeast {m | ClosesParenthesis (visibleTokens p.ahead) k m} m)
    (hc : p.visibleToken? m = some c) (hplace : (visibleTokens p.ahead)[m - 1]? = some c)
    (hclosing : c.isMark .rParen = true) : FindsByCount p (visibleTokens p.ahead) k where
  other := iff_of_false (by simp [hanswer]) (not_other ht hopening)
  closed := by
    intro m'
    rw [hanswer]
    constructor
    · rintro ⟨⟩
      exact ⟨⟨t, ht, hopening⟩, hleast⟩
    · rintro ⟨-, hleast'⟩
      rw [hleast.unique hleast']
  closer := by
    intro m' h
    rw [hanswer] at h
    cases h
    exact ⟨c, hc, hplace, hclosing⟩
  unclosed := fun x => iff_of_false (by simp [hanswer]) fun ⟨_, _, h⟩ => h m hleast.1

theorem findsByCount_of_unclosed (ht : p.visibleToken? k = some t)
    (hopening : t.isMark .lParen = true) (hanswer : p.closingParenthesis? k = .error t)
    (hnever : ∀ m, ¬ ClosesParenthesis (visibleTokens p.ahead) k m) :
    FindsByCount p (visibleTokens p.ahead) k where
  other := iff_of_false (by simp [hanswer]) (not_other ht hopening)
  closed := fun m => iff_of_false (by simp [hanswer]) fun ⟨_, h⟩ => hnever m h.1
  closer := fun m h => by simp [hanswer] at h
  unclosed := by
    intro x
    rw [hanswer, ht]
    constructor
    · rintro ⟨⟩
      exact ⟨rfl, hopening, hnever⟩
    · rintro ⟨h, -⟩
      rw [Option.some.inj h]

end Cases

theorem findsByCount (p : Place) (k : Nat) : FindsByCount p (visibleTokens p.ahead) k := by
  rcases closingParenthesis?_cases p k with ⟨hother, hanswer⟩ |
    ⟨first, t, second, hahead, hk, hfirst, ht, hopening, hanswer⟩
  · exact findsByCount_of_other hother hanswer
  · have hcount : ∀ m, ClosesParenthesis (first ++ t :: second) k m ↔
        ∃ n, m = k + 1 + n ∧ ClosesAt .round 0 ((beforeEnd second).map (·.kind)) n :=
      closesParenthesis_iff hk
    rw [← hahead] at hcount
    cases hn : closer? .round 0 ((beforeEnd second).map (·.kind)) with
    | none =>
      rw [hn] at hanswer
      refine findsByCount_of_unclosed ht hopening hanswer fun m hm => ?_
      obtain ⟨n, -, hclose⟩ := (hcount m).mp hm
      exact closer?_eq_none_iff.mp hn n hclose
    | some n =>
      rw [hn] at hanswer
      obtain ⟨c, hc, hplace, hclosing⟩ := exists_closing_of_closer hahead hk hfirst hopening hn
      have hleast := (isLeast_add_iff hcount (k + 1 + n)).mpr ⟨n, rfl, closer?_eq_some_iff.mp hn⟩
      have hindex : k + 1 + n - 1 = k + n := by omega
      exact findsByCount_of_closed ht hopening hanswer hleast hc (hindex ▸ hplace) hclosing

/-- From every cursor into a stream, the parenthesis that closes a group is found by counting, and
    the line is followed from there. -/
theorem answersByCount_ofIndex (stream : List Token) (c k : Nat) :
    AnswersByCount (ofIndex stream c) (visibleTokens (stream.drop c)) k := by
  rw [← ahead_ofIndex]
  have hline : ∀ answer, (ofIndex stream c).closingParenthesis? k = answer →
      (ofIndex stream c).continuesAfterGroup k =
        answer.map fun close => close.all fun m => (ofIndex stream c).continuesLine (m + 1) := by
    rintro answer rfl
    rw [continuesAfterGroup]
    rcases (ofIndex stream c).closingParenthesis? k with opener | _ | m <;> rfl
  exact {
    toFindsByCount := findsByCount _ k
    line_other := hline _
    line_unclosed := fun t => hline _
    line_closed := fun m h => ⟨_, hline _ h, continuesLine_iff⟩ }

end Place

end Semicolons
