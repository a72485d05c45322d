import Mathlib.Logic.Relation
import Semicolons.Proofs.Signature.Parentheses

/-!
# Reading a result

The result of a signature is read part by part, from one position among the visible tokens to the
next (`PassesPart`). A group is passed as a whole. Its brackets are paired once for the whole text,
and even where brackets are badly nested the one that closes a group stands behind the one that
opens it, so that the reading moves ahead (`ResultPart.lt`), and never past the end of the input
(`ResultPart.exists_next`). What is passed behind a line feed is inside a group, or the brace that
opens one (`exists_passesGroup_of_lineFeed`). So the reading ends, and within the text
(`readsResult_tokens`).
-/

namespace Semicolons

open Relation (ReflTransGen)

/-- A type in a result that begins at position `p` is, or ends with, the group between the paired
    brackets at `o` and `c`: what stands in parentheses or brackets, or in braces behind `struct` or
    `interface`. -/
inductive TypeGroup (ts : List Token) (p : Nat) : Nat → Nat → Prop
  | enclosed {t : Token} {c : Nat} : ts[p]? = some t →
      t.isMark .lParen = true ∨ t.isMark .lBracket = true →
      closerAt? ts p = some c → TypeGroup ts p p c
  | fields {t brace : Token} {c : Nat} : ts[p]? = some t →
      t.kind = .keyword .struct ∨ t.kind = .keyword .interface →
      ts[p + 1]? = some brace → brace.isMark .lBrace = true →
      closerAt? ts (p + 1) = some c → TypeGroup ts p (p + 1) c

/-- A part of a result begins at position `p`: a word or a mark, or a type with a group. What
    follows it is at position `q`. -/
inductive ResultPart (ts : List Token) (p : Nat) : Nat → Prop
  | word {t : Token} : ts[p]? = some t → t.kind ∈ Signature.resultKinds → ResultPart ts p (p + 1)
  | group {o c : Nat} : TypeGroup ts p o c → ResultPart ts p (c + 1)

/-- The part of a result from position `p` up to position `q` is passed, since no line feed precedes
    it. -/
structure PassesPart (stream : List Token) (p q : Nat) : Prop where
  line : ∀ t, (visibleTokens stream)[p]? = some t → ¬ FollowsLineFeed stream t
  part : ResultPart (visibleTokens stream) p q

/-- Reading a result from position `pos` on ends at position `stop`. -/
structure ReadsResult (stream : List Token) (pos stop : Nat) : Prop where
  /-- Part by part, the reading comes to `stop`. -/
  reaches : ReflTransGen (PassesPart stream) pos stop
  /-- No part is passed there. -/
  ends : ∀ q, ¬ PassesPart stream stop q
  /-- The result is found to end there. -/
  answer : Signature.afterResult 0 ((sites stream).drop pos) = (sites stream).drop stop

/-- Between the positions `pos` and `stop`, the group between the brackets at `o` and `c` is passed
    as a whole. -/
def PassesGroup (stream : List Token) (pos stop o c : Nat) : Prop :=
  ∃ p, ReflTransGen (PassesPart stream) pos p ∧ TypeGroup (visibleTokens stream) p o c ∧
    PassesPart stream p (c + 1) ∧ ReflTransGen (PassesPart stream) (c + 1) stop

variable {stream ts : List Token} {p q pos stop o c : Nat} {t : Token}

section Part

theorem TypeGroup.le (h : TypeGroup ts p o c) : p ≤ o := by
  cases h with
  | enclosed => exact Nat.le_refl p
  | fields => exact Nat.le_succ p

/-- The brackets of a group are paired. -/
theorem TypeGroup.paired (h : TypeGroup ts p o c) : closerAt? ts o = some c := by
  cases h with
  | enclosed _ _ hc => exact hc
  | fields _ _ _ _ hc => exact hc

theorem TypeGroup.exists_token (h : TypeGroup ts p o c) : ∃ t, ts[p]? = some t := by
  cases h with
  | enclosed ht _ _ => exact ⟨_, ht⟩
  | fields ht _ _ _ _ => exact ⟨_, ht⟩

namespace ResultPart

theorem lt_length (h : ResultPart ts p q) : p < ts.length := by
  cases h with
  | word ht _ => exact (List.getElem?_eq_some_iff.mp ht).1
  | group hgroup =>
    obtain ⟨t, ht⟩ := hgroup.exists_token
    exact (List.getElem?_eq_some_iff.mp ht).1

/-- Every part moves the reading ahead, since what closes a group stands behind what opens it. -/
theorem lt (h : ResultPart ts p q) : p < q := by
  cases h with
  | word => exact Nat.lt_succ_self p
  | group hgroup =>
    have hle := hgroup.le
    have hlt := closerAt?_lt hgroup.paired
    omega

/-- Behind a part there is another token, since no part ends the input. -/
theorem exists_next (hends : EndsOnce ts) (h : ResultPart ts p q) : ∃ n, ts[q]? = some n := by
  cases h with
  | @word t ht hkind =>
    apply hends.exists_next ht
    rw [Bool.eq_false_iff, ne_eq, isEnd_eq_true_iff]
    intro hend
    rw [hend] at hkind
    revert hkind
    decide
  | group hgroup => exact hends.exists_next_of_closerAt? hgroup.paired

/-- Of a part, only what is inside its group stands behind the first token, and the brace that opens
    the group. -/
theorem exists_group_of_lt {r : Nat} (h : ResultPart ts p r) (hp : p < q) (hr : q < r)
    (ht : ts[q]? = some t) :
    ∃ o c, TypeGroup ts p o c ∧ r = c + 1 ∧
      (o < q ∧ q ≤ c ∨ q = o ∧ t.isMark .lBrace = true) := by
  cases h with
  | word => omega
  | @group o c hgroup =>
    refine ⟨o, c, hgroup, rfl, ?_⟩
    cases hgroup with
    | enclosed => exact Or.inl ⟨hp, Nat.le_of_lt_succ hr⟩
    | fields _ _ hbrace hmark _ =>
      rcases Nat.eq_or_lt_of_le (Nat.succ_le_of_lt hp) with rfl | hin
      · obtain rfl := Option.some.inj (hbrace.symm.trans ht)
        exact Or.inr ⟨rfl, hmark⟩
      · exact Or.inl ⟨hin, Nat.le_of_lt_succ hr⟩

end ResultPart

end Part

section Answer

variable {s : Site}

theorem beginsWith_drop (stream : List Token) (p : Nat) (mark : Punctuation) :
    Signature.beginsWith ((sites stream).drop p) mark =
      (visibleTokens stream)[p]?.any (·.isMark mark) := by
  rw [Signature.beginsWith, List.head?_drop, getElem?_visibleTokens, Option.any_map]
  rfl

/-- What follows the part that a site begins is found at the position where the part ends. -/
theorem afterPart?_drop_iff (hs : (sites stream)[p]? = some s) {after : List Site} :
    Signature.afterPart? s ((sites stream).drop (p + 1)) = some after ↔
      ∃ q, ResultPart (visibleTokens stream) p q ∧ (sites stream).drop q = after := by
  have ht := getElem?_visibleTokens_of_site hs
  have hdrop : s :: (sites stream).drop (p + 1) = (sites stream).drop p := by
    obtain ⟨hp, rfl⟩ := List.getElem?_eq_some_iff.mp hs
    exact (List.drop_eq_getElem_cons hp).symm
  rw [Signature.afterPart?_eq_some_iff, hdrop, beginsWith_drop, afterGroup?_drop, afterGroup?_drop,
    Option.map_eq_some_iff, Option.map_eq_some_iff]
  constructor
  · rintro (⟨hkind, rfl⟩ | ⟨hmark, c, hc, rfl⟩ | ⟨hkind, hbrace, c, hc, rfl⟩)
    · exact ⟨p + 1, .word ht hkind, rfl⟩
    · exact ⟨c + 1, .group (.enclosed ht hmark hc), rfl⟩
    · obtain ⟨brace, hb, hmark⟩ := (Option.any_eq_true _ _).mp hbrace
      exact ⟨c + 1, .group (.fields ht hkind hb hmark hc), rfl⟩
  · rintro ⟨q, ⟨hx, hkind⟩ | ⟨hx, hmark, hc⟩ | ⟨hx, hkind, hb, hmark, hc⟩, rfl⟩
    all_goals obtain rfl := Option.some.inj (ht.symm.trans hx)
    · exact Or.inl ⟨hkind, rfl⟩
    · exact Or.inr (Or.inl ⟨hmark, _, hc, rfl⟩)
    · refine Or.inr (Or.inr ⟨hkind, ?_, _, hc, rfl⟩)
      rw [hb]
      exact hmark

/-- A part is passed if its site follows no line feed. -/
theorem passesPart_iff (hnodup : stream.Nodup) (hs : (sites stream)[p]? = some s) :
    PassesPart stream p q ↔
      s.followsLineFeed = false ∧ ResultPart (visibleTokens stream) p q := by
  have ht := getElem?_visibleTokens_of_site hs
  rw [← Bool.not_eq_true, followsLineFeed_iff hnodup (List.mem_of_getElem? hs)]
  constructor
  · rintro ⟨hline, hpart⟩
    exact ⟨hline _ ht, hpart⟩
  · rintro ⟨hline, hpart⟩
    refine ⟨?_, hpart⟩
    intro t hx
    obtain rfl := Option.some.inj (ht.symm.trans hx)
    exact hline

/-- Behind a part that is passed, the reading goes on. -/
theorem PassesPart.afterResult_eq (hnodup : stream.Nodup) (h : PassesPart stream p q) :
    Signature.afterResult 0 ((sites stream).drop p) =
      Signature.afterResult 0 ((sites stream).drop q) := by
  have hp : p < (sites stream).length := by
    rw [← List.length_map Site.token, map_token_sites]
    exact h.part.lt_length
  have hs : (sites stream)[p]? = some (sites stream)[p] := List.getElem?_eq_getElem hp
  obtain ⟨hfeed, hpart⟩ := (passesPart_iff hnodup hs).mp h
  rw [List.drop_eq_getElem_cons hp]
  exact Signature.afterResult_part hfeed ((afterPart?_drop_iff hs).mpr ⟨q, hpart, rfl⟩)

/-- Where no part is passed, the reading ends. -/
theorem afterResult_of_ends (hnodup : stream.Nodup) (h : ∀ q, ¬ PassesPart stream p q) :
    Signature.afterResult 0 ((sites stream).drop p) = (sites stream).drop p := by
  by_cases hp : p < (sites stream).length
  · have hs : (sites stream)[p]? = some (sites stream)[p] := List.getElem?_eq_getElem hp
    rw [List.drop_eq_getElem_cons hp]
    cases hfeed : (sites stream)[p].followsLineFeed with
    | true => exact Signature.afterResult_lineFeed hfeed
    | false =>
      apply Signature.afterResult_stop
      rw [Option.eq_none_iff_forall_ne_some]
      intro after hafter
      obtain ⟨q, hpart, -⟩ := (afterPart?_drop_iff hs).mp hafter
      exact h q ((passesPart_iff hnodup hs).mpr ⟨hfeed, hpart⟩)
  · rw [List.drop_eq_nil_of_le (Nat.le_of_not_lt hp)]
    rfl

end Answer

section Run

/-- The reading ends, since every part moves it ahead. -/
theorem exists_readsResult (hnodup : stream.Nodup) (pos : Nat) :
    ∃ stop, ReadsResult stream pos stop := by
  by_cases hpart : ∃ q, PassesPart stream pos q
  · obtain ⟨q, hq⟩ := hpart
    have hlt := hq.part.lt
    have hlength := hq.part.lt_length
    obtain ⟨stop, hreaches, hends, hanswer⟩ := exists_readsResult hnodup q
    exact ⟨stop, .head hq hreaches, hends, (hq.afterResult_eq hnodup).trans hanswer⟩
  · have hends : ∀ q, ¬ PassesPart stream pos q := fun q hq => hpart ⟨q, hq⟩
    exact ⟨pos, .refl, hends, afterResult_of_ends hnodup hends⟩
termination_by (visibleTokens stream).length - pos

theorem le_of_reaches (h : ReflTransGen (PassesPart stream) pos stop) : pos ≤ stop := by
  induction h with
  | refl => exact Nat.le_refl pos
  | tail _ hpart ih => exact Nat.le_trans ih hpart.part.lt.le

/-- A run that begins at a token ends at one. -/
theorem exists_token_of_reaches (hends : EndsOnce (visibleTokens stream))
    (hpos : (visibleTokens stream)[pos]? = some t)
    (h : ReflTransGen (PassesPart stream) pos stop) :
    ∃ n, (visibleTokens stream)[stop]? = some n := by
  rcases Relation.ReflTransGen.cases_tail h with rfl | ⟨p, -, hpart⟩
  · exact ⟨t, hpos⟩
  · exact hpart.part.exists_next hends

/-- What is passed behind a line feed is inside a group, or the brace that opens it. -/
theorem exists_passesGroup_of_lineFeed (h : ReflTransGen (PassesPart stream) pos stop)
    (hpos : pos ≤ q) (hstop : q < stop) (ht : (visibleTokens stream)[q]? = some t)
    (hfeed : FollowsLineFeed stream t) :
    ∃ o c, PassesGroup stream pos stop o c ∧
      (o < q ∧ q ≤ c ∨ q = o ∧ t.isMark .lBrace = true) := by
  induction h using Relation.ReflTransGen.head_induction_on with
  | refl => omega
  | @head p r hpart hrest ih =>
    by_cases hr : q < r
    · have hne : p ≠ q := by
        rintro rfl
        exact hpart.line t ht hfeed
      obtain ⟨o, c, hgroup, rfl, hin⟩ :=
        hpart.part.exists_group_of_lt (Nat.lt_of_le_of_ne hpos hne) hr ht
      exact ⟨o, c, ⟨p, .refl, hgroup, hpart, hrest⟩, hin⟩
    · obtain ⟨o, c, ⟨p', hreaches, hgroup⟩, hin⟩ := ih (Nat.le_of_not_lt hr)
      exact ⟨o, c, ⟨p', .head hpart hreaches, hgroup⟩, hin⟩

end Run

/-- From every token of a text on, the reading of a result ends. Every part moves it ahead and
    leaves it at a token, so that it comes to the end of the input at most, without passing it. A
    token that is passed behind a line feed is inside a group that is passed as a whole, or it is the
    brace that opens one. -/
theorem readsResult_tokens (source : String)
    (hpos : pos < (visibleTokens (tokens source)).length) :
    ∃ stop, ReadsResult (tokens source) pos stop ∧
      (∀ p q, PassesPart (tokens source) p q →
        p < q ∧ q < (visibleTokens (tokens source)).length) ∧
      pos ≤ stop ∧
      (∃ e t, (visibleTokens (tokens source))[e]? = some t ∧ t.isEnd = true ∧ stop ≤ e) ∧
      ∀ q t, pos ≤ q → q < stop → (visibleTokens (tokens source))[q]? = some t →
        t.isEnd = false ∧ (FollowsLineFeed (tokens source) t →
          ∃ o c, PassesGroup (tokens source) pos stop o c ∧
            (o < q ∧ q ≤ c ∨ q = o ∧ t.isMark .lBrace = true)) := by
  have hends := endsOnce_visibleTokens source
  obtain ⟨stop, hreads⟩ := exists_readsResult (nodup_tokens source) pos
  obtain ⟨n, hn⟩ :=
    exists_token_of_reaches hends (List.getElem?_eq_getElem hpos) hreads.reaches
  refine ⟨stop, hreads, ?_, le_of_reaches hreads.reaches, ?_, ?_⟩
  · intro p q hpart
    obtain ⟨x, hx⟩ := hpart.part.exists_next hends
    exact ⟨hpart.part.lt, (List.getElem?_eq_some_iff.mp hx).1⟩
  · obtain ⟨before, e, hsplit, hend, -⟩ := hends
    refine ⟨before.length, e, by simp [hsplit], hend, ?_⟩
    have hlt := (List.getElem?_eq_some_iff.mp hn).1
    rw [hsplit, List.length_append, List.length_singleton] at hlt
    exact Nat.le_of_lt_succ hlt
  · intro q t hle hlt ht
    refine ⟨hends.forall_mem_take hn t ?_, ?_⟩
    · exact List.mem_of_getElem? ((List.getElem?_take_of_lt hlt).trans ht)
    · exact exists_passesGroup_of_lineFeed hreads.reaches hle hlt ht

/-- A parenthesis that is closed outside the braces of a type does not keep the reading inside them,
    and the line feed in front of the braces does not stop it. -/
theorem readsResult_badly_nested :
    4 < (visibleTokens (tokens "func f() struct\n\x7b(\x7dx\n)")).length ∧
      ReadsResult (tokens "func f() struct\n\x7b(\x7dx\n)") 4 9 ∧
      ∃ o c, PassesGroup (tokens "func f() struct\n\x7b(\x7dx\n)") 4 9 o c ∧
        (o < 5 ∧ 5 ≤ c ∨ 5 = o) := by
  let brace : Token := ⟨⟨.punctuation .lBrace, "\x7b", none⟩, .visible, 8, ⟨16, 17⟩⟩
  have hpos : 4 < (visibleTokens (tokens "func f() struct\n\x7b(\x7dx\n)")).length := by decide
  obtain ⟨stop, hreads, -, -, -, hpassed⟩ := readsResult_tokens _ hpos
  have hanswer : Signature.afterResult 0
      ((sites (tokens "func f() struct\n\x7b(\x7dx\n)")).drop 4) =
        (sites (tokens "func f() struct\n\x7b(\x7dx\n)")).drop 9 := by decide
  have hsites : (sites (tokens "func f() struct\n\x7b(\x7dx\n)")).length = 11 := by decide
  have hlength := congrArg List.length (hanswer.symm.trans hreads.answer)
  rw [List.length_drop, List.length_drop, hsites] at hlength
  obtain rfl : stop = 9 := by omega
  have hfeed : FollowsLineFeed (tokens "func f() struct\n\x7b(\x7dx\n)") brace :=
    ⟨(tokens "func f() struct\n\x7b(\x7dx\n)").take 7, _, [], _, rfl, rfl, rfl, by simp⟩
  obtain ⟨-, hgroup⟩ := hpassed 5 brace (by decide) (by decide) rfl
  obtain ⟨o, c, hpasses, hin⟩ := hgroup hfeed
  exact ⟨hpos, hreads, o, c, hpasses, hin.imp_right And.left⟩

end Semicolons
