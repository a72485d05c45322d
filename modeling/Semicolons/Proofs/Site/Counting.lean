import Mathlib.Order.Nat
import Semicolons.Proofs.Site.Group

/-!
# Counting brackets

The bracket that closes a group is the first one at which the closing brackets of its kind
outnumber the opening ones, by one and by the number of groups that are to be closed first. The
search for it (`closer?`) finds that place if there is one, and nothing otherwise
(`closer?_eq_some_iff`). What is paired with an item depends only on the items behind it
(`getElem?_insides`).
-/

namespace Semicolons

/-- Moving a property of numbers by `a` moves the least number that has it by `a`. -/
theorem isLeast_add_iff {P Q : Nat → Prop} {a : Nat} (h : ∀ m, Q m ↔ ∃ n, m = a + n ∧ P n)
    (m : Nat) : IsLeast {m | Q m} m ↔ ∃ n, m = a + n ∧ IsLeast {n | P n} n := by
  constructor
  · rintro ⟨hm, hleast⟩
    obtain ⟨n, rfl, hn⟩ := (h m).mp hm
    refine ⟨n, rfl, hn, ?_⟩
    intro n' hn'
    have hle : a + n ≤ a + n' := hleast ((h _).mpr ⟨n', rfl, hn'⟩)
    omega
  · rintro ⟨n, rfl, hn, hleast⟩
    refine ⟨(h _).mpr ⟨n, rfl, hn⟩, ?_⟩
    intro m' hm'
    obtain ⟨n', rfl, hn'⟩ := (h m').mp hm'
    have hle : n ≤ n' := hleast hn'
    omega

/-- A list is what stands in front of an item, the item and what stands behind it. -/
theorem eq_take_append_drop_of_getElem? {α : Type} {l : List α} {p : Nat} {x : α}
    (h : l[p]? = some x) : l = l.take p ++ x :: l.drop (p + 1) := by
  obtain ⟨hp, rfl⟩ := List.getElem?_eq_some_iff.mp h
  rw [← List.drop_eq_getElem_cons, List.take_append_drop]

/-- How many brackets of one side and kind there are among items. -/
def countBrackets (side : Side) (b : Bracket) (ks : List Kind) : Nat :=
  ks.countP fun k => k.bracket? = some (side, b)

@[simp] theorem countBrackets_nil (side : Side) (b : Bracket) : countBrackets side b [] = 0 :=
  rfl

theorem countBrackets_cons (side : Side) (b : Bracket) (k : Kind) (ks : List Kind) :
    countBrackets side b (k :: ks) =
      countBrackets side b ks + if k.bracket? = some (side, b) then 1 else 0 := by
  simp [countBrackets, List.countP_cons]

/-- At position `n` the closing brackets of kind `b` outnumber the opening ones by one more than
    `depth`. -/
def ClosesAt (b : Bracket) (depth : Nat) (ks : List Kind) (n : Nat) : Prop :=
  n < ks.length ∧ countBrackets .closing b (ks.take (n + 1)) =
    countBrackets .opening b (ks.take (n + 1)) + (depth + 1)

section ClosesAt

variable {b : Bracket} {k : Kind} {ks : List Kind} {depth n : Nat}

theorem closesAt_zero :
    ClosesAt b depth (k :: ks) 0 ↔ depth = 0 ∧ k.bracket? = some (.closing, b) := by
  simp only [ClosesAt, List.length_cons, Nat.zero_lt_succ, true_and, Nat.zero_add,
    List.take_succ_cons, List.take_zero, countBrackets_cons, countBrackets_nil]
  by_cases hclosing : k.bracket? = some (.closing, b)
  · simp [hclosing]
  · simp [hclosing]

/-- One item further left, the count stands where it stands behind that item, with the groups that
    are then to be closed. -/
theorem closesAt_succ (h : ¬ (depth = 0 ∧ k.bracket? = some (.closing, b))) :
    ClosesAt b depth (k :: ks) (n + 1) ↔ ClosesAt b (depthBehind b k depth) ks n := by
  simp only [ClosesAt, List.length_cons, Nat.add_lt_add_iff_right, List.take_succ_cons,
    countBrackets_cons, depthBehind]
  by_cases hopening : k.bracket? = some (.opening, b)
  · simp only [hopening, Option.some.injEq, Prod.mk.injEq, reduceCtorEq, false_and, if_false,
      if_true]
    omega
  · by_cases hclosing : k.bracket? = some (.closing, b)
    · have hpos : depth ≠ 0 := fun hzero => h ⟨hzero, hclosing⟩
      simp only [hclosing, Option.some.injEq, Prod.mk.injEq, reduceCtorEq, false_and, if_false,
        if_true]
      omega
    · simp only [hopening, hclosing, if_false, Nat.add_zero]

theorem closesAt_cons (h : ¬ (depth = 0 ∧ k.bracket? = some (.closing, b))) (m : Nat) :
    ClosesAt b depth (k :: ks) m ↔
      ∃ n, m = 1 + n ∧ ClosesAt b (depthBehind b k depth) ks n := by
  cases m with
  | zero =>
    rw [closesAt_zero]
    exact iff_of_false h fun ⟨n, hn, _⟩ => by omega
  | succ m =>
    rw [closesAt_succ h]
    constructor
    · exact fun hm => ⟨m, Nat.add_comm m 1, hm⟩
    · rintro ⟨n, hn, hclose⟩
      obtain rfl : m = n := by omega
      exact hclose

/-- The search for the bracket that closes a group finds the first place where the count of its
    kind is right. -/
theorem closer?_eq_some_iff :
    closer? b depth ks = some n ↔ IsLeast {n | ClosesAt b depth ks n} n := by
  induction ks generalizing depth n with
  | nil =>
    constructor
    · intro h
      cases h
    · rintro ⟨⟨hlt, -⟩, -⟩
      exact absurd hlt (Nat.not_lt_zero n)
  | cons k ks ih =>
    by_cases hend : depth = 0 ∧ k.bracket? = some (.closing, b)
    · obtain ⟨rfl, hk⟩ := hend
      have hzero : ClosesAt b 0 (k :: ks) 0 := closesAt_zero.mpr ⟨rfl, hk⟩
      rw [closer?_closing_zero hk]
      constructor
      · intro h
        obtain rfl := Option.some.inj h
        exact ⟨hzero, fun m _ => Nat.zero_le m⟩
      · rintro ⟨-, hleast⟩
        rw [Nat.le_zero.mp (hleast hzero)]
    · rw [closer?_next hend, isLeast_add_iff (closesAt_cons hend), Option.map_eq_some_iff]
      simp only [ih]
      constructor
      · rintro ⟨m, hm, rfl⟩
        exact ⟨m, Nat.add_comm m 1, hm⟩
      · rintro ⟨m, rfl, hm⟩
        exact ⟨m, hm, Nat.add_comm m 1⟩

/-- The search fails only where the count is right nowhere. -/
theorem closer?_eq_none_iff : closer? b depth ks = none ↔ ∀ n, ¬ ClosesAt b depth ks n := by
  constructor
  · intro h n hn
    classical
    have hfound := closer?_eq_some_iff.mpr (Nat.isLeast_find ⟨n, hn⟩)
    rw [h] at hfound
    cases hfound
  · intro h
    cases hn : closer? b depth ks with
    | none => rfl
    | some n => exact absurd (closer?_eq_some_iff.mp hn).1 (h n)

theorem getElem?_of_closer? (h : closer? b depth ks = some n) :
    ∃ c, ks[n]? = some c ∧ c.bracket? = some (.closing, b) := by
  obtain ⟨inner, c, after, rfl, rfl, hc⟩ := exists_closing_of_closer? h
  exact ⟨c, by simp, hc⟩

/-- An item at the end that is no bracket is never what closes a group. -/
theorem closer?_concat (h : k.bracket? = none) :
    closer? b depth (ks ++ [k]) = closer? b depth ks := by
  induction ks generalizing depth with
  | nil => rw [List.nil_append, closer?_other (by simp [h])]; rfl
  | cons k' ks ih =>
    rw [List.cons_append]
    by_cases hend : depth = 0 ∧ k'.bracket? = some (.closing, b)
    · obtain ⟨rfl, hk⟩ := hend
      rw [closer?_closing_zero hk, closer?_closing_zero hk]
    · rw [closer?_next hend, closer?_next hend, ih]

end ClosesAt

/-- What is inside a bracket is settled by the items behind it. -/
theorem getElem?_insides (ks : List Kind) (p : Nat) :
    (insides ks)[p]? = ks[p]?.map fun k => inside? k (ks.drop (p + 1)) := by
  induction ks generalizing p with
  | nil => simp [insides]
  | cons k ks ih =>
    rw [insides_cons]
    cases p with
    | zero => rfl
    | succ p => exact ih p

theorem inside?_eq_some_iff {k : Kind} {rest : List Kind} {n : Nat} :
    inside? k rest = some n ↔ ∃ b, k.bracket? = some (.opening, b) ∧ closer? b 0 rest = some n := by
  constructor
  · intro h
    unfold inside? at h
    split at h
    · next b hk => exact ⟨b, hk, h⟩
    · cases h
  · rintro ⟨b, hk, h⟩
    rwa [inside?_opening hk]

/-- The position of the bracket that closes the one at position `p`, as pairing finds it. -/
def closerAt? (ts : List Token) (p : Nat) : Option Nat :=
  (insides (ts.map (·.kind)))[p]?.join.map (p + 1 + ·)

/-- The bracket that closes one is found by counting behind it. -/
theorem closerAt?_eq_some_iff {ts : List Token} {p q : Nat} :
    closerAt? ts p = some q ↔ ∃ t b, ts[p]? = some t ∧ t.kind.bracket? = some (.opening, b) ∧
      ∃ n, q = p + 1 + n ∧ closer? b 0 ((ts.drop (p + 1)).map (·.kind)) = some n := by
  rw [closerAt?, getElem?_insides, List.getElem?_map, Option.map_map, ← List.map_drop]
  cases ht : ts[p]? with
  | none => simp
  | some t =>
    rw [Option.map_some, Option.join_some, Option.map_eq_some_iff]
    constructor
    · rintro ⟨n, hn, rfl⟩
      obtain ⟨b, hk, hcloser⟩ := inside?_eq_some_iff.mp hn
      exact ⟨t, b, rfl, hk, n, rfl, hcloser⟩
    · rintro ⟨t', b, ht', hk, n, rfl, hcloser⟩
      obtain rfl := Option.some.inj ht'
      exact ⟨n, inside?_eq_some_iff.mpr ⟨b, hk, hcloser⟩, rfl⟩

/-- An opening bracket is paired by counting behind it. -/
theorem closerAt?_of_opening {ts : List Token} {p : Nat} {t : Token} {b : Bracket}
    (ht : ts[p]? = some t) (hopening : t.kind.bracket? = some (.opening, b)) :
    closerAt? ts p = (closer? b 0 ((ts.drop (p + 1)).map (·.kind))).map (p + 1 + ·) := by
  rw [closerAt?, getElem?_insides, List.getElem?_map, ht, Option.map_some, Option.map_some,
    Option.join_some, inside?_opening hopening, List.map_drop]

section Pair

variable {ts : List Token} {p q : Nat}

theorem closerAt?_lt (h : closerAt? ts p = some q) : p < q := by
  obtain ⟨t, b, -, -, n, rfl, -⟩ := closerAt?_eq_some_iff.mp h
  omega

/-- What a bracket is paired with closes a group of its kind. -/
theorem exists_closing_of_closerAt? {t : Token} {b : Bracket} (h : closerAt? ts p = some q)
    (ht : ts[p]? = some t) (hopening : t.kind.bracket? = some (.opening, b)) :
    ∃ c, ts[q]? = some c ∧ c.kind.bracket? = some (.closing, b) := by
  obtain ⟨t', b', ht', hopening', n, rfl, hn⟩ := closerAt?_eq_some_iff.mp h
  obtain rfl : t' = t := Option.some.inj (ht'.symm.trans ht)
  obtain rfl : b' = b := by
    rw [hopening] at hopening'
    cases hopening'
    rfl
  obtain ⟨k, hk, hclosing⟩ := getElem?_of_closer? hn
  rw [List.getElem?_map, List.getElem?_drop] at hk
  obtain ⟨c, hc, rfl⟩ := Option.map_eq_some_iff.mp hk
  exact ⟨c, hc, hclosing⟩

/-- What stands behind a position, up to a later one and from there on. -/
theorem drop_eq_of_lt {t : Token} (hlt : p < q) (ht : ts[q]? = some t) :
    ∃ inner, inner.length = q - (p + 1) ∧ ts.drop (p + 1) = inner ++ t :: ts.drop (q + 1) := by
  obtain ⟨hq, rfl⟩ := List.getElem?_eq_some_iff.mp ht
  refine ⟨(ts.drop (p + 1)).take (q - (p + 1)), ?_, ?_⟩
  · rw [List.length_take, List.length_drop]
    omega
  · rw [← List.drop_eq_getElem_cons hq]
    conv_lhs => rw [← List.take_append_drop (q - (p + 1)) (ts.drop (p + 1)), List.drop_drop]
    congr 2
    omega

/-- No two brackets are paired with the same one, since what closes the inner group is not what
    closes a group of its kind around it. -/
theorem closerAt?_injective {p' : Nat} (h : closerAt? ts p = some q)
    (h' : closerAt? ts p' = some q) : p = p' := by
  have hne : ∀ {p p'}, closerAt? ts p = some q → closerAt? ts p' = some q → ¬ p < p' := by
    intro p p' h h' hlt
    obtain ⟨t, b, ht, hopening, n, hq, hn⟩ := closerAt?_eq_some_iff.mp h
    obtain ⟨t', b', ht', hopening', m, hq', hm⟩ := closerAt?_eq_some_iff.mp h'
    obtain ⟨c, hc, hclosing⟩ := exists_closing_of_closerAt? h ht hopening
    obtain ⟨c', hc', hclosing'⟩ := exists_closing_of_closerAt? h' ht' hopening'
    obtain rfl : b = b' := by
      rw [hc] at hc'
      cases hc'
      rw [hclosing] at hclosing'
      cases hclosing'
      rfl
    obtain ⟨inner, hlength, hdrop⟩ := drop_eq_of_lt hlt ht'
    rw [hdrop, List.map_append, List.map_cons] at hn
    apply closer?_ne_of_opening hopening' hm (inner.map (·.kind)) 0
    rw [hn, List.length_map, hlength]
    congr 1
    omega
  exact Nat.le_antisymm (Nat.le_of_not_lt (hne h' h)) (Nat.le_of_not_lt (hne h h'))

end Pair

end Semicolons
