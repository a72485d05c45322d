import Mathlib.Order.Bounds.Basic
import Semicolons.Proofs.Nesting.Word

/-!
# The partners of closing brackets

A closing bracket answers the nearest opening bracket in front of it that no other one has answered,
and the kinds of the two have no part in that. There is one way to pair brackets so
(`PairsNearest.eq_partner?`), and a stream is read by it: the groups that are open at a position are
the opening brackets in front of it that have not been answered (`mem_openAt_iff`), and a closing
bracket is defective if it has no partner, or one of another kind (`Nesting.mem_read_iff`). So a pair
of different kinds uses up its opening bracket as any other pair does, and those behind it are paired
with what is left.
-/

namespace Semicolons

/-- The side and kind of the token at a position, if it is a bracket. -/
def bracketAt? (ts : List Token) (p : Nat) : Option (Side × Bracket) :=
  ts[p]?.bind fun t => t.kind.bracket?

/-- A bracket of the given side stands at a position. -/
def HasSide (ts : List Token) (side : Side) (p : Nat) : Prop :=
  ∃ b, bracketAt? ts p = some (side, b)

/-- Each closing bracket has the nearest opening one in front of it as its partner that is not the
    partner of an earlier one, and nothing else has a partner. -/
def PairsNearest (ts : List Token) (partner : Nat → Option Nat) : Prop :=
  ∀ q p, partner q = some p ↔ HasSide ts .closing q ∧
    IsGreatest {p | p < q ∧ HasSide ts .opening p ∧ ∀ q' < q, partner q' ≠ some p} p

/-- The positions of the groups that are open in front of a position, the innermost first. -/
def openAt (ts : List Token) : Nat → List Nat
  | 0 => []
  | q + 1 =>
    match bracketAt? ts q with
    | none => openAt ts q
    | some (.opening, _) => q :: openAt ts q
    | some (.closing, _) => (openAt ts q).tail

/-- The partner of the closing bracket at a position: the innermost group that is open there. -/
def partner? (ts : List Token) (q : Nat) : Option Nat :=
  match bracketAt? ts q with
  | some (.closing, _) => (openAt ts q).head?
  | _ => none

section Positions

variable {ts : List Token} {t : Token} {b : Bracket} {p q : Nat}

theorem bracketAt?_eq_some_iff {x : Side × Bracket} :
    bracketAt? ts p = some x ↔ ∃ t, ts[p]? = some t ∧ t.kind.bracket? = some x :=
  Option.bind_eq_some_iff

theorem bracketAt?_of_getElem? (h : ts[p]? = some t) : bracketAt? ts p = t.kind.bracket? := by
  rw [bracketAt?, h, Option.bind_some]

theorem openAt_succ_none (h : bracketAt? ts q = none) : openAt ts (q + 1) = openAt ts q := by
  simp only [openAt, h]

theorem openAt_succ_opening (h : bracketAt? ts q = some (.opening, b)) :
    openAt ts (q + 1) = q :: openAt ts q := by
  simp only [openAt, h]

theorem openAt_succ_closing (h : bracketAt? ts q = some (.closing, b)) :
    openAt ts (q + 1) = (openAt ts q).tail := by
  simp only [openAt, h]

theorem partner?_closing (h : bracketAt? ts q = some (.closing, b)) :
    partner? ts q = (openAt ts q).head? := by
  simp only [partner?, h]

theorem partner?_not_closing (h : ∀ b, bracketAt? ts q ≠ some (.closing, b)) :
    partner? ts q = none := by
  unfold partner?
  split
  case h_1 b hb => exact absurd hb (h b)
  case h_2 => rfl

theorem lt_of_mem_openAt (h : p ∈ openAt ts q) : p < q := by
  induction q with
  | zero => cases h
  | succ q ih =>
    match hq : bracketAt? ts q with
    | none =>
      rw [openAt_succ_none hq] at h
      exact Nat.lt_succ_of_lt (ih h)
    | some (.opening, b) =>
      rw [openAt_succ_opening hq] at h
      rcases List.mem_cons.mp h with rfl | h
      · exact Nat.lt_succ_self p
      · exact Nat.lt_succ_of_lt (ih h)
    | some (.closing, b) =>
      rw [openAt_succ_closing hq] at h
      exact Nat.lt_succ_of_lt (ih (List.mem_of_mem_tail h))

/-- The innermost group has begun last. -/
theorem pairwise_openAt (ts : List Token) (q : Nat) : (openAt ts q).Pairwise (· > ·) := by
  induction q with
  | zero => exact List.Pairwise.nil
  | succ q ih =>
    match hq : bracketAt? ts q with
    | none => rwa [openAt_succ_none hq]
    | some (.opening, b) =>
      rw [openAt_succ_opening hq]
      exact List.pairwise_cons.mpr ⟨fun p hp => lt_of_mem_openAt hp, ih⟩
    | some (.closing, b) =>
      rw [openAt_succ_closing hq]
      exact ih.tail

theorem partner?_eq_some_iff :
    partner? ts q = some p ↔ HasSide ts .closing q ∧ (openAt ts q).head? = some p := by
  by_cases hq : HasSide ts .closing q
  · obtain ⟨b, hb⟩ := hq
    rw [partner?_closing hb, and_iff_right ⟨b, hb⟩]
  · rw [partner?_not_closing fun b hb => hq ⟨b, hb⟩]
    exact iff_of_false (Option.some_ne_none p).symm fun h => hq h.1

/-- A partner stands in front of the bracket that it is the partner of. -/
theorem partner?_lt (h : partner? ts q = some p) : p < q :=
  lt_of_mem_openAt (List.mem_of_mem_head? (partner?_eq_some_iff.mp h).2)

/-- The groups of which the innermost is closed are the others. -/
theorem mem_tail_openAt : p ∈ (openAt ts q).tail ↔
    p ∈ openAt ts q ∧ (openAt ts q).head? ≠ some p := by
  have hpairs := pairwise_openAt ts q
  cases hopen : openAt ts q with
  | nil => simp
  | cons inner outer =>
    rw [hopen] at hpairs
    have hlt := (List.pairwise_cons.mp hpairs).1
    rw [List.tail_cons, List.head?_cons, List.mem_cons, ne_eq, Option.some.injEq]
    constructor
    · intro hp
      exact ⟨Or.inr hp, fun heq => Nat.lt_irrefl p (heq ▸ hlt p hp)⟩
    · rintro ⟨rfl | hp, hne⟩
      · exact absurd rfl hne
      · exact hp

/-- One token may open a group, and may answer one. -/
theorem mem_openAt_succ : p ∈ openAt ts (q + 1) ↔
    (p ∈ openAt ts q ∨ p = q ∧ HasSide ts .opening p) ∧ partner? ts q ≠ some p := by
  match hq : bracketAt? ts q with
  | none =>
    have hplain : ¬ (p = q ∧ HasSide ts .opening p) := by
      rintro ⟨rfl, b, hb⟩
      rw [hq] at hb
      cases hb
    have hnone : partner? ts q = none := partner?_not_closing (by simp [hq])
    simp [openAt_succ_none hq, hplain, hnone]
  | some (.opening, b) =>
    have hside : p = q ∧ HasSide ts .opening p ↔ p = q :=
      and_iff_left_of_imp fun heq => ⟨b, heq ▸ hq⟩
    have hnone : partner? ts q = none := partner?_not_closing (by simp [hq])
    simp [openAt_succ_opening hq, hside, hnone, or_comm]
  | some (.closing, b) =>
    have hside : ¬ (p = q ∧ HasSide ts .opening p) := by
      rintro ⟨rfl, b', hb'⟩
      rw [hq] at hb'
      cases hb'
    rw [openAt_succ_closing hq, partner?_closing hq, mem_tail_openAt, or_iff_left hside]

/-- The groups that are open are those that no closing bracket has answered. -/
theorem mem_openAt_iff : p ∈ openAt ts q ↔
    p < q ∧ HasSide ts .opening p ∧ ∀ q' < q, partner? ts q' ≠ some p := by
  induction q with
  | zero => exact iff_of_false List.not_mem_nil fun h => Nat.not_lt_zero p h.1
  | succ q ih =>
    have hsplit : (∀ q' < q + 1, partner? ts q' ≠ some p) ↔
        (∀ q' < q, partner? ts q' ≠ some p) ∧ partner? ts q ≠ some p := by
      simp only [Nat.lt_succ_iff_lt_or_eq, or_imp, forall_and, forall_eq]
    rw [mem_openAt_succ, ih, hsplit]
    constructor
    · rintro ⟨⟨hlt, hside, hfree⟩ | ⟨rfl, hside⟩, hne⟩
      · exact ⟨Nat.lt_succ_of_lt hlt, hside, hfree, hne⟩
      · -- What stands in front of a bracket does not answer it.
        refine ⟨Nat.lt_succ_self p, hside, ?_, hne⟩
        intro q' hq' hp
        have hlt := partner?_lt hp
        omega
    · rintro ⟨hlt, hside, hfree, hne⟩
      rcases Nat.lt_succ_iff_lt_or_eq.mp hlt with hlt | rfl
      · exact ⟨Or.inl ⟨hlt, hside, hfree⟩, hne⟩
      · exact ⟨Or.inr ⟨rfl, hside⟩, hne⟩

/-- The innermost group that is open is the nearest one. -/
theorem head?_openAt_iff : (openAt ts q).head? = some p ↔
    IsGreatest {p | p < q ∧ HasSide ts .opening p ∧ ∀ q' < q, partner? ts q' ≠ some p} p := by
  have hset : {p | p < q ∧ HasSide ts .opening p ∧ ∀ q' < q, partner? ts q' ≠ some p} =
      {p | p ∈ openAt ts q} := by
    ext p
    exact mem_openAt_iff.symm
  have hpairs := pairwise_openAt ts q
  rw [hset]
  cases hopen : openAt ts q with
  | nil =>
    refine iff_of_false (Option.some_ne_none p).symm ?_
    rintro ⟨hmem, -⟩
    cases hmem
  | cons inner outer =>
    rw [hopen] at hpairs
    have hgreatest : IsGreatest {p | p ∈ inner :: outer} inner := by
      refine ⟨List.mem_cons_self, ?_⟩
      intro p hp
      rcases List.mem_cons.mp hp with rfl | hp
      · exact Nat.le_refl p
      · exact Nat.le_of_lt ((List.pairwise_cons.mp hpairs).1 p hp)
    rw [List.head?_cons, Option.some.injEq]
    constructor
    · rintro rfl
      exact hgreatest
    · exact hgreatest.unique

theorem pairsNearest_partner? (ts : List Token) : PairsNearest ts (partner? ts) :=
  fun _ _ => partner?_eq_some_iff.trans (and_congr_right fun _ => head?_openAt_iff)

/-- There is one way to give each closing bracket the nearest opening one: what a bracket is paired
    with is settled by the pairs in front of it. -/
theorem PairsNearest.eq_partner? {partner : Nat → Option Nat} (h : PairsNearest ts partner) :
    partner = partner? ts := by
  funext q
  induction q using Nat.strong_induction_on with
  | _ q ih =>
    apply Option.ext
    intro p
    have hfree : ∀ p, (∀ q' < q, partner q' ≠ some p) ↔ ∀ q' < q, partner? ts q' ≠ some p := by
      intro p
      refine forall₂_congr fun q' hq' => ?_
      rw [ih q' hq']
    rw [h q p, pairsNearest_partner? ts q p]
    simp only [hfree]

end Positions

namespace Nesting

/-- What is wrong with the bracket at a position, as its partner tells: a closing bracket is to have
    one, of its own kind. -/
inductive DefectAt (ts : List Token) (q : Nat) : Defect → Prop
  | unexpected {t : Token} {b : Bracket} : ts[q]? = some t →
      t.kind.bracket? = some (.closing, b) → partner? ts q = none → DefectAt ts q (.unexpected t)
  | mismatched {t o : Token} {b b' : Bracket} {p : Nat} : ts[q]? = some t →
      t.kind.bracket? = some (.closing, b) → partner? ts q = some p → ts[p]? = some o →
      o.kind.bracket? = some (.opening, b') → b' ≠ b → DefectAt ts q (.mismatched t o)

/-- The opening brackets of the groups that are open in front of a position, the innermost first. -/
def openTokens (ts : List Token) (q : Nat) : List Token :=
  (openAt ts q).filterMap fun p => ts[p]?

section Read

variable {ts : List Token} {t o : Token} {b b' : Bracket} {d : Defect} {p q : Nat}

theorem DefectAt.lt_length (h : DefectAt ts q d) : q < ts.length := by
  cases h with
  | unexpected ht _ _ => exact (List.getElem?_eq_some_iff.mp ht).1
  | mismatched ht _ _ _ _ _ => exact (List.getElem?_eq_some_iff.mp ht).1

theorem not_defectAt (ht : ts[q]? = some t) (hb : ∀ b, t.kind.bracket? ≠ some (.closing, b)) :
    ¬ DefectAt ts q d := by
  rintro (⟨ht', hb', -⟩ | ⟨ht', hb', -⟩)
  all_goals
    rw [ht] at ht'
    cases ht'
    exact hb _ hb'

theorem defectAt_iff_of_unpaired (ht : ts[q]? = some t)
    (hb : t.kind.bracket? = some (.closing, b)) (hp : partner? ts q = none) :
    DefectAt ts q d ↔ d = .unexpected t := by
  constructor
  · rintro (⟨ht', -, -⟩ | ⟨-, -, hp', -⟩)
    · rw [ht] at ht'
      cases ht'
      rfl
    · rw [hp] at hp'
      cases hp'
  · rintro rfl
    exact .unexpected ht hb hp

theorem defectAt_iff_of_paired (ht : ts[q]? = some t) (hb : t.kind.bracket? = some (.closing, b))
    (hp : partner? ts q = some p) (ho : ts[p]? = some o)
    (hb' : o.kind.bracket? = some (.opening, b')) :
    DefectAt ts q d ↔ b' ≠ b ∧ d = .mismatched t o := by
  constructor
  · rintro (⟨-, -, hp'⟩ | ⟨ht', hclosing, hp', ho', hopening, hne⟩)
    · rw [hp] at hp'
      cases hp'
    · rw [hp] at hp'
      cases hp'
      rw [ht] at ht'
      cases ht'
      rw [ho] at ho'
      cases ho'
      rw [hb] at hclosing
      cases hclosing
      rw [hb'] at hopening
      cases hopening
      exact ⟨hne, rfl⟩
  · rintro ⟨hne, rfl⟩
    exact .mismatched ht hb hp ho hb' hne

/-- The partner of a closing bracket is an opening bracket. -/
theorem exists_opening_of_partner? (h : partner? ts q = some p) :
    ∃ o b, ts[p]? = some o ∧ o.kind.bracket? = some (.opening, b) := by
  have hmem := List.mem_of_mem_head? (partner?_eq_some_iff.mp h).2
  obtain ⟨-, ⟨b, hb⟩, -⟩ := mem_openAt_iff.mp hmem
  obtain ⟨o, ho, hopening⟩ := bracketAt?_eq_some_iff.mp hb
  exact ⟨o, b, ho, hopening⟩

/-- One token is read inside the groups that are open in front of it: what is found wrong is what
    its partner tells. -/
theorem read_openTokens (ht : ts[q]? = some t) :
    ∃ found, read (openTokens ts q) [t] = (found, openTokens ts (q + 1)) ∧
      ∀ d, d ∈ found ↔ DefectAt ts q d := by
  have hat := bracketAt?_of_getElem? ht
  match hb : t.kind.bracket? with
  | none =>
    have hnone : ∀ d, ¬ DefectAt ts q d := fun d => not_defectAt ht (by simp [hb])
    refine ⟨[], ?_, by simp [hnone]⟩
    rw [read_none hb, openTokens, openTokens, openAt_succ_none (hat.trans hb)]
    rfl
  | some (.opening, b) =>
    have hnone : ∀ d, ¬ DefectAt ts q d := fun d => not_defectAt ht (by simp [hb])
    refine ⟨[], ?_, by simp [hnone]⟩
    rw [read_opening hb, openTokens, openTokens, openAt_succ_opening (hat.trans hb),
      List.filterMap_cons_some ht]
    rfl
  | some (.closing, b) =>
    have hpartner := partner?_closing (hat.trans hb)
    rw [openTokens, openTokens, openAt_succ_closing (hat.trans hb)]
    cases hopen : openAt ts q with
    | nil =>
      rw [hopen] at hpartner
      refine ⟨[.unexpected t], read_unexpected hb, ?_⟩
      intro d
      rw [defectAt_iff_of_unpaired ht hb hpartner, List.mem_singleton]
    | cons p outer =>
      rw [hopen] at hpartner
      obtain ⟨o, b', ho, hb'⟩ := exists_opening_of_partner? hpartner
      rw [List.filterMap_cons_some ho, List.tail_cons]
      by_cases hkind : b' = b
      · subst hkind
        refine ⟨[], read_answer hb' hb, ?_⟩
        intro d
        simp [defectAt_iff_of_paired ht hb hpartner ho hb']
      · have hmark : o.isMark (.opening b) = false := by
          apply Bool.eq_false_iff.mpr
          intro hmark
          rw [isMark_opening_iff, hb'] at hmark
          cases hmark
          exact hkind rfl
        refine ⟨[.mismatched t o], read_mismatched hmark hb, ?_⟩
        intro d
        rw [defectAt_iff_of_paired ht hb hpartner ho hb', List.mem_singleton, and_iff_right hkind]

/-- The first tokens of a stream are read by their partners. -/
theorem read_take (ts : List Token) (n : Nat) (hn : n ≤ ts.length) :
    (read [] (ts.take n)).2 = openTokens ts n ∧
      ∀ d, d ∈ (read [] (ts.take n)).1 ↔ ∃ q < n, DefectAt ts q d := by
  induction n with
  | zero => exact ⟨rfl, fun d => by simp [read]⟩
  | succ n ih =>
    obtain ⟨hopen, hdefects⟩ := ih (Nat.le_of_succ_le hn)
    have ht : ts[n]? = some ts[n] := List.getElem?_eq_getElem hn
    obtain ⟨found, hread, hfound⟩ := read_openTokens ht
    rw [List.take_add_one, ht, Option.toList_some, read_append, hopen, hread]
    refine ⟨rfl, ?_⟩
    intro d
    simp only [List.mem_append, hdefects, hfound, Nat.lt_succ_iff_lt_or_eq, or_and_right,
      exists_or, exists_eq_left]

/-- The defective closing brackets are those without a partner and those with one of another
    kind. -/
theorem mem_read_iff : d ∈ (read [] ts).1 ↔ ∃ q, DefectAt ts q d := by
  have hread := (read_take ts ts.length (Nat.le_refl _)).2 d
  rw [List.take_length] at hread
  rw [hread]
  constructor
  · rintro ⟨q, -, hd⟩
    exact ⟨q, hd⟩
  · rintro ⟨q, hd⟩
    exact ⟨q, hd.lt_length, hd⟩

end Read

end Nesting

-- The bracket of the first pair of two kinds is used up, so that the next one is paired further out.
example : (List.range 4).map (partner? (tokens "([)]")) = [none, none, some 1, some 0] := by
  decide

end Semicolons
