import Semicolons.Site

/-!
# Pairing of brackets

Brackets are paired from the end of a sequence backwards, with the closing brackets of each kind
kept in a stack. Seen from an opening bracket, the bracket that closes it is found by counting the
depth of the groups of its kind (`closer?`), and the two ways to find it agree (`insides_cons`).
-/

namespace Semicolons

/-- How many items stand in front of the bracket that closes a group of kind `b` around a
    sequence, where `depth` further groups of that kind are to be closed first. -/
def closer? (b : Bracket) : Nat → List Kind → Option Nat
  | _, [] => none
  | depth, k :: rest =>
    if k.bracket? = some (.opening, b) then (closer? b (depth + 1) rest).map (· + 1)
    else if k.bracket? = some (.closing, b) then
      match depth with
      | 0 => some 0
      | depth + 1 => (closer? b depth rest).map (· + 1)
    else (closer? b depth rest).map (· + 1)

/-- How many items stand between an opening bracket and the one that closes it. There is no answer
    for other items. -/
def inside? (k : Kind) (rest : List Kind) : Option Nat :=
  match k.bracket? with
  | some (.opening, b) => closer? b 0 rest
  | _ => none

section Closer

variable {b : Bracket} {k : Kind} {rest : List Kind}

theorem closer?_opening (h : k.bracket? = some (.opening, b)) (depth : Nat) :
    closer? b depth (k :: rest) = (closer? b (depth + 1) rest).map (· + 1) := by
  simp [closer?, h]

theorem closer?_closing_zero (h : k.bracket? = some (.closing, b)) :
    closer? b 0 (k :: rest) = some 0 := by
  simp [closer?, h]

theorem closer?_closing_succ (h : k.bracket? = some (.closing, b)) (depth : Nat) :
    closer? b (depth + 1) (k :: rest) = (closer? b depth rest).map (· + 1) := by
  simp [closer?, h]

theorem closer?_other (h : ∀ side, k.bracket? ≠ some (side, b)) (depth : Nat) :
    closer? b depth (k :: rest) = (closer? b depth rest).map (· + 1) := by
  simp [closer?, h]

theorem inside?_opening (h : k.bracket? = some (.opening, b)) : inside? k rest = closer? b 0 rest := by
  simp [inside?, h]

end Closer

namespace Waiting

theorem ofKind_setKind (w : Waiting) (b b' : Bracket) (closers : List Nat) :
    (w.setKind b closers).ofKind b' = if b' = b then closers else w.ofKind b' := by
  cases b <;> cases b' <;> rfl

theorem setKind_ofKind (w : Waiting) (b : Bracket) : w.setKind b (w.ofKind b) = w := by
  cases b <;> rfl

@[simp] theorem met_setKind (w : Waiting) (b : Bracket) (closers : List Nat) :
    (w.setKind b closers).met = w.met := by
  cases b <;> rfl

@[simp] theorem ofKind_skip (w : Waiting) (b : Bracket) : w.skip.ofKind b = w.ofKind b := by
  cases b <;> rfl

@[simp] theorem met_skip (w : Waiting) : w.skip.met = w.met + 1 :=
  rfl

/-- What waits is what counting finds: at each depth, the closing bracket of that depth. -/
structure Awaits (w : Waiting) (kinds : List Kind) : Prop where
  lt_met : ∀ b, ∀ c ∈ w.ofKind b, c < w.met
  closer : ∀ b depth, closer? b depth kinds = (w.ofKind b)[depth]?.map (w.met - 1 - ·)

theorem awaits_initial : initial.Awaits [] := by
  constructor
  · intro b c hc
    cases b <;> cases hc
  · intro b depth
    cases b <;> rfl

variable {w : Waiting} {k : Kind} {kinds : List Kind}

/-- From one item further left, every closing bracket is one item further away. -/
theorem Awaits.map_succ (h : w.Awaits kinds) (b : Bracket) (depth : Nat) :
    (closer? b depth kinds).map (· + 1) = (w.ofKind b)[depth]?.map (w.met - ·) := by
  rw [h.closer, Option.map_map]
  apply Option.map_congr
  intro c hc
  have hlt := h.lt_met b c (List.mem_of_getElem? hc)
  show w.met - 1 - c + 1 = w.met - c
  omega

theorem Awaits.skip (h : w.Awaits kinds) (hk : k.bracket? = none) : w.skip.Awaits (k :: kinds) := by
  constructor
  · intro b c hc
    rw [ofKind_skip] at hc
    exact Nat.lt_succ_of_lt (h.lt_met b c hc)
  · intro b depth
    rw [closer?_other (by simp [hk]), h.map_succ, ofKind_skip]
    rfl

theorem Awaits.closing {b : Bracket} (h : w.Awaits kinds) (hk : k.bracket? = some (.closing, b)) :
    (w.setKind b (w.met :: w.ofKind b)).skip.Awaits (k :: kinds) := by
  constructor
  · intro b' c hc
    rw [ofKind_skip, ofKind_setKind] at hc
    rw [met_skip, met_setKind]
    split at hc
    · rcases List.mem_cons.mp hc with rfl | hc
      · exact Nat.lt_succ_self _
      · exact Nat.lt_succ_of_lt (h.lt_met b c hc)
    · exact Nat.lt_succ_of_lt (h.lt_met b' c hc)
  · intro b' depth
    rw [ofKind_skip, ofKind_setKind, met_skip, met_setKind]
    by_cases hb : b' = b
    · subst hb
      rw [if_pos rfl]
      cases depth with
      | zero =>
        rw [closer?_closing_zero hk]
        simp
      | succ depth =>
        rw [closer?_closing_succ hk, h.map_succ]
        rfl
    · rw [if_neg hb, closer?_other (by simp [hk, Ne.symm hb]), h.map_succ]
      rfl

theorem Awaits.opening {b : Bracket} (h : w.Awaits kinds) (hk : k.bracket? = some (.opening, b)) :
    (w.setKind b (w.ofKind b).tail).skip.Awaits (k :: kinds) := by
  constructor
  · intro b' c hc
    rw [ofKind_skip, ofKind_setKind] at hc
    rw [met_skip, met_setKind]
    split at hc
    · exact Nat.lt_succ_of_lt (h.lt_met b c (List.mem_of_mem_tail hc))
    · exact Nat.lt_succ_of_lt (h.lt_met b' c hc)
  · intro b' depth
    rw [ofKind_skip, ofKind_setKind, met_skip, met_setKind]
    by_cases hb : b' = b
    · subst hb
      rw [if_pos rfl, closer?_opening hk, h.map_succ, List.getElem?_tail]
      rfl
    · rw [if_neg hb, closer?_other (by simp [hk, Ne.symm hb]), h.map_succ]
      rfl

end Waiting

open Waiting in
/-- One step of the pairing finds what counting finds. -/
theorem pairStep_awaits {w : Waiting} {kinds : List Kind} (h : w.Awaits kinds) (k : Kind)
    (found : List (Option Nat)) :
    (pairStep k (w, found)).1.Awaits (k :: kinds) ∧
      (pairStep k (w, found)).2 = inside? k kinds :: found := by
  unfold pairStep inside?
  cases hk : k.bracket? with
  | none => exact ⟨h.skip hk, rfl⟩
  | some x =>
    obtain ⟨side, b⟩ := x
    cases side with
    | closing => exact ⟨h.closing hk, rfl⟩
    | opening =>
      have hnext := h.opening hk
      have hfound := h.closer b 0
      cases hw : w.ofKind b with
      | nil =>
        have hsame : w.setKind b [] = w := by
          rw [← hw, setKind_ofKind]
        rw [hw, List.tail_nil, hsame] at hnext
        rw [hw] at hfound
        simp only [hw, hfound]
        exact ⟨hnext, rfl⟩
      | cons c others =>
        rw [hw, List.tail_cons] at hnext
        rw [hw] at hfound
        simp only [hw, hfound]
        exact ⟨hnext, rfl⟩

theorem foldr_pairStep_awaits (kinds : List Kind) :
    (kinds.foldr pairStep (.initial, [])).1.Awaits kinds := by
  induction kinds with
  | nil => exact Waiting.awaits_initial
  | cons k kinds ih => exact (pairStep_awaits ih k _).1

/-- Pairing from the end of a sequence finds what counting from each bracket on finds. -/
theorem insides_cons (k : Kind) (kinds : List Kind) :
    insides (k :: kinds) = inside? k kinds :: insides kinds :=
  (pairStep_awaits (foldr_pairStep_awaits kinds) k _).2

end Semicolons
