import Semicolons.Nesting
import Semicolons.Proofs.Site.Pairing

/-!
# Nested words of brackets

`Nested` says of a word of brackets of all kinds that it nests: groups stand side by side or inside
one another, and every group is closed by a bracket of its own kind. A stream is read without
defects and without groups left open exactly if its brackets nest (`read_eq_nil_iff`). Pairing
the brackets of each kind on its own then finds the same groups, since counting passes over a
nested stretch as if it were not there (`closer?_append_of_nested`).
-/

namespace Semicolons

/-- Words of brackets that nest. -/
inductive Nested : List (Side × Bracket) → Prop
  | nil : Nested []
  | group {b : Bracket} {inner rest : List (Side × Bracket)} :
      Nested inner → Nested rest →
      Nested ((.opening, b) :: (inner ++ (.closing, b) :: rest))

/-- The brackets among tokens. -/
def brackets (ts : List Token) : List (Side × Bracket) :=
  ts.filterMap fun t => t.kind.bracket?

@[simp] theorem brackets_append (a b : List Token) : brackets (a ++ b) = brackets a ++ brackets b :=
  List.filterMap_append

theorem brackets_cons_of_none {t : Token} (h : t.kind.bracket? = none) (ts : List Token) :
    brackets (t :: ts) = brackets ts := by
  simp [brackets, h]

theorem brackets_cons_of_some {t : Token} {x : Side × Bracket} (h : t.kind.bracket? = some x)
    (ts : List Token) : brackets (t :: ts) = x :: brackets ts := by
  simp [brackets, h]

theorem Kind.bracket?_eq_opening_iff {k : Kind} {b : Bracket} :
    k.bracket? = some (.opening, b) ↔ k = .punctuation (.opening b) := by
  constructor
  · intro h
    cases k with
    | punctuation mark => cases mark <;> cases b <;> first | rfl | cases h
    | _ => cases h
  · rintro rfl
    exact Punctuation.bracket?_opening b

theorem Kind.eq_rParen {k : Kind} (h : k.bracket? = some (.closing, .round)) :
    k = .punctuation .rParen := by
  cases k with
  | punctuation mark => cases mark <;> first | rfl | cases h
  | _ => cases h

theorem isMark_opening_iff {t : Token} {b : Bracket} :
    t.isMark (.opening b) = true ↔ t.kind.bracket? = some (.opening, b) := by
  rw [Kind.bracket?_eq_opening_iff, Token.isMark, beq_iff_eq]

theorem isMark_rParen_iff {t : Token} :
    t.isMark .rParen = true ↔ t.kind.bracket? = some (.closing, .round) := by
  constructor
  · intro h
    rw [beq_iff_eq.mp h]
    rfl
  · exact fun h => beq_iff_eq.mpr (Kind.eq_rParen h)

/-- A bracket in the word of a stream is one of its tokens. -/
theorem exists_token_of_brackets {ts : List Token} {x : Side × Bracket}
    {inner rest : List (Side × Bracket)} (h : brackets ts = inner ++ x :: rest) :
    ∃ before t after, ts = before ++ t :: after ∧ brackets before = inner ∧
      t.kind.bracket? = some x ∧ brackets after = rest := by
  obtain ⟨first, second, rfl, hfirst, hsecond⟩ := List.filterMap_eq_append_iff.mp h
  obtain ⟨last, t, after, rfl, hlast, ht, hafter⟩ := List.filterMap_eq_cons_iff.mp hsecond
  refine ⟨first ++ last, t, after, by simp, ?_, ht, hafter⟩
  have hplain : brackets last = [] := List.filterMap_eq_nil_iff.mpr hlast
  have hfirst : brackets first = inner := hfirst
  rw [brackets_append, hplain, List.append_nil, hfirst]

/-- An induction over tokens whose brackets nest: either there are no brackets, or there is a first
    group, and both the inside of the group and what comes behind it nest. -/
theorem nested_induction {motive : List Token → Prop}
    (plain : ∀ ts : List Token, (∀ t ∈ ts, t.kind.bracket? = none) → motive ts)
    (group : ∀ (b : Bracket) (before : List Token) (opener : Token) (inner : List Token)
      (closer : Token) (after : List Token), (∀ t ∈ before, t.kind.bracket? = none) →
      opener.kind.bracket? = some (.opening, b) → closer.kind.bracket? = some (.closing, b) →
      motive inner → motive after →
      motive (before ++ opener :: (inner ++ closer :: after)))
    {ts : List Token} (h : Nested (brackets ts)) : motive ts := by
  generalize hw : brackets ts = w at h
  induction h generalizing ts with
  | nil => exact plain ts (List.filterMap_eq_nil_iff.mp hw)
  | @group b inner rest _ _ ihinner ihrest =>
    rw [← List.nil_append (_ :: _)] at hw
    obtain ⟨before, opener, behind, rfl, hbefore, hopener, hbehind⟩ := exists_token_of_brackets hw
    obtain ⟨inside, closer, after, rfl, hinside, hcloser, hafter⟩ :=
      exists_token_of_brackets hbehind
    have hplain := List.filterMap_eq_nil_iff.mp hbefore
    exact group b before opener inside closer after hplain hopener hcloser (ihinner hinside)
      (ihrest hafter)

namespace Nesting

section Read

variable {opened ts rest : List Token} {t : Token} {b : Bracket}

theorem read_none (h : t.kind.bracket? = none) : read opened (t :: rest) = read opened rest := by
  simp [read, h]

theorem read_opening (h : t.kind.bracket? = some (.opening, b)) :
    read opened (t :: rest) = read (t :: opened) rest := by
  simp [read, h]

/-- A closing bracket answers the innermost group if that is of its kind. -/
theorem read_answer {opener : Token} (hopener : opener.kind.bracket? = some (.opening, b))
    (ht : t.kind.bracket? = some (.closing, b)) :
    read (opener :: opened) (t :: rest) = read opened rest := by
  simp [read, ht, isMark_opening_iff.mpr hopener]

theorem read_unexpected (ht : t.kind.bracket? = some (.closing, b)) :
    read [] (t :: rest) = (.unexpected t :: (read [] rest).1, (read [] rest).2) := by
  simp [read, ht]

theorem read_mismatched {opener : Token} (hopener : opener.isMark (.opening b) = false)
    (ht : t.kind.bracket? = some (.closing, b)) :
    read (opener :: opened) (t :: rest) =
      (.mismatched t opener :: (read opened rest).1, (read opened rest).2) := by
  simp [read, ht, hopener]

theorem read_plain (h : ∀ t ∈ ts, t.kind.bracket? = none) :
    read opened (ts ++ rest) = read opened rest := by
  induction ts with
  | nil => rfl
  | cons t ts ih =>
    obtain ⟨ht, hts⟩ := List.forall_mem_cons.mp h
    rw [List.cons_append, read_none ht, ih hts]

/-- A nested stretch is read as if it were not there. -/
theorem read_append_of_nested (h : Nested (brackets ts)) :
    ∀ opened rest, read opened (ts ++ rest) = read opened rest := by
  refine nested_induction (motive := fun ts => ∀ opened rest,
    read opened (ts ++ rest) = read opened rest) ?_ ?_ h
  · intro ts hts opened rest
    exact read_plain hts
  · intro b before opener inner closer after hbefore hopener hcloser hinner hafter opened rest
    calc
      read opened (before ++ opener :: (inner ++ closer :: after) ++ rest)
        = read opened (before ++ opener :: (inner ++ closer :: (after ++ rest))) := by simp
      _ = read (opener :: opened) (inner ++ closer :: (after ++ rest)) := by
        rw [read_plain hbefore, read_opening hopener]
      _ = read opened (after ++ rest) := by rw [hinner, read_answer hopener hcloser]
      _ = read opened rest := hafter opened rest

/-- A stream is read in parts: the groups that the first part leaves open are closed in the
    second. -/
theorem read_append (opened ts rest : List Token) :
    read opened (ts ++ rest) =
      ((read opened ts).1 ++ (read (read opened ts).2 rest).1,
        (read (read opened ts).2 rest).2) := by
  induction ts generalizing opened with
  | nil => rfl
  | cons t ts ih =>
    rw [List.cons_append]
    cases ht : t.kind.bracket? with
    | none => rw [read_none ht, read_none ht, ih]
    | some x =>
      obtain ⟨side, b⟩ := x
      cases side with
      | opening => rw [read_opening ht, read_opening ht, ih]
      | closing =>
        cases opened with
        | nil => rw [read_unexpected ht, read_unexpected ht, ih, List.cons_append]
        | cons opener outer =>
          by_cases hmark : opener.isMark (.opening b) = true
          · have hopener := isMark_opening_iff.mp hmark
            rw [read_answer hopener ht, read_answer hopener ht, ih]
          · have hopener : opener.isMark (.opening b) = false := by simpa using hmark
            rw [read_mismatched hopener ht, read_mismatched hopener ht, ih, List.cons_append]

end Read

/-- A word that closes the groups `opened`, the innermost first, and nests otherwise. -/
def Unwinds : List Token → List (Side × Bracket) → Prop
  | [], w => Nested w
  | opener :: outer, w => ∃ b inner rest, opener.kind.bracket? = some (.opening, b) ∧
      w = inner ++ (.closing, b) :: rest ∧ Nested inner ∧ Unwinds outer rest

/-- A group in front of a word that unwinds joins the first nested stretch of it. -/
theorem Unwinds.group {b : Bracket} {opened : List Token} {inner rest : List (Side × Bracket)}
    (hinner : Nested inner) (h : Unwinds opened rest) :
    Unwinds opened ((.opening, b) :: (inner ++ (.closing, b) :: rest)) := by
  cases opened with
  | nil => exact Nested.group hinner h
  | cons opener outer =>
    obtain ⟨b', inner', rest', hopener, rfl, hinner', hrest⟩ := h
    exact ⟨b', (.opening, b) :: (inner ++ (.closing, b) :: inner'), rest', hopener, by simp,
      hinner.group hinner', hrest⟩

/-- What is read without defects, and closes all groups, unwinds them. -/
theorem unwinds_of_read {opened ts : List Token} (h : read opened ts = ([], [])) :
    Unwinds opened (brackets ts) := by
  induction ts generalizing opened with
  | nil =>
    obtain rfl : opened = [] := (Prod.mk.inj h).2
    exact Nested.nil
  | cons t ts ih =>
    cases ht : t.kind.bracket? with
    | none =>
      rw [brackets_cons_of_none ht]
      rw [read_none ht] at h
      exact ih h
    | some x =>
      obtain ⟨side, b⟩ := x
      rw [brackets_cons_of_some ht]
      cases side with
      | opening =>
        rw [read_opening ht] at h
        obtain ⟨b', inner, rest, hopener, hword, hinner, hrest⟩ := ih h
        obtain rfl : b = b' := by
          rw [ht] at hopener
          cases hopener
          rfl
        rw [hword]
        exact hrest.group hinner
      | closing =>
        cases opened with
        | nil =>
          rw [read_unexpected ht] at h
          cases h
        | cons opener outer =>
          by_cases hmark : opener.isMark (.opening b) = true
          · have hopener := isMark_opening_iff.mp hmark
            rw [read_answer hopener ht] at h
            exact ⟨b, [], brackets ts, hopener, rfl, .nil, ih h⟩
          · rw [read_mismatched (by simpa using hmark) ht] at h
            cases h

/-- A stream is read without defects and without groups left open exactly if its brackets nest. -/
theorem read_eq_nil_iff {ts : List Token} : read [] ts = ([], []) ↔ Nested (brackets ts) := by
  constructor
  · exact unwinds_of_read
  · intro h
    have hread := read_append_of_nested h [] []
    rwa [List.append_nil] at hread

/-- In a stream whose brackets nest, what follows an opening bracket is its group, which nests,
    then the bracket that closes it. -/
theorem exists_closer_of_nested {before behind : List Token} {opener : Token} {b : Bracket}
    (h : Nested (brackets (before ++ opener :: behind)))
    (hopener : opener.kind.bracket? = some (.opening, b)) :
    ∃ inner closer after, behind = inner ++ closer :: after ∧ Nested (brackets inner) ∧
      closer.kind.bracket? = some (.closing, b) := by
  have hread := read_eq_nil_iff.mpr h
  rw [read_append, Prod.mk.injEq, List.append_eq_nil_iff] at hread
  have hbehind : read (opener :: (read [] before).2) behind = ([], []) := by
    rw [← read_opening hopener]
    exact Prod.ext hread.1.2 hread.2
  obtain ⟨b', inner, rest, hopener', hword, hinner, -⟩ := unwinds_of_read hbehind
  obtain rfl : b = b' := by
    rw [hopener] at hopener'
    cases hopener'
    rfl
  obtain ⟨inside, closer, after, rfl, hinside, hcloser, -⟩ := exists_token_of_brackets hword
  exact ⟨inside, closer, after, rfl, hinside ▸ hinner, hcloser⟩

end Nesting

section Closer

variable {b : Bracket} {ts : List Token}

theorem closer?_append_of_plain (h : ∀ t ∈ ts, t.kind.bracket? = none) (depth : Nat)
    (rest : List Kind) : closer? b depth (ts.map (·.kind) ++ rest) =
      (closer? b depth rest).map (· + ts.length) := by
  induction ts with
  | nil => simp
  | cons t ts ih =>
    obtain ⟨ht, hts⟩ := List.forall_mem_cons.mp h
    rw [List.map_cons, List.cons_append, closer?_other (by simp [ht]), ih hts, Option.map_map]
    congr 1

/-- Counting passes over a nested stretch as if it were not there. -/
theorem closer?_append_of_nested (h : Nested (brackets ts)) :
    ∀ depth rest, closer? b depth (ts.map (·.kind) ++ rest) =
      (closer? b depth rest).map (· + ts.length) := by
  refine nested_induction (motive := fun ts => ∀ depth rest,
    closer? b depth (ts.map (·.kind) ++ rest) = (closer? b depth rest).map (· + ts.length))
    ?_ ?_ h
  · intro ts hts depth rest
    exact closer?_append_of_plain hts depth rest
  · intro b' before opener inner closer after hbefore hopener hcloser hinner hafter depth rest
    have hgroup : closer? b depth (opener.kind :: (inner.map (·.kind) ++
          closer.kind :: (after.map (·.kind) ++ rest))) =
        (closer? b depth (after.map (·.kind) ++ rest)).map (· + (inner.length + 2)) := by
      by_cases hb : b = b'
      · subst hb
        rw [closer?_opening hopener, hinner, closer?_closing_succ hcloser, Option.map_map,
          Option.map_map]
        congr 1
        funext n
        simp only [Function.comp]
        omega
      · rw [closer?_other (by simp [hopener, Ne.symm hb]), hinner,
          closer?_other (by simp [hcloser, Ne.symm hb]), Option.map_map, Option.map_map]
        congr 1
        funext n
        simp only [Function.comp]
        omega
    have hlist : (before ++ opener :: (inner ++ closer :: after)).map (·.kind) ++ rest =
        before.map (·.kind) ++ (opener.kind :: (inner.map (·.kind) ++
          closer.kind :: (after.map (·.kind) ++ rest))) := by
      simp
    rw [hlist, closer?_append_of_plain hbefore, hgroup, hafter, Option.map_map, Option.map_map]
    congr 1
    funext n
    simp only [Function.comp, List.length_append, List.length_cons]
    omega

/-- The bracket that closes a group is found behind the nested stretch that the group holds. -/
theorem inside?_of_nested {opener closer : Token} (h : Nested (brackets ts))
    (hopener : opener.kind.bracket? = some (.opening, b))
    (hcloser : closer.kind.bracket? = some (.closing, b)) (rest : List Kind) :
    inside? opener.kind (ts.map (·.kind) ++ closer.kind :: rest) = some ts.length := by
  rw [inside?_opening hopener, closer?_append_of_nested h, closer?_closing_zero hcloser]
  simp

end Closer

end Semicolons
