import Mathlib.Data.List.Basic
import Semicolons.Text.Quoted

/-!
# What a quotation shows

A quotation can be read back. An escape tells which character it stands for, whatever is written
behind it (`prefixFree_escaped`), and none begins with the mark that ends the quotation, so that a
quotation tells its whole text (`prefixFree_quotation`). It is written on one line, since no line
break stands for itself (`not_lineBreak_of_mem_quotation`).
-/

namespace Semicolons.Text

/-- A way to write things down of which the written form can be told from what is written behind
    it. -/
def PrefixFree {α : Type} (write : α → List Char) : Prop :=
  ∀ a b rest rest', write a ++ rest = write b ++ rest' → a = b ∧ rest = rest'

/-- There is one way to cut a text in front of the first place where a character occurs. -/
theorem eq_of_append_cons_eq {x : Char} {a b rest rest' : List Char} (ha : x ∉ a) (hb : x ∉ b)
    (h : a ++ x :: rest = b ++ x :: rest') : a = b ∧ rest = rest' := by
  induction a generalizing b with
  | nil =>
    cases b with
    | nil => exact ⟨rfl, (List.cons.inj h).2⟩
    | cons d b => exact absurd ((List.cons.inj h).1 ▸ List.mem_cons_self) hb
  | cons c a ih =>
    cases b with
    | nil => exact absurd ((List.cons.inj h).1 ▸ List.mem_cons_self) ha
    | cons d b =>
      obtain ⟨rfl, hbehind⟩ := List.cons.inj h
      obtain ⟨rfl, hrest⟩ := ih (fun hx => ha (List.mem_cons_of_mem c hx))
        (fun hx => hb (List.mem_cons_of_mem c hx)) hbehind
      exact ⟨rfl, hrest⟩

section Digits

variable {base n m : Nat}

theorem eq_of_digitChar_eq (hn : n < 16) (hm : m < 16) (h : n.digitChar = m.digitChar) : n = m := by
  have hall : ∀ n < 16, ∀ m < 16, n.digitChar = m.digitChar → n = m := by decide
  exact hall n hn m hm h

/-- Numbers are told apart by their digits. -/
theorem toDigits_injective (hbase : 1 < base) (hle : base ≤ 16) :
    Function.Injective (Nat.toDigits base) := by
  intro n
  induction n using Nat.strongRecOn with
  | ind n ih =>
    intro m h
    rcases Nat.lt_or_ge n base with hn | hn <;> rcases Nat.lt_or_ge m base with hm | hm
    · rw [Nat.toDigits_of_lt_base hn, Nat.toDigits_of_lt_base hm, List.singleton_inj] at h
      exact eq_of_digitChar_eq (by omega) (by omega) h
    · rw [Nat.toDigits_of_lt_base hn, Nat.toDigits_of_base_le hbase hm,
        ← List.nil_append [n.digitChar]] at h
      exact absurd (List.append_inj' h rfl).1.symm Nat.toDigits_ne_nil
    · rw [Nat.toDigits_of_base_le hbase hn, Nat.toDigits_of_lt_base hm,
        ← List.nil_append [m.digitChar]] at h
      exact absurd (List.append_inj' h rfl).1 Nat.toDigits_ne_nil
    · rw [Nat.toDigits_of_base_le hbase hn, Nat.toDigits_of_base_le hbase hm] at h
      obtain ⟨hinit, hlast⟩ := List.append_inj' h rfl
      have hdiv : n / base = m / base := ih _ (Nat.div_lt_self (by omega) hbase) hinit
      have hlt : ∀ k, k % base < 16 := by
        intro k
        have hmod := Nat.mod_lt k (show 0 < base by omega)
        omega
      have hmod : n % base = m % base :=
        eq_of_digitChar_eq (hlt n) (hlt m) (List.singleton_inj.mp hlast)
      rw [← Nat.div_add_mod n base, ← Nat.div_add_mod m base, hdiv, hmod]

theorem exists_digitChar_of_mem (hbase : 1 < base) {c : Char} (h : c ∈ Nat.toDigits base n) :
    ∃ digit, c = Nat.digitChar digit := by
  induction n using Nat.strongRecOn with
  | ind n ih =>
    rcases Nat.lt_or_ge n base with hn | hn
    · rw [Nat.toDigits_of_lt_base hn] at h
      exact ⟨n, List.mem_singleton.mp h⟩
    · rw [Nat.toDigits_of_base_le hbase hn] at h
      rcases List.mem_append.mp h with h | h
      · exact ih _ (Nat.div_lt_self (by omega) hbase) h
      · exact ⟨n % base, List.mem_singleton.mp h⟩

end Digits

section Escape

variable {mark c : Char}

/-- The characters with an escape of one letter, each with that letter. -/
def letters (mark : Char) : List (Char × Char) :=
  [('\x00', '0'), ('\t', 't'), ('\r', 'r'), ('\n', 'n'), ('\\', '\\'), (mark, mark)]

/-- A mark that quotations are written with. -/
def IsMark (mark : Char) : Prop :=
  mark = '"' ∨ mark = '\''

/-- The letter of an escape tells the character. -/
theorem eq_of_letters {d l : Char} (hmark : IsMark mark) (hc : (c, l) ∈ letters mark)
    (hd : (d, l) ∈ letters mark) : c = d := by
  have hall : ∀ x ∈ letters mark, ∀ y ∈ letters mark, x.2 = y.2 → x.1 = y.1 := by
    rcases hmark with rfl | rfl <;> decide
  exact hall _ hc _ hd rfl

/-- The letter of an escape is not the one that announces a code point. -/
theorem letter_ne {l : Char} (hmark : IsMark mark) (hc : (c, l) ∈ letters mark) : l ≠ 'u' := by
  have hall : ∀ x ∈ letters mark, x.2 ≠ 'u' := by rcases hmark with rfl | rfl <;> decide
  exact hall _ hc

/-- The forms an escape can have. -/
theorem escaped_cases (mark c : Char) :
    (∃ l, (c, l) ∈ letters mark ∧ escaped mark c = ['\\', l]) ∨
      escaped mark c = '\\' :: 'u' :: '\x7b' :: (hexadecimal c ++ ['\x7d']) ∨
      (∀ l, (c, l) ∉ letters mark) ∧ escaped mark c = [c] := by
  by_cases hletter : ∃ l, (c, l) ∈ letters mark
  · left
    simp only [letters, List.mem_cons, Prod.mk.injEq, List.not_mem_nil, or_false] at hletter ⊢
    unfold escaped
    split_ifs <;> simp_all
  · right
    have hnone : ∀ l, (c, l) ∉ letters mark := not_exists.mp hletter
    have hplain := hnone
    simp only [letters, List.mem_cons, Prod.mk.injEq, List.not_mem_nil, or_false, not_or, not_and,
      forall_and] at hplain
    unfold escaped
    split_ifs <;> simp_all

theorem hexadecimal_injective : Function.Injective hexadecimal := by
  intro c d h
  exact Char.toNat_inj.mp (toDigits_injective (by decide) (by decide) h)

/-- What is no digit does not occur among hexadecimal digits. -/
theorem brace_not_mem_hexadecimal (c : Char) : '\x7d' ∉ hexadecimal c := by
  intro h
  obtain ⟨digit, hdigit⟩ := exists_digitChar_of_mem (by decide) h
  exact Nat.digitChar_ne '\x7d' rfl hdigit.symm

/-- An escape can be told from what is written behind it. -/
theorem prefixFree_escaped (hmark : IsMark mark) : PrefixFree (escaped mark) := by
  have hslash : ∀ x, (∀ l, (x, l) ∉ letters mark) → x ≠ '\\' := by
    rintro x hx rfl
    exact hx '\\' (by simp [letters])
  intro c d rest rest' h
  rcases escaped_cases mark c with ⟨l, hc, heq⟩ | heq | ⟨hc, heq⟩ <;>
    rcases escaped_cases mark d with ⟨l', hd, heq'⟩ | heq' | ⟨hd, heq'⟩ <;>
    simp only [heq, heq', List.cons_append, List.nil_append, List.append_assoc, List.cons.injEq,
      true_and] at h
  · obtain ⟨rfl, hrest⟩ := h
    exact ⟨eq_of_letters hmark hc hd, hrest⟩
  · exact absurd h.1 (letter_ne hmark hc)
  · exact absurd h.1.symm (hslash d hd)
  · exact absurd h.1.symm (letter_ne hmark hd)
  · obtain ⟨hdigits, hrest⟩ :=
      eq_of_append_cons_eq (brace_not_mem_hexadecimal c) (brace_not_mem_hexadecimal d) h
    exact ⟨hexadecimal_injective hdigits, hrest⟩
  · exact absurd h.1.symm (hslash d hd)
  · exact absurd h.1 (hslash c hc)
  · exact absurd h.1 (hslash c hc)
  · exact h

/-- An escape is not taken for the mark that ends a quotation. -/
theorem escaped_append_ne (hmark : IsMark mark) (c : Char) (rest rest' : List Char) :
    escaped mark c ++ rest ≠ mark :: rest' := by
  have hslash : '\\' ≠ mark := by rcases hmark with rfl | rfl <;> decide
  intro h
  rcases escaped_cases mark c with ⟨l, -, heq⟩ | heq | ⟨hc, heq⟩ <;> rw [heq] at h
  · exact hslash (List.cons.inj h).1
  · exact hslash (List.cons.inj h).1
  · obtain rfl : c = mark := (List.cons.inj h).1
    exact hc c (by simp [letters])

end Escape

section Quotation

variable {mark : Char}

/-- A text with every character escaped that needs it ends at the first mark behind it. -/
theorem eq_of_escaped_eq (hmark : IsMark mark) {a b rest rest' : List Char}
    (h : a.flatMap (escaped mark) ++ mark :: rest = b.flatMap (escaped mark) ++ mark :: rest') :
    a = b ∧ rest = rest' := by
  induction a generalizing b with
  | nil =>
    cases b with
    | nil => exact ⟨rfl, (List.cons.inj h).2⟩
    | cons d b =>
      rw [List.flatMap_cons, List.append_assoc] at h
      exact absurd h.symm (escaped_append_ne hmark d _ _)
  | cons c a ih =>
    rw [List.flatMap_cons, List.append_assoc] at h
    cases b with
    | nil => exact absurd h (escaped_append_ne hmark c _ _)
    | cons d b =>
      rw [List.flatMap_cons, List.append_assoc] at h
      obtain ⟨rfl, hbehind⟩ := prefixFree_escaped hmark c d _ _ h
      obtain ⟨rfl, hrest⟩ := ih hbehind
      exact ⟨rfl, hrest⟩

/-- A quotation tells the text it shows, whatever is written behind it. -/
theorem prefixFree_quotation (hmark : IsMark mark) : PrefixFree (quotation mark) := by
  intro a b rest rest' h
  simp only [quotation, List.cons_append, List.append_assoc, List.nil_append, List.cons.injEq,
    true_and] at h
  exact eq_of_escaped_eq hmark h

theorem not_lineBreak_of_mem_escaped (hmark : IsMark mark) {c x : Char}
    (hx : x ∈ escaped mark c) : x ≠ '\r' ∧ x ≠ '\n' := by
  rcases escaped_cases mark c with ⟨l, hl, heq⟩ | heq | ⟨hc, heq⟩ <;> rw [heq] at hx
  · have hall : ∀ y ∈ letters mark, y.2 ≠ '\r' ∧ y.2 ≠ '\n' := by
      rcases hmark with rfl | rfl <;> decide
    rcases List.mem_cons.mp hx with rfl | hx
    · decide
    · rw [List.mem_singleton.mp hx]
      exact hall _ hl
  · have hdigit : ∀ y ∈ hexadecimal c, y ≠ '\r' ∧ y ≠ '\n' := by
      intro y hy
      obtain ⟨digit, rfl⟩ := exists_digitChar_of_mem (by decide) hy
      exact ⟨Nat.digitChar_ne '\r' rfl, Nat.digitChar_ne '\n' rfl⟩
    simp only [List.mem_cons, List.mem_append, List.not_mem_nil, or_false] at hx
    rcases hx with rfl | rfl | rfl | hx | rfl
    case inr.inr.inr.inl => exact hdigit x hx
    all_goals decide
  · obtain rfl := List.mem_singleton.mp hx
    constructor <;> rintro rfl
    · exact hc 'r' (by simp [letters])
    · exact hc 'n' (by simp [letters])

/-- No line break is left in a quotation. -/
theorem not_lineBreak_of_mem_quotation (hmark : IsMark mark) {text : List Char} {x : Char}
    (hx : x ∈ quotation mark text) : x ≠ '\r' ∧ x ≠ '\n' := by
  have hmark' : mark ≠ '\r' ∧ mark ≠ '\n' := by rcases hmark with rfl | rfl <;> decide
  simp only [quotation, List.cons_append, List.mem_cons, List.mem_append, List.not_mem_nil,
    or_false] at hx
  rcases hx with rfl | hx | rfl
  · exact hmark'
  · obtain ⟨c, -, hc⟩ := List.mem_flatMap.mp hx
    exact not_lineBreak_of_mem_escaped hmark hc
  · exact hmark'

end Quotation

end Semicolons.Text
