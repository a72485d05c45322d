import Mathlib.Data.Finset.Card
import Mathlib.Data.Finset.Image
import Semicolons.Proofs.Insertion.Decision

/-!
# Points in a text

A set of byte offsets says where semicolons are written into a text. If every offset is the end of
a lexeme, the set is a choice among the lexemes (`chosenAt`), and writing the semicolons punctuates
them (`semicolonsAt_flatMap_chars`). The offsets that belong to a source text are its insertion
points, and writing a semicolon at each of them is what a conversion does
(`withSemicolons_eq_insertSemicolons`).
-/

namespace Semicolons

/-- The semicolon at an offset, if one is written there. -/
def semicolonAt (points : Finset Nat) (offset : Nat) : List Char :=
  if offset ∈ points then [';'] else []

/-- Characters from an offset on, with a semicolon written at each of the given offsets. -/
def semicolonsAt (points : Finset Nat) (offset : Nat) : List Char → List Char
  | [] => semicolonAt points offset
  | c :: rest => semicolonAt points offset ++ c :: semicolonsAt points (offset + c.utf8Size) rest

/-- A source text with a semicolon written at each of the given offsets. -/
def insertSemicolons (points : Finset Nat) (source : String) : String :=
  String.ofList (semicolonsAt points 0 source.toList)

/-- The tokens of a stream after which a semicolon is written. -/
def receivers (stream : List Token) : Finset Token :=
  (((marked stream).filter (·.2)).map Prod.fst).toFinset

/-- The offsets at which semicolons are written into the text of a stream. -/
def insertionPoints (stream : List Token) : Finset Nat :=
  (receivers stream).image (·.span.stop)

theorem mem_receivers {stream : List Token} {t : Token} :
    t ∈ receivers stream ↔ (t, true) ∈ marked stream := by
  simp [receivers]

theorem mem_insertionPoints {stream : List Token} {p : Nat} :
    p ∈ insertionPoints stream ↔ ∃ t, (t, true) ∈ marked stream ∧ t.span.stop = p := by
  simp only [insertionPoints, Finset.mem_image, mem_receivers]

theorem map_fst_marked_tokens (source : String) :
    (marked (tokens source)).map Prod.fst = tokens source := by
  rw [marked_eq fun _ => channel_of_mem_tokens, map_fst_markedByLexemes]

theorem nodup_map_fst_marked (source : String) : ((marked (tokens source)).map Prod.fst).Nodup := by
  rw [map_fst_marked_tokens]
  exact nodup_tokens source

theorem nodup_receivers (source : String) :
    (((marked (tokens source)).filter (·.2)).map Prod.fst).Nodup :=
  (nodup_map_fst_marked source).sublist (List.filter_sublist.map Prod.fst)

/-- As many tokens receive a semicolon as semicolons are written. -/
theorem card_receivers_tokens (source : String) :
    (receivers (tokens source)).card = semicolonCount (tokens source) := by
  rw [receivers, List.toFinset_card_of_nodup (nodup_receivers source), List.length_map,
    semicolonCount, List.countP_eq_length_filter]

/-- Where no semicolon is written, characters stay together. -/
theorem semicolonsAt_append {points : Finset Nat} {offset : Nat} {text rest : List Char}
    (h : ∀ p ∈ points, p < offset + byteLength text → p < offset) :
    semicolonsAt points offset (text ++ rest) =
      text ++ semicolonsAt points (offset + byteLength text) rest := by
  induction text generalizing offset with
  | nil => rfl
  | cons c text ih =>
    rw [byteLength_cons] at h
    have hpos := c.utf8Size_pos
    have hhere : offset ∉ points := fun hmem => Nat.lt_irrefl _ (h offset hmem (by omega))
    have htail : ∀ p ∈ points, p < offset + c.utf8Size + byteLength text →
        p < offset + c.utf8Size := by
      intro p hp hlt
      have := h p hp (by omega)
      omega
    rw [List.cons_append, semicolonsAt, semicolonAt, if_neg hhere, ih htail, byteLength_cons,
      Nat.add_assoc]
    rfl

/-- No semicolon is written inside characters that hold no point between their ends. -/
theorem semicolonsAt_append_of_ne_nil {points : Finset Nat} {offset : Nat} {text rest : List Char}
    (hne : text ≠ []) (h : ∀ p ∈ points, offset < p → offset + byteLength text ≤ p) :
    semicolonsAt points offset (text ++ rest) =
      semicolonAt points offset ++
        (text ++ semicolonsAt points (offset + byteLength text) rest) := by
  obtain ⟨c, text, rfl⟩ := List.exists_cons_of_ne_nil hne
  rw [byteLength_cons] at h ⊢
  have hpos := c.utf8Size_pos
  have htail : ∀ p ∈ points, p < offset + c.utf8Size + byteLength text →
      p < offset + c.utf8Size := by
    intro p hp hlt
    by_contra hge
    have := h p hp (by omega)
    omega
  rw [List.cons_append, semicolonsAt, semicolonsAt_append htail, Nat.add_assoc]
  rfl

/-- Where a semicolon is written nowhere, the text stays. -/
theorem insertSemicolons_empty (source : String) : insertSemicolons ∅ source = source := by
  have h : semicolonsAt ∅ 0 (source.toList ++ []) =
      source.toList ++ semicolonsAt ∅ (0 + byteLength source.toList) [] :=
    semicolonsAt_append (by simp)
  rw [List.append_nil] at h
  rw [insertSemicolons, h]
  simp [semicolonsAt, semicolonAt]

/-- The offsets at which the chosen ones among lexemes end, if the first one begins at `offset`. -/
def pointsOf (offset : Nat) : List (Lexeme × Bool) → List Nat
  | [] => []
  | (l, chosen) :: rest =>
    let stop := offset + byteLength l.chars
    if chosen then stop :: pointsOf stop rest else pointsOf stop rest

/-- Lexemes, the first one at `offset`, each with whether it ends at one of the given points. -/
def chosenAt (points : Finset Nat) (offset : Nat) : List Lexeme → List (Lexeme × Bool)
  | [] => []
  | l :: rest =>
    let stop := offset + byteLength l.chars
    (l, decide (stop ∈ points)) :: chosenAt points stop rest

/-- Of the same lexemes, the second choice takes all that the first one does. -/
def Within : List (Lexeme × Bool) → List (Lexeme × Bool) → Prop :=
  List.Forall₂ fun x y => x.1 = y.1 ∧ (x.2 = true → y.2 = true)

@[simp] theorem map_fst_chosenAt (points : Finset Nat) (offset : Nat) (ls : List Lexeme) :
    (chosenAt points offset ls).map Prod.fst = ls := by
  induction ls generalizing offset with
  | nil => rfl
  | cons l ls ih => rw [chosenAt, List.map_cons, ih]

theorem mem_pointsOf_cons {offset p : Nat} {l : Lexeme} {chosen : Bool}
    {rest : List (Lexeme × Bool)} :
    p ∈ pointsOf offset ((l, chosen) :: rest) ↔
      (chosen = true ∧ p = offset + byteLength l.chars) ∨
        p ∈ pointsOf (offset + byteLength l.chars) rest := by
  cases chosen <;> simp [pointsOf]

/-- There are as many points as lexemes are chosen. -/
theorem length_pointsOf (offset : Nat) (choice : List (Lexeme × Bool)) :
    (pointsOf offset choice).length = choice.countP (·.2) := by
  induction choice generalizing offset with
  | nil => rfl
  | cons x rest ih =>
    obtain ⟨l, chosen⟩ := x
    cases chosen <;> simp [pointsOf, ih]

section Nonempty

variable {points : Finset Nat} {offset p : Nat} {choice : List (Lexeme × Bool)}

/-- Every point lies behind the place where the lexemes begin. -/
theorem lt_of_mem_pointsOf (hne : ∀ x ∈ choice, x.1.chars ≠ []) (hp : p ∈ pointsOf offset choice) :
    offset < p := by
  induction choice generalizing offset with
  | nil => cases hp
  | cons x rest ih =>
    obtain ⟨l, chosen⟩ := x
    obtain ⟨hl, hrest⟩ := List.forall_mem_cons.mp hne
    have hpos : 0 < byteLength l.chars := byteLength_pos hl
    rcases mem_pointsOf_cons.mp hp with ⟨-, rfl⟩ | hp
    · omega
    · have := ih hrest hp
      omega

/-- No point lies in front of the lexemes. -/
theorem countP_pointsOf_start (hne : ∀ x ∈ choice, x.1.chars ≠ []) :
    (pointsOf offset choice).countP (· ≤ offset) = 0 := by
  rw [List.countP_eq_zero]
  intro p hp
  simpa using lt_of_mem_pointsOf hne hp

theorem nodup_pointsOf (hne : ∀ x ∈ choice, x.1.chars ≠ []) : (pointsOf offset choice).Nodup := by
  induction choice generalizing offset with
  | nil => exact List.nodup_nil
  | cons x rest ih =>
    obtain ⟨l, chosen⟩ := x
    obtain ⟨-, hrest⟩ := List.forall_mem_cons.mp hne
    cases chosen with
    | false => exact ih hrest
    | true =>
      refine List.nodup_cons.mpr ⟨?_, ih hrest⟩
      intro hmem
      exact Nat.lt_irrefl _ (lt_of_mem_pointsOf hrest hmem)

/-- Points that are among those of a choice choose among its lexemes. -/
theorem within_chosenAt (hne : ∀ x ∈ choice, x.1.chars ≠ [])
    (hpoints : ∀ p ∈ points, offset < p → p ∈ pointsOf offset choice) :
    Within (chosenAt points offset (choice.map Prod.fst)) choice := by
  induction choice generalizing offset with
  | nil => exact .nil
  | cons x rest ih =>
    obtain ⟨l, chosen⟩ := x
    obtain ⟨hl, hrest⟩ := List.forall_mem_cons.mp hne
    have hpos : 0 < byteLength l.chars := byteLength_pos hl
    refine .cons ⟨rfl, ?_⟩ (ih hrest ?_)
    · intro hchosen
      have hmem : offset + byteLength l.chars ∈ points := of_decide_eq_true hchosen
      have hp := hpoints _ hmem (by omega)
      rcases mem_pointsOf_cons.mp hp with ⟨hchosen, -⟩ | hp
      · exact hchosen
      · exact absurd (lt_of_mem_pointsOf hrest hp) (Nat.lt_irrefl _)
    · intro p hp hlt
      rcases mem_pointsOf_cons.mp (hpoints p hp (by omega)) with ⟨-, rfl⟩ | hp
      · exact absurd hlt (Nat.lt_irrefl _)
      · exact hp

/-- The points of a choice choose what it does. -/
theorem chosenAt_of_pointsOf (hne : ∀ x ∈ choice, x.1.chars ≠ [])
    (hpoints : ∀ p, offset < p → (p ∈ points ↔ p ∈ pointsOf offset choice)) :
    chosenAt points offset (choice.map Prod.fst) = choice := by
  induction choice generalizing offset with
  | nil => rfl
  | cons x rest ih =>
    obtain ⟨l, chosen⟩ := x
    obtain ⟨hl, hrest⟩ := List.forall_mem_cons.mp hne
    have hpos : 0 < byteLength l.chars := byteLength_pos hl
    have hstop : decide (offset + byteLength l.chars ∈ points) = chosen := by
      rw [Bool.eq_iff_iff, decide_eq_true_iff, hpoints (offset + byteLength l.chars) (by omega),
        mem_pointsOf_cons]
      constructor
      · rintro (⟨hchosen, -⟩ | hp)
        · exact hchosen
        · exact absurd (lt_of_mem_pointsOf hrest hp) (Nat.lt_irrefl _)
      · exact fun hchosen => Or.inl ⟨hchosen, rfl⟩
    have htail : chosenAt points (offset + byteLength l.chars) (rest.map Prod.fst) = rest := by
      refine ih hrest ?_
      intro p hlt
      rw [hpoints p (by omega), mem_pointsOf_cons]
      constructor
      · rintro (⟨-, rfl⟩ | hp)
        · exact absurd hlt (Nat.lt_irrefl _)
        · exact hp
      · exact Or.inr
    rw [List.map_cons, chosenAt, hstop, htail]

theorem mem_pointsOf_chosenAt {ls : List Lexeme}
    (hp : p ∈ pointsOf offset (chosenAt points offset ls)) : p ∈ points := by
  induction ls generalizing offset with
  | nil => cases hp
  | cons l ls ih =>
    rcases mem_pointsOf_cons.mp hp with ⟨hchosen, rfl⟩ | hp
    · exact of_decide_eq_true hchosen
    · exact ih hp

/-- A point at which a lexeme ends is one of the points at which it is chosen to. -/
theorem mem_pointsOf_chosenAt_of_mem (hp : p ∈ points) (hmem : p ∈ pointsOf offset choice) :
    p ∈ pointsOf offset (chosenAt points offset (choice.map Prod.fst)) := by
  induction choice generalizing offset with
  | nil => cases hmem
  | cons x rest ih =>
    obtain ⟨l, chosen⟩ := x
    rw [List.map_cons, chosenAt, mem_pointsOf_cons]
    rcases mem_pointsOf_cons.mp hmem with ⟨-, rfl⟩ | hmem
    · exact Or.inl ⟨decide_eq_true hp, rfl⟩
    · exact Or.inr (ih hmem)

/-- Points at which lexemes end choose as many lexemes as they are. -/
theorem countP_chosenAt (hne : ∀ x ∈ choice, x.1.chars ≠ [])
    (hpoints : ∀ p ∈ points, p ∈ pointsOf offset choice) :
    (chosenAt points offset (choice.map Prod.fst)).countP (·.2) = points.card := by
  have hne' : ∀ x ∈ chosenAt points offset (choice.map Prod.fst), x.1.chars ≠ [] := by
    intro x hx
    have hmem : x.1 ∈ (chosenAt points offset (choice.map Prod.fst)).map Prod.fst :=
      List.mem_map_of_mem hx
    rw [map_fst_chosenAt] at hmem
    obtain ⟨y, hy, hxy⟩ := List.mem_map.mp hmem
    exact hxy ▸ hne y hy
  have hset : (pointsOf offset (chosenAt points offset (choice.map Prod.fst))).toFinset =
      points := by
    ext p
    rw [List.mem_toFinset]
    exact ⟨mem_pointsOf_chosenAt, fun hp => mem_pointsOf_chosenAt_of_mem hp (hpoints p hp)⟩
  rw [← length_pointsOf offset, ← List.toFinset_card_of_nodup (nodup_pointsOf hne'), hset]

/-- Semicolons at points where lexemes end punctuate the lexemes. -/
theorem semicolonsAt_flatMap_chars (hne : ∀ x ∈ choice, x.1.chars ≠ [])
    (hpoints : ∀ p ∈ points, offset < p → p ∈ pointsOf offset choice) :
    semicolonsAt points offset ((choice.map Prod.fst).flatMap Lexeme.chars) =
      semicolonAt points offset ++
        (punctuated (chosenAt points offset (choice.map Prod.fst))).flatMap Lexeme.chars := by
  induction choice generalizing offset with
  | nil => simp [semicolonsAt, chosenAt, punctuated]
  | cons x rest ih =>
    obtain ⟨l, chosen⟩ := x
    obtain ⟨hl, hrest⟩ := List.forall_mem_cons.mp hne
    have hbehind : ∀ p ∈ points, offset < p →
        p = offset + byteLength l.chars ∨ p ∈ pointsOf (offset + byteLength l.chars) rest := by
      intro p hp hlt
      exact (mem_pointsOf_cons.mp (hpoints p hp hlt)).imp_left And.right
    have hinside : ∀ p ∈ points, offset < p → offset + byteLength l.chars ≤ p := by
      intro p hp hlt
      rcases hbehind p hp hlt with rfl | hmem
      · exact Nat.le_refl _
      · exact Nat.le_of_lt (lt_of_mem_pointsOf hrest hmem)
    have htail : ∀ p ∈ points, offset + byteLength l.chars < p →
        p ∈ pointsOf (offset + byteLength l.chars) rest := by
      intro p hp hlt
      exact (hbehind p hp (by omega)).resolve_left (by omega)
    rw [List.map_cons, List.flatMap_cons, semicolonsAt_append_of_ne_nil hl hinside, ih hrest htail,
      chosenAt]
    by_cases hmem : offset + byteLength l.chars ∈ points <;> simp [semicolonAt, punctuated, hmem]

end Nonempty

/-- Written semicolons take one byte each. -/
theorem byteLength_punctuated (choice : List (Lexeme × Bool)) :
    byteLength ((punctuated choice).flatMap Lexeme.chars) =
      byteLength ((choice.map Prod.fst).flatMap Lexeme.chars) + choice.countP (·.2) := by
  have hsemi : byteLength [';'] = 1 := rfl
  induction choice with
  | nil => rfl
  | cons x rest ih =>
    obtain ⟨l, written⟩ := x
    cases written
    · simp [punctuated, ih, Nat.add_assoc]
    · simp only [punctuated, List.flatMap_cons, byteLength_append, Lexeme.chars_semicolon, hsemi,
        ih, List.map_cons, List.countP_cons, if_true]
      omega

section Source

variable {source : String}

/-- The lexemes of a source text that are decided upon hold characters. -/
theorem chars_ne_nil_of_mem_decisions {x : Lexeme × Bool} (h : x ∈ decisions (lexemes source)) :
    x.1.chars ≠ [] := by
  have hmem : x.1 ∈ (decisions (lexemes source)).map Prod.fst := List.mem_map_of_mem h
  rw [map_fst_decisions] at hmem
  exact (cuts_lexemes source).chars_ne_nil hmem

theorem pointsOf_decisions (index offset : Nat) (ls : List Lexeme) :
    pointsOf offset (decisions ls) =
      ((markedByLexemes (inPlace index offset (ls ++ [.endOfInput]))).filter (·.2)).map
        (·.1.span.stop) := by
  induction ls generalizing index offset with
  | nil => rfl
  | cons l ls ih =>
    rw [decisions, List.cons_append, inPlace_cons, markedByLexemes, map_toLexeme_inPlace]
    cases hw : l.wantsSemicolon (ls ++ [.endOfInput]) <;> simp [pointsOf, ih (index + 1)]

/-- The insertion points of a source text are the ends of the lexemes decided upon. -/
theorem pointsOf_decisions_lexemes (source : String) :
    pointsOf 0 (decisions (lexemes source)) =
      ((marked (tokens source)).filter (·.2)).map (·.1.span.stop) := by
  rw [pointsOf_decisions 0, ← tokens_eq_inPlace, marked_eq fun _ => channel_of_mem_tokens]

theorem mem_insertionPoints_tokens {p : Nat} :
    p ∈ insertionPoints (tokens source) ↔ p ∈ pointsOf 0 (decisions (lexemes source)) := by
  rw [mem_insertionPoints, pointsOf_decisions_lexemes]
  simp

theorem mem_pointsOf_of_subset {points : Finset Nat}
    (h : points ⊆ insertionPoints (tokens source)) :
    ∀ p ∈ points, p ∈ pointsOf 0 (decisions (lexemes source)) :=
  fun _ hp => mem_insertionPoints_tokens.mp (h hp)

/-- As many tokens receive a semicolon up to an offset as there are points up to it. -/
theorem card_filter_receivers (source : String) (offset : Nat) :
    ((receivers (tokens source)).filter (·.span.stop ≤ offset)).card =
      (pointsOf 0 (decisions (lexemes source))).countP (· ≤ offset) := by
  have hfilter : (receivers (tokens source)).filter (·.span.stop ≤ offset) =
      ((((marked (tokens source)).filter (·.2)).map Prod.fst).filter
        (·.span.stop ≤ offset)).toFinset := by
    rw [List.toFinset_filter]
    simp [receivers]
  rw [hfilter, List.toFinset_card_of_nodup ((nodup_receivers source).filter _),
    ← List.countP_eq_length_filter, List.countP_map, pointsOf_decisions_lexemes, List.countP_map]
  rfl

/-- Where an offset of a source text lies in the converted text: further right by the semicolons
    that are written in front of it. -/
def placeInOutput (source : String) (offset : Nat) : Nat :=
  offset + ((insertionPoints (tokens source)).filter (· ≤ offset)).card

theorem card_filter_insertionPoints (source : String) (offset : Nat) :
    ((insertionPoints (tokens source)).filter (· ≤ offset)).card =
      (pointsOf 0 (decisions (lexemes source))).countP (· ≤ offset) := by
  have hfilter : (insertionPoints (tokens source)).filter (· ≤ offset) =
      ((pointsOf 0 (decisions (lexemes source))).filter (· ≤ offset)).toFinset := by
    ext p
    simp [mem_insertionPoints_tokens]
  have hnodup : (pointsOf 0 (decisions (lexemes source))).Nodup :=
    nodup_pointsOf fun _ => chars_ne_nil_of_mem_decisions
  rw [hfilter, List.toFinset_card_of_nodup (hnodup.filter _), List.countP_eq_length_filter]

/-- Semicolons written at some of the insertion points of a source text punctuate its lexemes. -/
theorem toList_insertSemicolons {points : Finset Nat}
    (h : points ⊆ insertionPoints (tokens source)) :
    (insertSemicolons points source).toList =
      (punctuated (chosenAt points 0 (lexemes source))).flatMap Lexeme.chars := by
  have hpoints := mem_pointsOf_of_subset h
  have hzero : 0 ∉ points := fun hmem =>
    absurd (lt_of_mem_pointsOf (fun _ => chars_ne_nil_of_mem_decisions) (hpoints 0 hmem))
      (Nat.lt_irrefl 0)
  have hflat := semicolonsAt_flatMap_chars (fun _ => chars_ne_nil_of_mem_decisions)
    fun p hp (_ : 0 < p) => hpoints p hp
  rw [map_fst_decisions, (cuts_lexemes source).flatMap_chars, semicolonAt, if_neg hzero,
    List.nil_append] at hflat
  rw [insertSemicolons, String.toList_ofList, hflat]

/-- The insertion points of a source text choose the lexemes decided upon. -/
theorem chosenAt_insertionPoints (source : String) :
    chosenAt (insertionPoints (tokens source)) 0 (lexemes source) = decisions (lexemes source) := by
  have hpoints : ∀ p, 0 < p → (p ∈ insertionPoints (tokens source) ↔
      p ∈ pointsOf 0 (decisions (lexemes source))) := fun _ _ => mem_insertionPoints_tokens
  have h := chosenAt_of_pointsOf (fun _ => chars_ne_nil_of_mem_decisions) hpoints
  rwa [map_fst_decisions] at h

/-- A converted text is the source text with a semicolon at each of its insertion points. -/
theorem withSemicolons_eq_insertSemicolons (source : String) :
    withSemicolons (tokens source) = insertSemicolons (insertionPoints (tokens source)) source := by
  apply String.toList_inj.mp
  rw [toList_withSemicolons_tokens, toList_insertSemicolons (Finset.Subset.refl _),
    chosenAt_insertionPoints]

/-- No two tokens that receive a semicolon have the same end. -/
theorem card_insertionPoints_tokens (source : String) :
    (insertionPoints (tokens source)).card = semicolonCount (tokens source) := by
  have hcount := countP_chosenAt (fun _ => chars_ne_nil_of_mem_decisions)
    (mem_pointsOf_of_subset (Finset.Subset.refl (insertionPoints (tokens source))))
  rw [map_fst_decisions, chosenAt_insertionPoints] at hcount
  rw [← hcount, semicolonCount_tokens]

/-- A converted text has as many bytes more than the source text as semicolons are written. -/
theorem utf8ByteSize_withSemicolons_tokens (source : String) :
    (withSemicolons (tokens source)).utf8ByteSize =
      source.utf8ByteSize + semicolonCount (tokens source) := by
  calc (withSemicolons (tokens source)).utf8ByteSize
      = byteLength (withSemicolons (tokens source)).toList := by
        rw [← utf8ByteSize_ofList, String.ofList_toList]
    _ = byteLength source.toList + (decisions (lexemes source)).countP (·.2) := by
        rw [toList_withSemicolons_tokens, byteLength_punctuated, map_fst_decisions,
          (cuts_lexemes source).flatMap_chars]
    _ = source.utf8ByteSize + semicolonCount (tokens source) := by
        rw [semicolonCount_tokens, ← utf8ByteSize_ofList, String.ofList_toList]

end Source

end Semicolons
