import Semicolons.Proofs.Insertion.Decision
import Semicolons.Proofs.Insertion.Relexing
import Semicolons.Proofs.Nesting.Word
import Semicolons.Proofs.Site.Sequence

/-!
# Sites with semicolons between them

`Punctuates` relates the sites of a text to those of the text with semicolons written anywhere in
it: the same tokens at other places, and semicolons. A semicolon is no bracket, so a group that is
closed on one side is closed on the other (`Punctuates.closer`), and brackets are read with the
same defects (`Punctuates.read`). The sites of a converted text are such sites of its source
(`punctuates_sites`).
-/

namespace Semicolons

/-- A token that is the same lexeme at another place. -/
def Token.MovedTo (place : Nat → Nat) (t t' : Token) : Prop :=
  t'.toLexeme = t.toLexeme ∧ t'.span.start = place t.span.start

/-- Sites with further semicolons among them, where a token that began at `x` begins at
    `place x`. On both sides, brackets know their groups. -/
inductive Punctuates (place : Nat → Nat) : List Site → List Site → Prop
  | nil : Punctuates place [] []
  | keep {s s' : Site} {ss ss' : List Site} :
      s.token.MovedTo place s'.token → s'.followsLineFeed = s.followsLineFeed →
      s.inside = inside? s.kind (ss.map Site.kind) →
      s'.inside = inside? s'.kind (ss'.map Site.kind) →
      Punctuates place ss ss' → Punctuates place (s :: ss) (s' :: ss')
  | semicolon {c : Site} {ss ss' : List Site} :
      c.isMark .semicolon = true → c.inside = none →
      Punctuates place ss ss' → Punctuates place ss (c :: ss')

namespace Token.MovedTo

variable {place : Nat → Nat} {t t' : Token}

theorem kind_eq (h : t.MovedTo place t') : t'.kind = t.kind :=
  congrArg Lexeme.kind h.1

theorem isMark_eq (h : t.MovedTo place t') (mark : Punctuation) : t'.isMark mark = t.isMark mark := by
  rw [isMark, isMark, h.kind_eq]

end Token.MovedTo

/-- Answers that correspond after a change on either side correspond. -/
theorem rel_map {α β γ δ : Type} {R : γ → δ → Prop} {f : α → γ} {g : β → δ} {a : Option α}
    {b : Option β} (h : Option.Rel (fun x y => R (f x) (g y)) a b) :
    Option.Rel R (a.map f) (b.map g) := by
  cases h with
  | none => exact .none
  | some hxy => exact .some hxy

theorem rel_map_right {α β γ : Type} {R : α → γ → Prop} {g : β → γ} {a : Option α} {b : Option β}
    (h : Option.Rel (fun x y => R x (g y)) a b) : Option.Rel R a (b.map g) := by
  cases h with
  | none => exact .none
  | some hxy => exact .some hxy

namespace Punctuates

variable {place : Nat → Nat} {ss ss' : List Site} {s s' : Site}

/-- Where the second sites do not begin with a semicolon, the first ones begin with the same
    token. -/
theorem exists_head (h : Punctuates place ss (s' :: ss')) (hs : s'.isMark .semicolon = false) :
    ∃ s rest, ss = s :: rest ∧ s.token.MovedTo place s'.token ∧
      s'.followsLineFeed = s.followsLineFeed ∧ Punctuates place rest ss' := by
  cases h with
  | @keep s _ rest _ hmoved hfeed _ _ hrest => exact ⟨s, rest, rfl, hmoved, hfeed, hrest⟩
  | semicolon hsemi _ _ =>
    rw [hs] at hsemi
    cases hsemi

/-- A site that is no semicolon is among the first sites, and what follows corresponds. -/
theorem exists_of_append {before' : List Site} (h : Punctuates place ss (before' ++ s' :: ss'))
    (hs : s'.isMark .semicolon = false) :
    ∃ before s rest, ss = before ++ s :: rest ∧ s.token.MovedTo place s'.token ∧
      Punctuates place rest ss' := by
  induction before' generalizing ss with
  | nil =>
    obtain ⟨s, rest, rfl, hmoved, -, hrest⟩ := h.exists_head hs
    exact ⟨[], s, rest, rfl, hmoved, hrest⟩
  | cons b' before' ih =>
    cases h with
    | semicolon _ _ h => exact ih h
    | @keep b _ _ _ _ _ _ _ h =>
      obtain ⟨before, s, rest, rfl, hmoved, hrest⟩ := ih h
      exact ⟨b :: before, s, rest, rfl, hmoved, hrest⟩

theorem kind_semicolon (h : s.isMark .semicolon = true) : s.kind = .punctuation .semicolon :=
  beq_iff_eq.mp h

/-- No group is opened by a semicolon. -/
theorem inside_eq_none (h : Punctuates place ss (s' :: ss')) (hs : s'.isMark .semicolon = true) :
    s'.inside = none := by
  cases h with
  | semicolon _ hinside _ => exact hinside
  | keep _ _ _ hinside _ =>
    rw [hinside, kind_semicolon hs]
    rfl

theorem bracket?_semicolon (h : s.isMark .semicolon = true) : s.kind.bracket? = none := by
  rw [kind_semicolon h]
  rfl

/-- The brackets that close a group are the same, so that what follows them corresponds. -/
theorem closer (h : Punctuates place ss ss') (b : Bracket) (depth : Nat) :
    Option.Rel (fun n n' => Punctuates place (ss.drop (n + 1)) (ss'.drop (n' + 1)))
      (closer? b depth (ss.map Site.kind)) (closer? b depth (ss'.map Site.kind)) := by
  induction h generalizing depth with
  | nil => exact .none
  | @keep s s' rest rest' hmoved _ _ _ hrest ih =>
    have hkind : s'.kind = s.kind := hmoved.kind_eq
    rw [List.map_cons, List.map_cons, hkind]
    by_cases hopening : s.kind.bracket? = some (.opening, b)
    · rw [closer?_opening hopening, closer?_opening hopening]
      exact rel_map (ih (depth + 1))
    · by_cases hclosing : s.kind.bracket? = some (.closing, b)
      · cases depth with
        | zero =>
          rw [closer?_closing_zero hclosing, closer?_closing_zero hclosing]
          exact .some hrest
        | succ depth =>
          rw [closer?_closing_succ hclosing, closer?_closing_succ hclosing]
          exact rel_map (ih depth)
      · have hother : ∀ side, s.kind.bracket? ≠ some (side, b) := by
          intro side
          cases side with
          | opening => exact hopening
          | closing => exact hclosing
        rw [closer?_other hother, closer?_other hother]
        exact rel_map (ih depth)
  | @semicolon c rest rest' hsemi _ _ ih =>
    rw [List.map_cons, closer?_other (by simp [bracket?_semicolon hsemi])]
    exact rel_map_right (ih depth)

/-- Brackets are read with the same defects, and leave the same groups open. -/
theorem read (h : Punctuates place ss ss') {opened opened' : List Token}
    (hopened : List.Forall₂ (Token.MovedTo place) opened opened') :
    List.Forall₂ (fun d d' => (Problem.nesting d).token.MovedTo place (Problem.nesting d').token)
        (Nesting.read opened (ss.map Site.token)).1 (Nesting.read opened' (ss'.map Site.token)).1 ∧
      List.Forall₂ (Token.MovedTo place)
        (Nesting.read opened (ss.map Site.token)).2
        (Nesting.read opened' (ss'.map Site.token)).2 := by
  induction h generalizing opened opened' with
  | nil => exact ⟨.nil, hopened⟩
  | @keep s s' rest rest' hmoved _ _ _ _ ih =>
    rw [List.map_cons, List.map_cons]
    have hkind : s'.token.kind = s.token.kind := hmoved.kind_eq
    cases hs : s.token.kind.bracket? with
    | none =>
      rw [Nesting.read_none hs, Nesting.read_none (hkind ▸ hs)]
      exact ih hopened
    | some x =>
      obtain ⟨side, b⟩ := x
      cases side with
      | opening =>
        rw [Nesting.read_opening hs, Nesting.read_opening (hkind ▸ hs)]
        exact ih (.cons hmoved hopened)
      | closing =>
        cases hopened with
        | nil =>
          rw [Nesting.read_unexpected hs, Nesting.read_unexpected (hkind ▸ hs)]
          obtain ⟨hdefects, hleft⟩ := ih .nil
          exact ⟨.cons hmoved hdefects, hleft⟩
        | @cons opener opener' outer outer' hopener houter =>
          obtain ⟨hdefects, hleft⟩ := ih houter
          cases hmark : opener.isMark (.opening b) with
          | true =>
            have hmark' : opener'.isMark (.opening b) = true := by
              rw [hopener.isMark_eq, hmark]
            rw [Nesting.read_answer (isMark_opening_iff.mp hmark) hs,
              Nesting.read_answer (isMark_opening_iff.mp hmark') (hkind ▸ hs)]
            exact ⟨hdefects, hleft⟩
          | false =>
            have hmark' : opener'.isMark (.opening b) = false := by
              rw [hopener.isMark_eq, hmark]
            rw [Nesting.read_mismatched hmark hs, Nesting.read_mismatched hmark' (hkind ▸ hs)]
            exact ⟨.cons hmoved hdefects, hleft⟩
  | @semicolon c rest rest' hsemi _ _ ih =>
    rw [List.map_cons, Nesting.read_none (bracket?_semicolon hsemi)]
    exact ih hopened

end Punctuates

section InPlace

variable {place : Nat → Nat} {index index' offset offset' : Nat} {l : Lexeme} {ls ls' : List Lexeme}

theorem sitesFrom_inPlace_layout (hl : l.isLayout = true) (feed : Bool) (index offset : Nat)
    (ls : List Lexeme) : sitesFrom feed (inPlace index offset (l :: ls)) =
      sitesFrom (l.hasLineFeed || feed) (inPlace (index + 1) (offset + byteLength l.chars) ls) := by
  rw [inPlace_cons, sitesFrom_hidden ((Token.isHidden_eq rfl).trans hl)]

/-- The same visible lexeme in front of sites that correspond. -/
theorem Punctuates.keep_inPlace (hl : l.isLayout = false) (hplace : place offset = offset')
    (feed : Bool) (h : Punctuates place
      (sitesFrom false (inPlace (index + 1) (offset + byteLength l.chars) ls))
      (sitesFrom false (inPlace (index' + 1) (offset' + byteLength l.chars) ls'))) :
    Punctuates place (sitesFrom feed (inPlace index offset (l :: ls)))
      (sitesFrom feed (inPlace index' offset' (l :: ls'))) := by
  rw [inPlace_cons, inPlace_cons, sitesFrom_visible ((Token.isHidden_eq rfl).trans hl),
    sitesFrom_visible ((Token.isHidden_eq rfl).trans hl)]
  exact .keep ⟨rfl, hplace.symm⟩ rfl rfl rfl h

/-- A written semicolon in front of the second sites. -/
theorem Punctuates.semicolon_inPlace {ss : List Site}
    (h : Punctuates place ss (sitesFrom false (inPlace (index + 1) (offset + 1) ls))) :
    Punctuates place ss (sitesFrom false (inPlace index offset (.semicolon :: ls))) := by
  have hl : Lexeme.semicolon.isLayout = false := rfl
  rw [inPlace_cons, sitesFrom_visible ((Token.isHidden_eq rfl).trans hl)]
  exact .semicolon rfl rfl h

end InPlace

/-- The sites of lexemes with semicolons behind some of them, where all of the lexemes have been
    moved already, by `before` bytes. -/
theorem punctuates_sitesFrom {choice : List (Lexeme × Bool)}
    (hne : ∀ x ∈ choice, x.1.chars ≠ []) (hvisible : ∀ l, (l, true) ∈ choice → l.isLayout = false)
    (feed : Bool) (index index' : Nat) {offset before : Nat} {place : Nat → Nat}
    (hplace : ∀ x, offset ≤ x →
      place x = x + (before + (pointsOf offset choice).countP (· ≤ x))) :
    Punctuates place
      (sitesFrom feed (inPlace index offset (choice.map Prod.fst ++ [.endOfInput])))
      (sitesFrom feed (inPlace index' (offset + before) (punctuated choice ++ [.endOfInput]))) := by
  induction choice generalizing feed index index' offset before with
  | nil =>
    have hoffset : place offset = offset + before := hplace offset (Nat.le_refl _)
    exact .keep ⟨rfl, hoffset.symm⟩ rfl rfl rfl .nil
  | cons x rest ih =>
    obtain ⟨l, written⟩ := x
    obtain ⟨-, hrest⟩ := List.forall_mem_cons.mp hne
    have hvisible' : ∀ l, (l, true) ∈ rest → l.isLayout = false :=
      fun l hl => hvisible l (List.mem_cons_of_mem _ hl)
    -- No semicolon stands in front of the first lexeme, and the one that may stand behind it is
    -- in front of all others.
    have hhead : place offset = offset + before := by
      rw [hplace offset (Nat.le_refl _), countP_pointsOf_start hne, Nat.add_zero]
    have htail : ∀ x, offset + byteLength l.chars ≤ x → place x =
        x + (before + written.toNat +
          (pointsOf (offset + byteLength l.chars) rest).countP (· ≤ x)) := by
      intro x hx
      rw [hplace x (by omega), countP_pointsOf_cons hx, Nat.add_assoc before]
    have hfollow : ∀ feed index index', Punctuates place
        (sitesFrom feed (inPlace index (offset + byteLength l.chars)
          (rest.map Prod.fst ++ [.endOfInput])))
        (sitesFrom feed (inPlace index' (offset + before + byteLength l.chars + written.toNat)
          (punctuated rest ++ [.endOfInput]))) := by
      intro feed index index'
      have hmoved : offset + before + byteLength l.chars + written.toNat =
          offset + byteLength l.chars + (before + written.toNat) := by
        omega
      rw [hmoved]
      exact ih hrest hvisible' feed index index' htail
    rw [List.map_cons, List.cons_append]
    cases hl : l.isLayout with
    | true =>
      cases written with
      | true =>
        rw [hvisible l List.mem_cons_self] at hl
        cases hl
      | false =>
        rw [punctuated, List.cons_append, sitesFrom_inPlace_layout hl, sitesFrom_inPlace_layout hl]
        exact hfollow _ _ _
    | false =>
      cases written with
      | false => exact .keep_inPlace hl hhead feed (hfollow _ _ _)
      | true => exact .keep_inPlace hl hhead feed (.semicolon_inPlace (hfollow _ _ _))

/-- The sites of a converted text are those of its source, with semicolons among them. -/
theorem punctuates_sites (source : String) :
    Punctuates (placeInOutput source) (sites (tokens source))
      (sites (tokens (withSemicolons (tokens source)))) := by
  have hplace : ∀ x, 0 ≤ x → placeInOutput source x =
      x + (0 + (pointsOf 0 (decisions (lexemes source))).countP (· ≤ x)) := by
    intro x _
    rw [placeInOutput, card_filter_insertionPoints, Nat.zero_add]
  have h := punctuates_sitesFrom (fun x (hx : x ∈ decisions (lexemes source)) =>
    chars_ne_nil_of_mem_decisions hx) (fun _ => visible_of_mem_decisions) false 0 0 hplace
  rw [map_fst_decisions, ← lexemes_withSemicolons_tokens] at h
  rw [sites_eq, sites_eq]
  exact h

end Semicolons
