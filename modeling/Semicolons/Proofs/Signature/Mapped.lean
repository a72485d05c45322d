import Semicolons.Proofs.Signature.Defect
import Semicolons.Proofs.Site.Sequence

/-!
# Sites of other tokens

Signatures are read by the kinds of tokens, the line feeds in front of them and the groups they
open. Where the tokens of some sites are replaced by others of the same kinds, the same signatures
are found and have the same defects, about the tokens that stand there now
(`Signature.defects_map`). Whether the end of the input follows a line feed makes no difference,
since every signature stops there anyway.
-/

namespace Semicolons

/-- A change of tokens that keeps what they are read by: their kinds, whether they are layout, and
    whether a line feed occurs in them. -/
structure KeepsReading (f : Token → Token) : Prop where
  kind : ∀ t, (f t).kind = t.kind
  isHidden : ∀ t, (f t).isHidden = t.isHidden
  hasLineFeed : ∀ t, (f t).hasLineFeed = t.hasLineFeed

/-- A site with its token replaced. -/
def Site.map (f : Token → Token) (s : Site) : Site :=
  { s with token := f s.token }

/-- A change of sites, with their tokens changed by `f`, that keeps what signatures are read by. -/
structure KeepsSignatures (f : Token → Token) (g : Site → Site) : Prop where
  token : ∀ s, (g s).token = f s.token
  kind : ∀ s, (g s).kind = s.kind
  inside : ∀ s, (g s).inside = s.inside
  followsLineFeed : ∀ s, s.kind ≠ .endOfInput → (g s).followsLineFeed = s.followsLineFeed

theorem KeepsReading.keepsSignatures {f : Token → Token} (hf : KeepsReading f) :
    KeepsSignatures f (Site.map f) where
  token _ := rfl
  kind s := hf.kind s.token
  inside _ := rfl
  followsLineFeed _ _ := rfl

section Sites

variable {f : Token → Token}

theorem visibleTokens_map (hf : KeepsReading f) (stream : List Token) :
    visibleTokens (stream.map f) = (visibleTokens stream).map f := by
  rw [visibleTokens, visibleTokens, List.filter_map]
  congr 1
  apply List.filter_congr
  intro t _
  simp [hf.isHidden]

theorem sitesFrom_map (hf : KeepsReading f) (feed : Bool) (stream : List Token) :
    sitesFrom feed (stream.map f) = (sitesFrom feed stream).map (Site.map f) := by
  induction stream generalizing feed with
  | nil => rfl
  | cons t stream ih =>
    rw [List.map_cons]
    cases ht : t.isHidden with
    | true =>
      rw [sitesFrom_hidden ht, sitesFrom_hidden ((hf.isHidden t).trans ht), hf.hasLineFeed, ih]
    | false =>
      have hkinds : ((sitesFrom false stream).map (Site.map f)).map Site.kind =
          (sitesFrom false stream).map Site.kind := by
        rw [List.map_map]
        apply List.map_congr_left
        intro s _
        exact hf.kind s.token
      rw [sitesFrom_visible ht, sitesFrom_visible ((hf.isHidden t).trans ht), ih, hkinds, hf.kind]
      rfl

/-- The sites of the replaced tokens are the sites with their tokens replaced. -/
theorem sites_map (hf : KeepsReading f) (stream : List Token) :
    sites (stream.map f) = (sites stream).map (Site.map f) := by
  rw [sites_eq, sites_eq, sitesFrom_map hf]

end Sites

namespace Signature

/-- A defect with its token replaced. -/
def Defect.map (f : Token → Token) : Defect → Defect
  | .unclosedParenthesis t => .unclosedParenthesis (f t)
  | .detachedBody t => .detachedBody (f t)

variable {f : Token → Token} {g : Site → Site}

theorem isMark_map (hg : KeepsSignatures f g) (s : Site) (mark : Punctuation) :
    (g s).isMark mark = s.isMark mark := by
  show ((g s).kind == _) = (s.kind == _)
  rw [hg.kind]

theorem beginsWith_map (hg : KeepsSignatures f g) (ss : List Site) (mark : Punctuation) :
    beginsWith (ss.map g) mark = beginsWith ss mark := by
  cases ss with
  | nil => rfl
  | cons s ss => exact isMark_map hg s mark

theorem beginsWithName_map (hg : KeepsSignatures f g) (ss : List Site) :
    beginsWithName (ss.map g) = beginsWithName ss := by
  cases ss with
  | nil => rfl
  | cons s ss =>
    show decide ((g s).kind = .identifier) = decide (s.kind = .identifier)
    rw [hg.kind]

theorem afterGroup?_map (hg : KeepsSignatures f g) (ss : List Site) :
    afterGroup? (ss.map g) = (afterGroup? ss).map (List.map g) := by
  cases ss with
  | nil => rfl
  | cons s ss =>
    rw [List.map_cons, afterGroup?_cons, afterGroup?_cons, Option.map_map, hg.inside]
    congr 1
    funext n
    exact List.map_drop.symm

theorem followReceiver_map (hg : KeepsSignatures f g) (ss : List Site) :
    followReceiver (ss.map g) = followReceiver ss := by
  rw [followReceiver, followReceiver, beginsWithName_map hg, ← List.map_tail, beginsWith_map hg,
    beginsWith_map hg]

theorem namedParameters?_map (hg : KeepsSignatures f g) (ss : List Site) :
    namedParameters? (ss.map g) = (namedParameters? ss).map (List.map g) := by
  have hfilter : ∀ found : Option (List Site),
      (found.map (List.map g)).filter (beginsWith · .lParen) =
        (found.filter (beginsWith · .lParen)).map (List.map g) := by
    intro found
    cases found with
    | none => rfl
    | some rest =>
      rw [Option.map_some, Option.filter_some, Option.filter_some, beginsWith_map hg]
      split <;> rfl
  rw [namedParameters?, namedParameters?, beginsWithName_map hg, ← List.map_tail, beginsWith_map hg,
    afterGroup?_map hg]
  cases beginsWithName ss with
  | false => rfl
  | true =>
    cases beginsWith ss.tail .lBracket with
    | false => exact hfilter (some ss.tail)
    | true => exact hfilter (afterGroup? ss.tail)

/-- What is found as parameters, with all tokens and sites replaced. -/
def mapFound (f : Token → Token) (g : Site → Site) : Except Token (Option (List Site)) →
    Except Token (Option (List Site))
  | .error opener => .error (f opener)
  | .ok found => .ok (found.map (List.map g))

theorem parameters?_map (hg : KeepsSignatures f g) (ss : List Site) :
    parameters? (ss.map g) = mapFound f g (parameters? ss) := by
  cases ss with
  | nil => rfl
  | cons s ss =>
    have hmark := isMark_map hg s .lParen
    have hgroup := afterGroup?_map hg (s :: ss)
    rw [List.map_cons] at hgroup ⊢
    rcases parameters?_cases s ss with ⟨hs, hnone, heq⟩ | ⟨after, hs, hafter, hfollow, heq⟩ |
      ⟨after, hs, hafter, hfollow, heq⟩ | ⟨hs, heq⟩ <;> rw [heq]
    · rw [hnone] at hgroup
      rw [parameters?_unclosed (hmark.trans hs) hgroup, hg.token]
      rfl
    · rw [hafter] at hgroup
      have hfollow' := (followReceiver_map hg after).trans hfollow
      rw [parameters?_receiver (hmark.trans hs) hgroup hfollow', namedParameters?_map hg]
      rfl
    · rw [hafter] at hgroup
      have hfollow' := (followReceiver_map hg after).trans hfollow
      exact parameters?_unnamed (hmark.trans hs) hgroup hfollow'
    · rw [parameters?_named (hmark.trans hs), ← List.map_cons, namedParameters?_map hg]
      rfl

theorem resultPart?_map (hg : KeepsSignatures f g) (s : Site) (rest : List Site) :
    resultPart? (g s) (rest.map g) = resultPart? s rest := by
  cases rest with
  | nil => simp only [resultPart?, hg.kind, hg.inside, List.map_nil]
  | cons brace rest =>
    simp only [resultPart?, hg.kind, hg.inside, List.map_cons, isMark_map hg]

theorem afterResult_map (hg : KeepsSignatures f g) (skip : Nat) (ss : List Site) :
    afterResult skip (ss.map g) = (afterResult skip ss).map g := by
  induction ss generalizing skip with
  | nil => rfl
  | cons s ss ih =>
    rw [List.map_cons]
    cases skip with
    | succ skip => exact ih skip
    | zero =>
      rw [afterResult, afterResult, resultPart?_map hg]
      by_cases hend : s.kind = .endOfInput
      · -- The end of the input is no part of a result, whether or not a line feed precedes it.
        have hnone : resultPart? s ss = none := by simp [resultPart?, hend]
        simp [hnone]
      · rw [hg.followsLineFeed s hend]
        split
        · rfl
        · cases resultPart? s ss with
          | none => rfl
          | some more => exact ih more

theorem bodyAfter_map (hg : KeepsSignatures f g) (ss : List Site) :
    bodyAfter (ss.map g) = (bodyAfter ss).map g := by
  rw [bodyAfter_eq, bodyAfter_eq, afterResult_map hg]

theorem defect?_map (hg : KeepsSignatures f g) (ss : List Site) :
    defect? (ss.map g) = (defect? ss).map (Defect.map f) := by
  rw [defect?, defect?, parameters?_map hg]
  cases parameters? ss with
  | error opener => rfl
  | ok found =>
    cases found with
    | none => rfl
    | some parameters =>
      cases parameters with
      | nil => rfl
      | cons opener tail =>
        have hgroup := afterGroup?_map hg (opener :: tail)
        rw [List.map_cons] at hgroup
        cases hafter : afterGroup? (opener :: tail) with
        | none =>
          rw [hafter, Option.map_none] at hgroup
          simp only [mapFound, Option.map_some, List.map_cons, hgroup, hafter, hg.token]
          rfl
        | some after =>
          rw [hafter] at hgroup
          simp only [mapFound, Option.map_some, List.map_cons, hgroup, hafter, bodyAfter_map hg]
          cases bodyAfter after with
          | nil => rfl
          | cons s rest =>
            simp only [List.map_cons, isMark_map hg, hg.token]
            cases hmark : s.isMark .lBrace with
            | false => rfl
            | true =>
              have hkind : s.kind = .punctuation .lBrace := beq_iff_eq.mp hmark
              have hend : s.kind ≠ .endOfInput := by simp [hkind]
              rw [hg.followsLineFeed s hend]
              split <;> rfl

/-- Of the replaced tokens, the same signatures have the same defects. -/
theorem defects_map (hg : KeepsSignatures f g) (ss : List Site) :
    defects (ss.map g) = (defects ss).map (Defect.map f) := by
  induction ss with
  | nil => rfl
  | cons s ss ih =>
    rw [List.map_cons, defects, defects, hg.kind, defect?_map hg, ih]
    split
    · cases defect? ss <;> rfl
    · rfl

end Signature

end Semicolons
