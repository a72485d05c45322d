import Semicolons.Proofs.Signature.Defect
import Semicolons.Proofs.Site.Punctuated

/-!
# Signatures with semicolons in them

A semicolon can stop the reader of a signature early, and it can turn a receiver into parameters,
since the name behind it no longer begins a parameter list. Either way no brace is found that was
not found without the semicolon, so that semicolons written anywhere make no new defect
(`Punctuates.exists_defect`).
-/

namespace Semicolons

namespace Punctuates

open Signature

variable {place : Nat → Nat} {ss ss' rest rest' after' : List Site} {s s' : Site}

/-- Where the second sites begin with a mark other than a semicolon, so do the first ones. -/
theorem exists_mark {mark : Punctuation} (h : Punctuates place ss (s' :: rest'))
    (hs' : s'.isMark mark = true) (hmark : mark ≠ .semicolon) :
    ∃ s rest, ss = s :: rest ∧ s.isMark mark = true ∧ s.token.MovedTo place s'.token ∧
      Punctuates place rest rest' := by
  obtain ⟨s, rest, rfl, hmoved, -, hrest⟩ := h.exists_head (isMark_of_isMark_ne hs' hmark)
  exact ⟨s, rest, rfl, (hmoved.isMark_eq mark).symm.trans hs', hmoved, hrest⟩

theorem beginsWith {mark : Punctuation} (h : Punctuates place ss ss') (hmark : mark ≠ .semicolon)
    (hbegin : beginsWith ss' mark = true) : Signature.beginsWith ss mark = true := by
  obtain ⟨s', rest', rfl, hs'⟩ := beginsWith_iff.mp hbegin
  obtain ⟨s, rest, rfl, hs, -⟩ := h.exists_mark hs' hmark
  exact beginsWith_iff.mpr ⟨s, rest, rfl, hs⟩

theorem exists_name (h : Punctuates place ss (s' :: rest')) (hname : s'.kind = .identifier) :
    ∃ s rest, ss = s :: rest ∧ s.kind = .identifier ∧ Punctuates place rest rest' := by
  obtain ⟨s, rest, rfl, hmoved, -, hrest⟩ := h.exists_head (isMark_of_kind_eq hname)
  exact ⟨s, rest, rfl, hmoved.kind_eq.symm.trans hname, hrest⟩

theorem followReceiver (h : Punctuates place ss ss')
    (hfollow : Signature.followReceiver ss' = true) : Signature.followReceiver ss = true := by
  obtain ⟨hname, hmark⟩ := Bool.and_eq_true_iff.mp hfollow
  obtain ⟨n', tail', rfl, hname'⟩ := beginsWithName_iff.mp hname
  obtain ⟨n, tail, rfl, hname, htail⟩ := h.exists_name hname'
  refine Bool.and_eq_true_iff.mpr ⟨beginsWithName_iff.mpr ⟨n, tail, rfl, hname⟩, ?_⟩
  rcases Bool.or_eq_true_iff.mp hmark with hmark | hmark
  · exact Bool.or_eq_true_iff.mpr (Or.inl (htail.beginsWith (by decide) hmark))
  · exact Bool.or_eq_true_iff.mpr (Or.inr (htail.beginsWith (by decide) hmark))

/-- A group that begins the sites is closed on both sides or on neither, and what follows it
    corresponds. -/
theorem afterGroup (h : Punctuates place ss (s' :: rest')) (hs : s'.isMark .semicolon = false) :
    Option.Rel (Punctuates place) (afterGroup? ss) (afterGroup? (s' :: rest')) := by
  cases h with
  | semicolon hsemi _ _ =>
    rw [hs] at hsemi
    cases hsemi
  | @keep s _ _ _ hmoved _ hinside hinside' hrest =>
    have hkind : s'.kind = s.kind := hmoved.kind_eq
    rw [afterGroup?_cons, afterGroup?_cons, hinside, hinside', hkind]
    unfold inside?
    split
    · next b _ => exact rel_map (hrest.closer b 0)
    · exact .none

/-- The sites after a group that is closed correspond to those after the same group. -/
theorem exists_afterGroup (h : Punctuates place ss ss') (hgroup : afterGroup? ss' = some after') :
    ∃ after, afterGroup? ss = some after ∧ Punctuates place after after' := by
  cases ss' with
  | nil => cases hgroup
  | cons s' rest' =>
    have hs : s'.isMark .semicolon = false := by
      cases hsemi : s'.isMark .semicolon with
      | false => rfl
      | true =>
        rw [afterGroup?_cons, h.inside_eq_none hsemi] at hgroup
        cases hgroup
    have hrel := h.afterGroup hs
    rw [hgroup] at hrel
    cases hfound : afterGroup? ss with
    | none =>
      rw [hfound] at hrel
      cases hrel
    | some after =>
      rw [hfound] at hrel
      cases hrel with
      | some hafter => exact ⟨after, rfl, hafter⟩

theorem afterGroup?_eq_none (h : Punctuates place ss (s' :: rest'))
    (hs : s'.isMark .semicolon = false) (hgroup : afterGroup? (s' :: rest') = none) :
    afterGroup? ss = none := by
  have hrel := h.afterGroup hs
  rw [hgroup] at hrel
  cases hfound : afterGroup? ss with
  | none => rfl
  | some after =>
    rw [hfound] at hrel
    cases hrel

/-- Parameters behind a name correspond to the parameters behind the same name. -/
theorem namedParameters (h : Punctuates place ss ss') (hp : namedParameters? ss' = some rest') :
    ∃ rest, namedParameters? ss = some rest ∧ Punctuates place rest rest' := by
  obtain ⟨n', tail', rfl, hname', hbegin, htail'⟩ := namedParameters?_eq_some_iff.mp hp
  obtain ⟨n, tail, rfl, hname, htail⟩ := h.exists_name hname'
  rcases htail' with rfl | ⟨hbracket, hgroup⟩
  · have hparen := htail.beginsWith (by decide) hbegin
    exact ⟨tail, namedParameters?_eq_some_iff.mpr ⟨n, tail, rfl, hname, hparen, Or.inl rfl⟩, htail⟩
  · have hopener := htail.beginsWith (by decide) hbracket
    obtain ⟨rest, hrest, hfollow⟩ := htail.exists_afterGroup hgroup
    have hparen := hfollow.beginsWith (by decide) hbegin
    exact ⟨rest, namedParameters?_eq_some_iff.mpr
      ⟨n, tail, rfl, hname, hparen, Or.inr ⟨hopener, hrest⟩⟩, hfollow⟩

/-- The sites after a part of a result correspond to those after the same part. -/
theorem afterPart (h : Punctuates place (s :: rest) (s' :: rest'))
    (hs : s'.isMark .semicolon = false) (hpart : afterPart? s' rest' = some after') :
    ∃ after, afterPart? s rest = some after ∧ Punctuates place after after' := by
  obtain ⟨s, rest, heq, hmoved, -, hrest⟩ := h.exists_head hs
  obtain ⟨rfl, rfl⟩ := List.cons.inj heq
  have hkind : s'.kind = s.kind := hmoved.kind_eq
  have hmark : ∀ mark, s'.isMark mark = s.isMark mark := hmoved.isMark_eq
  rcases afterPart?_eq_some_iff.mp hpart with ⟨hword, rfl⟩ | ⟨hopener, hgroup⟩ |
    ⟨hfields, hbegin, hgroup⟩
  · exact ⟨rest, afterPart?_eq_some_iff.mpr (Or.inl ⟨hkind ▸ hword, rfl⟩), hrest⟩
  · obtain ⟨after, hafter, hfollow⟩ := h.exists_afterGroup hgroup
    rw [hmark, hmark] at hopener
    exact ⟨after, afterPart?_eq_some_iff.mpr (Or.inr (Or.inl ⟨hopener, hafter⟩)), hfollow⟩
  · have hbrace := hrest.beginsWith (by decide) hbegin
    obtain ⟨after, hafter, hfollow⟩ := hrest.exists_afterGroup hgroup
    rw [hkind] at hfields
    exact ⟨after, afterPart?_eq_some_iff.mpr (Or.inr (Or.inr ⟨hfields, hbrace, hafter⟩)), hfollow⟩

/-- In front of a semicolon, a result ends without a body. -/
theorem afterResult_semicolon (hsemi : s.isMark .semicolon = true)
    (hbody : Signature.afterResult 0 (s :: rest) = s' :: rest') : s'.isMark .lBrace = false := by
  rw [afterResult_stop (afterPart?_eq_none hsemi (Or.inr rfl))] at hbody
  obtain ⟨rfl, -⟩ := List.cons.inj hbody
  exact isMark_of_isMark_ne hsemi (by decide)

/-- A brace behind a result is found there without the semicolons. -/
theorem afterResult (h : Punctuates place ss ss')
    (hbody : Signature.afterResult 0 ss' = s' :: rest') (hbrace : s'.isMark .lBrace = true) :
    ∃ s rest, Signature.afterResult 0 ss = s :: rest ∧ s.token.MovedTo place s'.token ∧
      s'.followsLineFeed = s.followsLineFeed := by
  induction hlen : ss'.length using Nat.strong_induction_on generalizing ss ss' with
  | _ n ih =>
    cases ss' with
    | nil => cases hbody
    | cons t' tail' =>
      cases hsemi : t'.isMark .semicolon with
      | true =>
        rw [afterResult_semicolon hsemi hbody] at hbrace
        cases hbrace
      | false =>
        obtain ⟨t, tail, rfl, hmoved, hfeed, htail⟩ := h.exists_head hsemi
        cases hline : t'.followsLineFeed with
        | true =>
          rw [afterResult_lineFeed hline] at hbody
          obtain ⟨rfl, -⟩ := List.cons.inj hbody
          exact ⟨t, tail, afterResult_lineFeed (hfeed ▸ hline), hmoved, hfeed⟩
        | false =>
          cases hpart : afterPart? t' tail' with
          | none =>
            rw [afterResult_stop hpart] at hbody
            obtain ⟨rfl, -⟩ := List.cons.inj hbody
            have hmark : t.isMark .lBrace = true := (hmoved.isMark_eq .lBrace).symm.trans hbrace
            exact ⟨t, tail, afterResult_stop (afterPart?_eq_none hmark (Or.inl rfl)), hmoved, hfeed⟩
          | some after' =>
            obtain ⟨after, hafter, hrest⟩ := h.afterPart hsemi hpart
            rw [afterResult_part hline hpart] at hbody
            rw [afterResult_part (hfeed ▸ hline) hafter]
            have hle : after'.length ≤ tail'.length := (afterPart?_suffix hpart).length_le
            rw [List.length_cons] at hlen
            exact ih after'.length (by omega) hrest hbody rfl

/-- Where a receiver is not recognised because of a semicolon, no body follows it. -/
theorem afterResult_receiver (h : Punctuates place ss ss')
    (hfollow : Signature.followReceiver ss = true) (hfollow' : Signature.followReceiver ss' = false)
    (hbody : Signature.afterResult 0 ss' = s' :: rest') : s'.isMark .lBrace = false := by
  obtain ⟨hbegin, hmarks⟩ := Bool.and_eq_true_iff.mp hfollow
  obtain ⟨n, tail, rfl, hname⟩ := beginsWithName_iff.mp hbegin
  cases h with
  | semicolon hsemi _ _ => exact afterResult_semicolon hsemi hbody
  | @keep _ n' _ tail' hmoved _ _ _ htail =>
    have hname' : n'.kind = .identifier := hmoved.kind_eq.trans hname
    -- Without a semicolon behind it, the name would make a receiver here as well.
    have hsemi : ∃ c behind, tail' = c :: behind ∧ c.isMark .semicolon = true := by
      cases htail with
      | nil => simp [Signature.beginsWith] at hmarks
      | @semicolon c _ behind hsemi _ _ => exact ⟨c, behind, rfl, hsemi⟩
      | @keep o o' _ _ hmoved' _ _ _ _ =>
        have hmark : ∀ mark, o'.isMark mark = o.isMark mark := hmoved'.isMark_eq
        have hmarks' : (o'.isMark .lParen || o'.isMark .lBracket) = true := by
          rw [hmark, hmark]
          exact hmarks
        rw [Signature.followReceiver, beginsWithName_iff.mpr ⟨n', _, rfl, hname'⟩] at hfollow'
        exact absurd hmarks' (Bool.eq_false_iff.mp hfollow')
    obtain ⟨c, behind, rfl, hsemi⟩ := hsemi
    cases hline : n'.followsLineFeed with
    | true =>
      rw [afterResult_lineFeed hline] at hbody
      obtain ⟨rfl, -⟩ := List.cons.inj hbody
      exact isMark_of_kind_eq hname'
    | false =>
      have hpart : afterPart? n' (c :: behind) = some (c :: behind) := by
        rw [afterPart?_eq_some_iff, hname']
        exact Or.inl ⟨List.mem_cons_self, rfl⟩
      rw [afterResult_part hline hpart] at hbody
      exact afterResult_semicolon hsemi hbody

/-- Parameters are found where they are found without the semicolons. Only what becomes parameters
    because a semicolon stands behind it may have been a receiver, and then no body follows. -/
theorem parameters (h : Punctuates place ss ss') (hp : parameters? ss' = .ok (some rest')) :
    (∃ rest, parameters? ss = .ok (some rest) ∧ Punctuates place rest rest') ∨
      ∃ after', afterGroup? rest' = some after' ∧ ∀ s' behind',
        Signature.afterResult 0 after' = s' :: behind' → s'.isMark .lBrace = false := by
  cases ss' with
  | nil => cases hp
  | cons s' tail' =>
    rcases parameters?_cases s' tail' with ⟨-, -, heq⟩ | ⟨after', hmark', hgroup', hfollow', heq⟩ |
      ⟨after', hmark', hgroup', hfollow', heq⟩ | ⟨-, heq⟩
    · rw [heq] at hp
      cases hp
    · rw [heq] at hp
      obtain ⟨after, hgroup, hafter⟩ := h.exists_afterGroup hgroup'
      obtain ⟨rest, hrest, hparams⟩ := hafter.namedParameters (Except.ok.inj hp)
      obtain ⟨s, tail, rfl, hmark, -⟩ := h.exists_mark hmark' (by decide)
      refine Or.inl ⟨rest, ?_, hparams⟩
      rw [parameters?_receiver hmark hgroup (hafter.followReceiver hfollow'), hrest]
    · rw [heq] at hp
      obtain rfl : s' :: tail' = rest' := Option.some.inj (Except.ok.inj hp)
      obtain ⟨after, hgroup, hafter⟩ := h.exists_afterGroup hgroup'
      obtain ⟨s, tail, rfl, hmark, -⟩ := h.exists_mark hmark' (by decide)
      cases hfollow : Signature.followReceiver after with
      | false => exact Or.inl ⟨s :: tail, parameters?_unnamed hmark hgroup hfollow, h⟩
      | true =>
        refine Or.inr ⟨after', hgroup', ?_⟩
        intro b behind hbody
        exact hafter.afterResult_receiver hfollow hfollow' hbody
    · rw [heq] at hp
      obtain ⟨rest, hrest, hparams⟩ := h.namedParameters (Except.ok.inj hp)
      obtain ⟨n, tail, rfl, hname, -⟩ := namedParameters?_eq_some_iff.mp hrest
      refine Or.inl ⟨rest, ?_, hparams⟩
      rw [parameters?_named (isMark_of_kind_eq hname), hrest]

/-- A signature with semicolons in it has no defect of which the signature without them is free. -/
theorem exists_defect? (h : Punctuates place ss ss') {d' : Signature.Defect}
    (hd : defect? ss' = some d') :
    ∃ d, defect? ss = some d ∧
      (Problem.signature d).token.MovedTo place (Problem.signature d').token := by
  rcases defect?_eq_some_iff.mp hd with ⟨opener', hp, rfl⟩ | ⟨opener', tail', hp, hgroup, rfl⟩ |
    ⟨params', after', brace', behind', hp, hgroup, hbody, hmark, hfeed, rfl⟩
  · obtain ⟨s', tail', rfl, rfl, hmark', hgroup⟩ := parameters?_eq_error hp
    have hnone := h.afterGroup?_eq_none (isMark_of_isMark_ne hmark' (by decide)) hgroup
    obtain ⟨s, tail, rfl, hmark, hmoved, -⟩ := h.exists_mark hmark' (by decide)
    have hdefect := defect?_eq_some_iff.mpr
      (Or.inl ⟨s.token, parameters?_unclosed hmark hnone, rfl⟩)
    exact ⟨_, hdefect, hmoved⟩
  · rcases h.parameters hp with ⟨params, hparams, hrest⟩ | ⟨after', hsome, -⟩
    · obtain ⟨-, hbegin⟩ := parameters?_suffix hp
      have hnone := hrest.afterGroup?_eq_none (isMark_of_isMark_ne hbegin (by decide)) hgroup
      obtain ⟨opener, tail, rfl, -, hmoved, -⟩ := hrest.exists_mark hbegin (by decide)
      have hdefect := defect?_eq_some_iff.mpr (Or.inr (Or.inl ⟨opener, tail, hparams, hnone, rfl⟩))
      exact ⟨_, hdefect, hmoved⟩
    · rw [hgroup] at hsome
      cases hsome
  · rcases h.parameters hp with ⟨params, hparams, hrest⟩ | ⟨found, hfound, hnobody⟩
    · obtain ⟨after, hafter, hbehind⟩ := hrest.exists_afterGroup hgroup
      obtain ⟨brace, behind, hbrace, hmoved, hfeeds⟩ := hbehind.afterResult hbody hmark
      have hmark : brace.isMark .lBrace = true := (hmoved.isMark_eq .lBrace).symm.trans hmark
      have hdefect := defect?_eq_some_iff.mpr (Or.inr (Or.inr
        ⟨params, after, brace, behind, hparams, hafter, hbrace, hmark, hfeeds ▸ hfeed, rfl⟩))
      exact ⟨_, hdefect, hmoved⟩
    · rw [hgroup] at hfound
      obtain rfl : after' = found := Option.some.inj hfound
      rw [hnobody brace' behind' hbody] at hmark
      cases hmark

/-- Semicolons written anywhere make no new defect of a signature. -/
theorem exists_defect (h : Punctuates place ss ss') {d' : Signature.Defect}
    (hd : d' ∈ defects ss') :
    ∃ d ∈ defects ss, (Problem.signature d).token.MovedTo place (Problem.signature d').token := by
  obtain ⟨before', func', rest', rfl, hfunc', hd⟩ := mem_defects.mp hd
  have hsemi : func'.isMark .semicolon = false := by
    have hkind : func'.token.kind = .keyword .func := hfunc'
    simp [Site.isMark, Token.isMark, hkind]
  obtain ⟨before, func, rest, rfl, hmoved, hrest⟩ := h.exists_of_append hsemi
  have hfunc : func.kind = .keyword .func := hmoved.kind_eq.symm.trans hfunc'
  obtain ⟨d, hdefect, hd⟩ := hrest.exists_defect? hd
  exact ⟨d, mem_defects.mpr ⟨before, func, rest, rfl, hfunc, hdefect⟩, hd⟩

end Punctuates

end Semicolons
