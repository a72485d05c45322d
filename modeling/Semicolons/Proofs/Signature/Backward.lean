import Semicolons.Proofs.Signature.Defect
import Semicolons.Proofs.Site.Group

/-!
# Signatures read backwards

A group is settled by what follows it, as well as by what it begins with: the bracket in front of
the rest closes the group, and no two brackets are closed by one (`eq_of_afterGroup?_eq`). So the
parameters of a signature can be followed back over type parameters, name and receiver to the `func`
they belong to, and no parenthesis begins the parameters of two signatures (`Reaches.eq_of_eq`).
-/

namespace Semicolons

namespace Signature

variable {ss : List Site} {s s' : Site} {rest rest' after : List Site} {b : Bracket}

theorem kind_eq_of_isMark {mark : Punctuation} (h : s.isMark mark = true) :
    s.kind = .punctuation mark :=
  beq_iff_eq.mp h

/-- In front of a stretch at the end of some sites stands one site at most. -/
theorem eq_of_cons_suffix (h : s :: rest <:+ ss) (h' : s' :: rest <:+ ss) : s = s' := by
  have hlength : (s :: rest).length = (s' :: rest).length := rfl
  have hsuffix := List.suffix_of_suffix_length_le h h' (Nat.le_of_eq hlength)
  exact (List.cons.inj (hsuffix.eq_of_length hlength)).1

/-- Of two stretches at the end of some sites, the shorter one lies behind the first site of the
    other. -/
theorem eq_or_inside (h : s :: rest <:+ ss) (h' : s' :: rest' <:+ ss) :
    s :: rest = s' :: rest' ∨ s' :: rest' <:+ rest ∨ s :: rest <:+ rest' := by
  rcases List.suffix_or_suffix_of_suffix h h' with hin | hin
  · rcases List.suffix_cons_iff.mp hin with heq | hin
    · exact Or.inl heq
    · exact Or.inr (Or.inr hin)
  · rcases List.suffix_cons_iff.mp hin with heq | hin
    · exact Or.inl heq.symm
    · exact Or.inr (Or.inl hin)

theorem token_ne_of_inside (hnodup : (ss.map Site.token).Nodup) (h : s :: rest <:+ ss)
    (hin : s' :: rest' <:+ rest) : s.token ≠ s'.token := by
  intro heq
  have hcons := (h.map Site.token).sublist.nodup hnodup
  rw [List.map_cons, List.nodup_cons, heq] at hcons
  exact hcons.1 (List.mem_map_of_mem (hin.subset List.mem_cons_self))

/-- Where no token occurs twice, a token is found in one place. -/
theorem eq_of_token_eq (hnodup : (ss.map Site.token).Nodup) (h : s :: rest <:+ ss)
    (h' : s' :: rest' <:+ ss) (htoken : s.token = s'.token) : s :: rest = s' :: rest' := by
  rcases eq_or_inside h h' with heq | hin | hin
  · exact heq
  · exact absurd htoken (token_ne_of_inside hnodup h hin)
  · exact absurd htoken.symm (token_ne_of_inside hnodup h' hin)

/-- Right in front of what follows a group stands the bracket that closes it. -/
theorem exists_closer_of_afterGroup? (hp : Paired (s :: rest))
    (hs : s.kind.bracket? = some (.opening, b)) (h : afterGroup? (s :: rest) = some after) :
    ∃ c, c.kind.bracket? = some (.closing, b) ∧ c :: after <:+ rest := by
  obtain ⟨n, hn, rfl⟩ := Option.map_eq_some_iff.mp h
  rw [hp.1, inside?_opening hs] at hn
  obtain ⟨inner, k, behind, hkinds, rfl, hk⟩ := exists_closing_of_closer? hn
  obtain ⟨first, second, rfl, hfirst, hsecond⟩ := List.map_eq_append_iff.mp hkinds
  obtain ⟨c, tail, rfl, rfl, -⟩ := List.map_eq_cons_iff.mp hsecond
  refine ⟨c, hk, ?_⟩
  have hlength : inner.length = first.length := by rw [← hfirst, List.length_map]
  have hdrop : (first ++ c :: tail).drop (inner.length + 1) = tail := by
    rw [hlength, ← List.drop_drop, List.drop_left]
    rfl
  rw [hdrop]
  exact List.suffix_append first (c :: tail)

/-- What follows a group is not all that follows a group of the same kind inside it. -/
theorem afterGroup?_ne_of_inside {inner : List Site}
    (hp : Paired (s :: (inner ++ s' :: rest'))) (hs : s.kind.bracket? = some (.opening, b))
    (hs' : s'.kind.bracket? = some (.opening, b))
    (h : afterGroup? (s :: (inner ++ s' :: rest')) = some after) :
    afterGroup? (s' :: rest') ≠ some after := by
  intro h'
  have hp' : Paired (s' :: rest') := hp.2.of_append
  obtain ⟨n, hn, hafter⟩ := Option.map_eq_some_iff.mp h
  obtain ⟨m, hm, hafter'⟩ := Option.map_eq_some_iff.mp h'
  rw [hp.1, inside?_opening hs] at hn
  rw [hp'.1, inside?_opening hs'] at hm
  have hlt := lt_length_of_closer? hn
  have hlt' := lt_length_of_closer? hm
  have hlength := congrArg List.length (hafter.trans hafter'.symm)
  simp only [List.length_map, List.length_append, List.length_cons, List.length_drop]
    at hlt hlt' hlength
  obtain rfl : n = inner.length + 1 + m := by omega
  rw [List.map_append, List.map_cons] at hn
  apply closer?_ne_of_opening hs' hm (inner.map Site.kind) 0
  rw [hn, List.length_map]

/-- Two groups of one kind with the same sites behind them are one group. -/
theorem eq_of_afterGroup?_eq (hp : Paired ss) (hsuffix : s :: rest <:+ ss)
    (hsuffix' : s' :: rest' <:+ ss) (hs : s.kind.bracket? = some (.opening, b))
    (hs' : s'.kind.bracket? = some (.opening, b)) (h : afterGroup? (s :: rest) = some after)
    (h' : afterGroup? (s' :: rest') = some after) : s :: rest = s' :: rest' := by
  -- Of two groups one would begin inside the other, and end with it.
  rcases eq_or_inside hsuffix hsuffix' with heq | ⟨inner, rfl⟩ | ⟨inner, rfl⟩
  · exact heq
  · exact absurd h' (afterGroup?_ne_of_inside (hp.of_suffix hsuffix) hs hs' h)
  · exact absurd h (afterGroup?_ne_of_inside (hp.of_suffix hsuffix') hs' hs h')

/-- What stands right in front of the rest behind a group is the bracket that closes the group. -/
theorem bracket?_of_afterGroup? {x : Site} (hp : Paired ss) (hx : x :: after <:+ ss)
    (hsuffix : s :: rest <:+ ss) (hs : s.kind.bracket? = some (.opening, b))
    (h : afterGroup? (s :: rest) = some after) : x.kind.bracket? = some (.closing, b) := by
  obtain ⟨c, hc, hafter⟩ := exists_closer_of_afterGroup? (hp.of_suffix hsuffix) hs h
  have hcss : c :: after <:+ ss := hafter.trans ((List.suffix_cons s rest).trans hsuffix)
  rw [eq_of_cons_suffix hx hcss]
  exact hc

/-- The sites `after` come right away, or behind a group of kind `b`. -/
def BehindGroup (b : Bracket) (ss after : List Site) : Prop :=
  ss = after ∨ ∃ s rest, ss = s :: rest ∧ s.kind.bracket? = some (.opening, b) ∧
    afterGroup? (s :: rest) = some after

namespace BehindGroup

variable {x x' : Site}

theorem suffix (h : BehindGroup b rest after) : after <:+ rest := by
  rcases h with rfl | ⟨s, tail, rfl, -, hgroup⟩
  · exact List.suffix_refl _
  · exact afterGroup?_suffix hgroup

/-- In front of what comes behind a group stands the bracket that closes it, and if there is no
    group, what would stand in front of that. -/
theorem front (hp : Paired ss) (hx : x :: rest <:+ ss) (h : BehindGroup b rest after) :
    ∃ p, p :: after <:+ ss ∧ (p = x ∨ p.kind.bracket? = some (.closing, b)) := by
  rcases h with rfl | ⟨s, tail, rfl, hs, hgroup⟩
  · exact ⟨x, hx, Or.inl rfl⟩
  · have hsuffix := (List.suffix_cons x _).trans hx
    obtain ⟨c, hc, hafter⟩ := exists_closer_of_afterGroup? (hp.of_suffix hsuffix) hs hgroup
    exact ⟨c, hafter.trans ((List.suffix_cons s tail).trans hsuffix), Or.inr hc⟩

/-- What comes behind a group settles where the group is, and what stands in front of it, if that is
    no bracket. -/
theorem eq_of_eq (hp : Paired ss) (hx : x :: rest <:+ ss) (hx' : x' :: rest' <:+ ss)
    (hplain : x.kind.bracket? = none) (hplain' : x'.kind.bracket? = none)
    (h : BehindGroup b rest after) (h' : BehindGroup b rest' after) :
    x :: rest = x' :: rest' := by
  have hrest := (List.suffix_cons x rest).trans hx
  have hrest' := (List.suffix_cons x' rest').trans hx'
  have hrests : rest = rest' := by
    rcases h with rfl | ⟨s, tail, rfl, hs, hgroup⟩ <;>
      rcases h' with rfl | ⟨s', tail', rfl, hs', hgroup'⟩
    · rfl
    · rw [bracket?_of_afterGroup? hp hx hrest' hs' hgroup'] at hplain
      cases hplain
    · rw [bracket?_of_afterGroup? hp hx' hrest hs hgroup] at hplain'
      cases hplain'
    · exact eq_of_afterGroup?_eq hp hrest hrest' hs hs' hgroup hgroup'
  subst hrests
  rw [eq_of_cons_suffix hx hx']

end BehindGroup

section Parameters

variable {name name' parameters : List Site} {f f' : Site}

theorem bracket?_of_name {n : Site} (h : n.kind = .identifier) : n.kind.bracket? = none := by
  rw [h]
  rfl

theorem bracket?_of_func (h : f.kind = .keyword .func) : f.kind.bracket? = none := by
  rw [h]
  rfl

theorem bracket?_of_lParen (h : s.isMark .lParen = true) :
    s.kind.bracket? = some (.opening, .round) := by
  rw [kind_eq_of_isMark h]
  rfl

/-- Parameters come behind a name, or behind the type parameters there. -/
theorem behindGroup_of_namedParameters? (h : namedParameters? name = some parameters) :
    ∃ n tail, name = n :: tail ∧ n.kind = .identifier ∧ BehindGroup .square tail parameters := by
  obtain ⟨n, tail, rfl, hn, -, htail⟩ := namedParameters?_eq_some_iff.mp h
  refine ⟨n, tail, rfl, hn, ?_⟩
  rcases htail with rfl | ⟨hbegin, hgroup⟩
  · exact Or.inl rfl
  · obtain ⟨s, rest, rfl, hs⟩ := beginsWith_iff.mp hbegin
    refine Or.inr ⟨s, rest, rfl, ?_, hgroup⟩
    rw [kind_eq_of_isMark hs]
    rfl

/-- The parameters that are read behind a `func`: first comes a receiver or none, then a name or
    none. -/
def Reaches (rest parameters : List Site) : Prop :=
  ∃ name, BehindGroup .round rest name ∧
    (name = parameters ∨ namedParameters? name = some parameters)

/-- Parameters with a `func` or a receiver right in front of them have no name. -/
theorem namedParameters?_ne_of_front (hp : Paired ss) (hs : s :: parameters <:+ ss)
    (hfront : s.kind = .keyword .func ∨ s.kind.bracket? = some (.closing, .round))
    (hname : name <:+ ss) : namedParameters? name ≠ some parameters := by
  intro h
  obtain ⟨n, tail, rfl, hn, htail⟩ := behindGroup_of_namedParameters? h
  obtain ⟨p, hps, hp'⟩ := htail.front hp hname
  obtain rfl : s = p := eq_of_cons_suffix hs hps
  have hcases : s.kind = .identifier ∨ s.kind.bracket? = some (.closing, .square) := by
    rcases hp' with rfl | hclose
    · exact Or.inl hn
    · exact Or.inr hclose
  rcases hfront with hfunc | hround <;> rcases hcases with hident | hsquare
  · rw [hfunc] at hident
    cases hident
  · rw [bracket?_of_func hfunc] at hsquare
    cases hsquare
  · rw [bracket?_of_name hident] at hround
    cases hround
  · rw [hround] at hsquare
    cases hsquare

/-- A parenthesis begins the parameters of only one `func`. -/
theorem Reaches.eq_of_eq (hp : Paired ss) (hf : f.kind = .keyword .func)
    (hf' : f'.kind = .keyword .func) (hsuffix : f :: rest <:+ ss) (hsuffix' : f' :: rest' <:+ ss)
    (h : Reaches rest parameters) (h' : Reaches rest' parameters) :
    f :: rest = f' :: rest' := by
  obtain ⟨name, hreceiver, hname⟩ := h
  obtain ⟨name', hreceiver', hname'⟩ := h'
  obtain ⟨x, hx, hfront⟩ := hreceiver.front hp hsuffix
  obtain ⟨x', hx', hfront'⟩ := hreceiver'.front hp hsuffix'
  have hss : name <:+ ss := (List.suffix_cons x name).trans hx
  have hss' : name' <:+ ss := (List.suffix_cons x' name').trans hx'
  have hnames : name = name' := by
    rcases hname with rfl | hname <;> rcases hname' with rfl | hname'
    · rfl
    · have hfunc := hfront.imp_left fun he => he ▸ hf
      exact absurd hname' (namedParameters?_ne_of_front hp hx hfunc hss')
    · have hfunc := hfront'.imp_left fun he => he ▸ hf'
      exact absurd hname (namedParameters?_ne_of_front hp hx' hfunc hss)
    · obtain ⟨n, tail, rfl, hn, htail⟩ := behindGroup_of_namedParameters? hname
      obtain ⟨n', tail', rfl, hn', htail'⟩ := behindGroup_of_namedParameters? hname'
      exact htail.eq_of_eq hp hss hss' (bracket?_of_name hn) (bracket?_of_name hn') htail'
  subst hnames
  exact hreceiver.eq_of_eq hp hsuffix hsuffix' (bracket?_of_func hf) (bracket?_of_func hf')
    hreceiver'

theorem reaches_of_parameters? (h : parameters? rest = .ok (some parameters)) :
    Reaches rest parameters := by
  cases rest with
  | nil => cases h
  | cons s tail =>
    rcases parameters?_cases s tail with ⟨-, -, heq⟩ | ⟨after, hs, hgroup, -, heq⟩ |
      ⟨after, -, -, -, heq⟩ | ⟨-, heq⟩ <;> rw [heq] at h
    · cases h
    · have hname := Except.ok.inj h
      exact ⟨after, Or.inr ⟨s, tail, rfl, bracket?_of_lParen hs, hgroup⟩, Or.inr hname⟩
    · exact ⟨s :: tail, Or.inl rfl, Or.inl (Option.some.inj (Except.ok.inj h))⟩
    · exact ⟨s :: tail, Or.inl rfl, Or.inr (Except.ok.inj h)⟩

/-- A parenthesis that a signature leaves open begins its parameters, or is taken to begin them. -/
theorem reaches_of_unclosed {opener : Token}
    (h : defect? rest = some (.unclosedParenthesis opener)) :
    ∃ s tail, Reaches rest (s :: tail) ∧ s.token = opener := by
  rcases defect?_eq_some_iff.mp h with ⟨t, hparameters, heq⟩ | ⟨s, tail, hparameters, -, heq⟩ |
    ⟨_, _, _, _, _, _, _, _, _, heq⟩
  · cases heq
    obtain ⟨s, tail, rfl, rfl, -, -⟩ := parameters?_eq_error hparameters
    exact ⟨s, tail, ⟨s :: tail, Or.inl rfl, Or.inl rfl⟩, rfl⟩
  · cases heq
    exact ⟨s, tail, reaches_of_parameters? hparameters, rfl⟩
  · cases heq

theorem Reaches.suffix (h : Reaches rest parameters) : parameters <:+ rest := by
  obtain ⟨name, hreceiver, rfl | hname⟩ := h
  · exact hreceiver.suffix
  · exact (namedParameters?_suffix hname).1.trans hreceiver.suffix

/-- Two signatures do not leave the same parenthesis open. -/
theorem eq_of_unclosed_eq {opener : Token} (hp : Paired ss) (hnodup : (ss.map Site.token).Nodup)
    (hf : f.kind = .keyword .func) (hf' : f'.kind = .keyword .func) (hsuffix : f :: rest <:+ ss)
    (hsuffix' : f' :: rest' <:+ ss) (h : defect? rest = some (.unclosedParenthesis opener))
    (h' : defect? rest' = some (.unclosedParenthesis opener)) : f :: rest = f' :: rest' := by
  obtain ⟨s, tail, hreach, rfl⟩ := reaches_of_unclosed h
  obtain ⟨s', tail', hreach', htoken⟩ := reaches_of_unclosed h'
  have hs := hreach.suffix.trans ((List.suffix_cons f rest).trans hsuffix)
  have hs' := hreach'.suffix.trans ((List.suffix_cons f' rest').trans hsuffix')
  rw [← eq_of_token_eq hnodup hs hs' htoken.symm] at hreach'
  exact hreach.eq_of_eq hp hf hf' hsuffix hsuffix' hreach'

end Parameters

section Defects

/-- A defect is about a parenthesis or about a brace. -/
theorem kind_of_defect? {d : Defect} (h : defect? ss = some d) :
    (∃ t, d = .unclosedParenthesis t ∧ t.kind = .punctuation .lParen) ∨
      ∃ t, d = .detachedBody t ∧ t.kind = .punctuation .lBrace := by
  obtain ⟨s, -, ⟨rfl, hmark, -⟩ | ⟨rfl, hmark, -⟩⟩ := defect?_cases h
  · exact Or.inl ⟨s.token, rfl, kind_eq_of_isMark hmark⟩
  · exact Or.inr ⟨s.token, rfl, kind_eq_of_isMark hmark⟩

theorem defects_cons (s : Site) (rest : List Site) :
    defects (s :: rest) =
      (if s.kind = .keyword .func then (defect? rest).toList else []) ++ defects rest := by
  rw [defects]
  split <;> rfl

theorem mem_defects_iff_suffix {d : Defect} :
    d ∈ defects ss ↔ ∃ f rest, f :: rest <:+ ss ∧ f.kind = .keyword .func ∧
      defect? rest = some d := by
  rw [mem_defects]
  constructor
  · rintro ⟨before, f, rest, rfl, hf, hd⟩
    exact ⟨f, rest, List.suffix_append before _, hf, hd⟩
  · rintro ⟨f, rest, ⟨before, rfl⟩, hf, hd⟩
    exact ⟨before, f, rest, rfl, hf, hd⟩

/-- The defects of signatures, taken in pairs, belong to one `func` and another one behind it. -/
theorem pairwise_defects_iff {R : Defect → Defect → Prop} :
    (defects ss).Pairwise R ↔ ∀ f rest f' rest' d d', f :: rest <:+ ss → f' :: rest' <:+ rest →
      f.kind = .keyword .func → f'.kind = .keyword .func → defect? rest = some d →
      defect? rest' = some d' → R d d' := by
  induction ss with
  | nil => simp [defects]
  | cons s ss ih =>
    have hmem : ∀ d, d ∈ (if s.kind = .keyword .func then (defect? ss).toList else []) ↔
        s.kind = .keyword .func ∧ defect? ss = some d := by
      intro d
      split <;> simp [*]
    rw [defects_cons, List.pairwise_append, ih]
    constructor
    · rintro ⟨-, hrest, hfirst⟩ f rest f' rest' d d' hf hin hkind hkind' hd hd'
      rcases List.suffix_cons_iff.mp hf with heq | hf
      · obtain ⟨rfl, rfl⟩ := List.cons.inj heq
        exact hfirst d ((hmem d).mpr ⟨hkind, hd⟩) d'
          (mem_defects_iff_suffix.mpr ⟨f', rest', hin, hkind', hd'⟩)
      · exact hrest f rest f' rest' d d' hf hin hkind hkind' hd hd'
    · intro h
      refine ⟨?_, ?_, ?_⟩
      · split
        · cases defect? ss <;> simp
        · exact List.Pairwise.nil
      · intro f rest f' rest' d d' hf
        exact h f rest f' rest' d d' (hf.trans (List.suffix_cons s ss))
      · intro d hd d' hd'
        obtain ⟨hkind, hdefect⟩ := (hmem d).mp hd
        obtain ⟨f', rest', hin, hkind', hdefect'⟩ := mem_defects_iff_suffix.mp hd'
        exact h s ss f' rest' d d' (List.suffix_refl _) hin hkind hkind' hdefect hdefect'

end Defects

end Signature

end Semicolons
