import Semicolons.Proofs.Place.Parentheses
import Semicolons.Proofs.Signature.Defect
import Semicolons.Proofs.Token.Tiling

/-!
# The parentheses of a signature

Brackets are paired once, among all visible tokens of a text. Whether the line goes on behind the
parameters of a signature is asked at the place of its first token, from where the parenthesis that
closes them is looked for anew. Since only the last token of a text ends the input, the same
parenthesis is found (`closingParenthesis?_eq_closerAt?`), so that the question is about the token
behind the pair (`pairs_seen_from`).
-/

namespace Semicolons

/-- The last token ends the input, and no other one does. -/
def EndsOnce (ts : List Token) : Prop :=
  ∃ before e, ts = before ++ [e] ∧ e.isEnd = true ∧ ∀ t ∈ before, t.isEnd = false

theorem isEnd_eq_true_iff {t : Token} : t.isEnd = true ↔ t.kind = .endOfInput :=
  beq_iff_eq

theorem endsOnce_visibleTokens (source : String) : EndsOnce (visibleTokens (tokens source)) := by
  obtain ⟨before, e, hsplit, hkind, -, hbefore⟩ := (tiles_tokens source).last
  have he : e.isHidden = false := by
    have hmem : e ∈ tokens source := by simp [hsplit]
    rw [Token.isHidden, channel_of_mem_tokens hmem, hkind]
    rfl
  refine ⟨visibleTokens before, e, ?_, isEnd_eq_true_iff.mpr hkind, ?_⟩
  · simp [hsplit, visibleTokens, he]
  · intro t ht
    rw [Bool.eq_false_iff, ne_eq, isEnd_eq_true_iff]
    exact (hbefore t (List.mem_of_mem_filter ht)).1

namespace EndsOnce

variable {ts : List Token} {t : Token} {p : Nat}

/-- In front of a token, none ends the input. -/
theorem forall_mem_take (h : EndsOnce ts) (ht : ts[p]? = some t) :
    ∀ x ∈ ts.take p, x.isEnd = false := by
  obtain ⟨before, e, rfl, -, hbefore⟩ := h
  obtain ⟨hp, -⟩ := List.getElem?_eq_some_iff.mp ht
  rw [List.length_append, List.length_singleton] at hp
  intro x hx
  rw [List.take_append_of_le_length (Nat.le_of_lt_succ hp)] at hx
  exact hbefore x (List.mem_of_mem_take hx)

/-- Another token stands behind one that does not end the input. -/
theorem exists_next (h : EndsOnce ts) (ht : ts[p]? = some t) (hend : t.isEnd = false) :
    ∃ n, ts[p + 1]? = some n := by
  obtain ⟨before, e, rfl, he, -⟩ := h
  obtain ⟨hp, rfl⟩ := List.getElem?_eq_some_iff.mp ht
  rw [List.length_append, List.length_singleton] at hp
  have hne : p ≠ before.length := by
    rintro rfl
    rw [List.getElem_concat_length rfl, he] at hend
    cases hend
  have hlt : p + 1 < (before ++ [e]).length := by
    rw [List.length_append, List.length_singleton]
    omega
  exact ⟨_, List.getElem?_eq_getElem hlt⟩

/-- Another token stands behind every pair. -/
theorem exists_next_of_closerAt? {q : Nat} (h : EndsOnce ts) (hq : closerAt? ts p = some q) :
    ∃ n, ts[q + 1]? = some n := by
  obtain ⟨t, b, ht, hopening, -⟩ := closerAt?_eq_some_iff.mp hq
  obtain ⟨c, hc, hclosing⟩ := exists_closing_of_closerAt? hq ht hopening
  apply h.exists_next hc
  rw [Bool.eq_false_iff, ne_eq, isEnd_eq_true_iff]
  intro hend
  rw [hend] at hclosing
  cases hclosing

/-- No bracket is overlooked when the search stops in front of the end of the input. -/
theorem closer?_beforeEnd (h : EndsOnce ts) (ht : ts[p]? = some t) (hend : t.isEnd = false)
    (b : Bracket) : closer? b 0 ((beforeEnd (ts.drop (p + 1))).map (·.kind)) =
      closer? b 0 ((ts.drop (p + 1)).map (·.kind)) := by
  obtain ⟨n, hn⟩ := h.exists_next ht hend
  obtain ⟨before, e, rfl, he, hbefore⟩ := h
  obtain ⟨hp, -⟩ := List.getElem?_eq_some_iff.mp hn
  rw [List.length_append, List.length_singleton] at hp
  rw [List.drop_append_of_le_length (Nat.le_of_lt_succ hp)]
  have hbefore' : beforeEnd (before.drop (p + 1) ++ [e]) = before.drop (p + 1) := by
    have hall : ∀ x ∈ before.drop (p + 1), (!x.isEnd) = true := by
      intro x hx
      rw [hbefore x (List.mem_of_mem_drop hx)]
      rfl
    rw [beforeEnd, List.takeWhile_append_of_pos hall, List.takeWhile_cons_of_neg (by simp [he]),
      List.append_nil]
  have hbracket : e.kind.bracket? = none := by
    rw [isEnd_eq_true_iff.mp he]
    rfl
  rw [hbefore', List.map_append, List.map_singleton, closer?_concat hbracket]

end EndsOnce

namespace Place

section Position

variable {ts : List Token} {p f : Nat} {t : Token} {look : Place}

/-- From the place of the visible token at position `f`, those behind it are found by their
    positions. -/
theorem visible?_of_position (hends : EndsOnce ts) (hahead : visibleTokens look.ahead = ts.drop f)
    (hle : f ≤ p) (ht : ts[p]? = some t) :
    ∃ passed rest, look.ahead = passed ++ t :: rest ∧
      visibleTokens passed = (ts.take p).drop f ∧ visibleTokens rest = ts.drop (p + 1) ∧
      look.visible? (p - f + 1) = some ⟨passed.reverse ++ look.behind, t :: rest⟩ := by
  have hlength : ((ts.take p).drop f).length = p - f := by
    obtain ⟨hp, -⟩ := List.getElem?_eq_some_iff.mp ht
    rw [List.length_drop, List.length_take, Nat.min_eq_left hp.le]
  have hsplit : visibleTokens look.ahead = (ts.take p).drop f ++ t :: ts.drop (p + 1) := by
    have hf : f ≤ (ts.take p).length := by
      obtain ⟨hp, -⟩ := List.getElem?_eq_some_iff.mp ht
      rwa [List.length_take, Nat.min_eq_left hp.le]
    rw [hahead, ← List.drop_append_of_le_length hf, ← eq_take_append_drop_of_getElem? ht]
  have hfirst : ∀ x ∈ (ts.take p).drop f, x.isEnd = false :=
    fun x hx => hends.forall_mem_take ht x (List.mem_of_mem_drop hx)
  rw [← hlength]
  exact visible?_of_visibleTokens hsplit hfirst

theorem visibleToken?_of_position (hends : EndsOnce ts)
    (hahead : visibleTokens look.ahead = ts.drop f) (hle : f ≤ p) (ht : ts[p]? = some t) :
    look.visibleToken? (p - f + 1) = some t := by
  obtain ⟨passed, rest, -, -, -, hvisible⟩ := visible?_of_position hends hahead hle ht
  rw [visibleToken?, hvisible]
  rfl

/-- The parenthesis that is found from a place is the one that is paired. -/
theorem closingParenthesis?_eq_closerAt? (hends : EndsOnce ts)
    (hahead : visibleTokens look.ahead = ts.drop f) (hle : f ≤ p) (ht : ts[p]? = some t)
    (hopening : t.isMark .lParen = true) :
    look.closingParenthesis? (p - f + 1) =
      match closerAt? ts p with
      | some q => .ok (some (q - f + 1))
      | none => .error t := by
  have hbracket : t.kind.bracket? = some (.opening, .round) :=
    isMark_opening_iff.mp hopening
  obtain ⟨passed, rest, -, -, hrest, hvisible⟩ := visible?_of_position hends hahead hle ht
  rw [closingParenthesis?, hvisible]
  simp only [hopening, if_true, closingNumber?_eq, hrest,
    hends.closer?_beforeEnd ht (isEnd_of_isMark hopening), closerAt?_of_opening ht hbracket]
  cases closer? .round 0 ((ts.drop (p + 1)).map (·.kind)) with
  | none => rfl
  | some n =>
    have hnumber : p - f + 1 + 1 + n = p + 1 + n - f + 1 := by omega
    simp only [Option.map_some, hnumber]

end Position

/-- At its own place, a token of a stream without repetitions follows a line feed if it does so in
    the stream. -/
theorem followsLineFeed_iff_of_nodup {stream behind rest : List Token} {t : Token}
    (hnodup : stream.Nodup) (hplace : stream = behind.reverse ++ t :: rest) :
    (⟨behind, t :: rest⟩ : Place).followsLineFeed = true ↔ FollowsLineFeed stream t := by
  have hgap : (⟨behind, t :: rest⟩ : Place).followsLineFeed =
      (behind.takeWhile Token.isHidden).any (·.hasLineFeed) := by
    simp [followsLineFeed, gap]
  rw [hgap, List.any_eq_true]
  constructor
  · rintro ⟨g, hg, hfeed⟩
    obtain ⟨others, hothers⟩ := List.takeWhile_prefix (l := behind) Token.isHidden
    obtain ⟨near, far, hsplit⟩ := List.append_of_mem hg
    have hhidden : ∀ x ∈ near ++ g :: far, x.isHidden = true := by
      rw [← hsplit]
      exact fun x hx => List.all_eq_true.mp List.all_takeWhile x hx
    have hbehind : behind.reverse = others.reverse ++ far.reverse ++ g :: near.reverse := by
      rw [← hothers, hsplit]
      simp
    refine ⟨others.reverse ++ far.reverse, g, near.reverse, rest, ?_, hhidden g (by simp), hfeed,
      fun x hx => hhidden x (by simp [List.mem_reverse.mp hx])⟩
    rw [hplace, hbehind]
    simp
  · rintro ⟨before, g, gap, after, hsplit, hg, hfeed, hgap⟩
    -- The token stands at one place only, so that all in front of it is behind this place.
    have hsplit : stream = (before ++ g :: gap) ++ t :: after := by simp [hsplit]
    rw [hplace, List.nodup_middle, List.nodup_cons, List.mem_append, not_or] at hnodup
    obtain ⟨⟨hbefore, hrest⟩, -⟩ := hnodup
    rw [hplace] at hsplit
    obtain ⟨hbehind, -, -⟩ := (List.append_cons_inj_of_notMem hbefore hrest).mp hsplit
    have hreverse : behind = gap.reverse ++ g :: before.reverse := by
      rw [← List.reverse_reverse behind, hbehind]
      simp
    refine ⟨g, ?_, hfeed⟩
    have hgap : ∀ x ∈ gap.reverse, x.isHidden = true := by simpa using hgap
    rw [hreverse, List.takeWhile_append_of_pos hgap, List.takeWhile_cons_of_pos hg]
    simp

end Place

section Sites

variable {stream : List Token} {s : Site} {p : Nat}

theorem getElem?_visibleTokens (stream : List Token) (p : Nat) :
    (visibleTokens stream)[p]? = (sites stream)[p]?.map Site.token := by
  rw [← map_token_sites, List.getElem?_map]

theorem getElem?_visibleTokens_of_site (hs : (sites stream)[p]? = some s) :
    (visibleTokens stream)[p]? = some s.token := by
  rw [getElem?_visibleTokens, hs, Option.map_some]

/-- What a site knows of its group is what pairing finds for its position. -/
theorem closerAt?_visibleTokens (hs : (sites stream)[p]? = some s) :
    closerAt? (visibleTokens stream) p = s.inside.map (p + 1 + ·) := by
  have hkinds : (visibleTokens stream).map (·.kind) = (sites stream).map Site.kind := by
    rw [← map_token_sites, List.map_map]
    rfl
  obtain ⟨hp, rfl⟩ := List.getElem?_eq_some_iff.mp hs
  have hpaired : Paired ((sites stream)[p] :: (sites stream).drop (p + 1)) := by
    rw [← List.drop_eq_getElem_cons hp]
    exact (paired_sites stream).of_suffix (List.drop_suffix p _)
  rw [closerAt?, hkinds, getElem?_insides, List.getElem?_map, hs, hpaired.1, List.map_drop]
  rfl

/-- Behind a group the sites go on behind the position with which its first one is paired. -/
theorem afterGroup?_drop (stream : List Token) (p : Nat) :
    Signature.afterGroup? ((sites stream).drop p) =
      (closerAt? (visibleTokens stream) p).map fun q => (sites stream).drop (q + 1) := by
  cases hs : (sites stream)[p]? with
  | none =>
    have ht : (visibleTokens stream)[p]? = none := by
      rw [getElem?_visibleTokens, hs]
      rfl
    rw [List.drop_eq_nil_of_le (List.getElem?_eq_none_iff.mp hs), closerAt?, getElem?_insides,
      List.getElem?_map, ht]
    rfl
  | some s =>
    have hdrop : ∀ n, ((sites stream).drop (p + 1)).drop (n + 1) =
        (sites stream).drop (p + 1 + n + 1) := fun n => List.drop_drop
    obtain ⟨hp, rfl⟩ := List.getElem?_eq_some_iff.mp hs
    rw [List.drop_eq_getElem_cons hp, Signature.afterGroup?_cons, closerAt?_visibleTokens hs,
      Option.map_map]
    simp only [hdrop]
    rfl

end Sites

/-- What a place in front of the visible tokens from position `f` on sees of how the parentheses
    among them are paired. -/
structure SeesPairs (ts : List Token) (f : Nat) (look : Place) : Prop where
  /-- The number that is found is the one of the paired parenthesis. -/
  closed : ∀ p t, f ≤ p → ts[p]? = some t → t.isMark .lParen = true →
    ∀ q, closerAt? ts p = some q ↔ look.closingParenthesis? (p - f + 1) = .ok (some (q - f + 1))
  /-- A parenthesis that is not paired is an error. -/
  unclosed : ∀ p t, f ≤ p → ts[p]? = some t → t.isMark .lParen = true →
    (closerAt? ts p = none ↔ look.closingParenthesis? (p - f + 1) = .error t)
  /-- Whether the line goes on behind a pair is answered, and for the token behind it. -/
  line : ∀ p t, f ≤ p → ts[p]? = some t → t.isMark .lParen = true →
    ∀ q, closerAt? ts p = some q →
      look.continuesAfterGroup (p - f + 1) = .ok (look.continuesLine (q - f + 2)) ∧
        ∃ n, ts[q + 1]? = some n ∧ look.visibleToken? (q - f + 2) = some n

/-- Behind the parameters that begin at position `p`, the place is asked whether the line goes on at
    the token behind position `q`, with which they are paired, and so the body is found. -/
structure AsksBehind (stream : List Token) (f : Nat) (look : Place) (params after : List Site)
    (p q : Nat) : Prop where
  lt : f < p
  params_eq : params = (sites stream).drop p
  paired : closerAt? (visibleTokens stream) p = some q
  after_eq : after = (sites stream).drop (q + 1)
  asked : look.continuesAfterGroup (p - f + 1) = .ok (look.continuesLine (q - f + 2))
  token : ∃ n, (visibleTokens stream)[q + 1]? = some n ∧ look.visibleToken? (q - f + 2) = some n
  body : Signature.bodyAfter after =
    if look.continuesLine (q - f + 2) then Signature.afterResult 0 after else after

theorem seesPairs_of_ahead {ts : List Token} {f : Nat} {look : Place} (hends : EndsOnce ts)
    (hahead : visibleTokens look.ahead = ts.drop f) : SeesPairs ts f look where
  closed := by
    intro p t hle ht hopening q
    rw [Place.closingParenthesis?_eq_closerAt? hends hahead hle ht hopening]
    cases hq : closerAt? ts p with
    | none => simp
    | some q' =>
      have hlt := closerAt?_lt hq
      simp only [Option.some.injEq, Except.ok.injEq]
      omega
  unclosed := by
    intro p t hle ht hopening
    rw [Place.closingParenthesis?_eq_closerAt? hends hahead hle ht hopening]
    cases closerAt? ts p <;> simp
  line := by
    intro p t hle ht hopening q hq
    have hfound := Place.closingParenthesis?_eq_closerAt? hends hahead hle ht hopening
    rw [hq] at hfound
    obtain ⟨n, hn⟩ := hends.exists_next_of_closerAt? hq
    have hlt := closerAt?_lt hq
    have hnumber : q + 1 - f + 1 = q - f + 2 := by omega
    have htoken := Place.visibleToken?_of_position hends hahead (by omega) hn
    rw [hnumber] at htoken
    exact ⟨by rw [Place.continuesAfterGroup, hfound], n, hn, htoken⟩

section Source

variable {source : String} {f : Nat} {first : Token}

/-- At the place of a visible token, the visible tokens from there on are ahead. -/
theorem ofIndex_of_visibleTokens (hf : (visibleTokens (tokens source))[f]? = some first) :
    tokens source = (Place.ofIndex (tokens source) first.index).behind.reverse ++
        (Place.ofIndex (tokens source) first.index).ahead ∧
      visibleTokens (Place.ofIndex (tokens source) first.index).ahead =
        (visibleTokens (tokens source)).drop f := by
  obtain ⟨passed, rest, htokens, -, hvisible, hrest⟩ :=
    exists_split_of_visibleTokens (eq_take_append_drop_of_getElem? hf)
  have hindex : first.index = passed.length :=
    (tiles_tokens source).index passed.length first (by simp [htokens])
  have hplace : Place.ofIndex (tokens source) first.index = ⟨passed.reverse, first :: rest⟩ := by
    rw [hindex, htokens, Place.ofIndex_append]
  obtain ⟨hlt, hget⟩ := List.getElem?_eq_some_iff.mp hf
  rw [hplace]
  constructor
  · simp [htokens]
  · rw [visibleTokens_visible hvisible, hrest, List.drop_eq_getElem_cons hlt, hget]

/-- Whether the line goes on at a token is known of its site, and seen from a place in front. -/
theorem continuesLine_of_site {s : Site} {p : Nat}
    (hf : (visibleTokens (tokens source))[f]? = some first) (hle : f ≤ p)
    (hs : (sites (tokens source))[p]? = some s) :
    (Place.ofIndex (tokens source) first.index).continuesLine (p - f + 1) =
      !s.followsLineFeed := by
  have ht := getElem?_visibleTokens_of_site hs
  obtain ⟨hplace, hahead⟩ := ofIndex_of_visibleTokens hf
  obtain ⟨passed, rest, hsplit, -, -, hvisible⟩ :=
    Place.visible?_of_position (endsOnce_visibleTokens source) hahead hle ht
  have hmem : s ∈ sites (tokens source) := List.mem_of_getElem? hs
  rw [Place.continuesLine, hvisible, Option.all_some, Bool.not_inj_iff, Bool.eq_iff_iff,
    followsLineFeed_iff (nodup_tokens source) hmem]
  apply Place.followsLineFeed_iff_of_nodup (nodup_tokens source)
  rw [hsplit] at hplace
  exact hplace.trans (by simp)

theorem asksBehind_of_parameters {params after : List Site}
    (hf : (visibleTokens (tokens source))[f]? = some first)
    (hparams : Signature.parameters? ((sites (tokens source)).drop (f + 1)) = .ok (some params))
    (hafter : Signature.afterGroup? params = some after) :
    ∃ p q, AsksBehind (tokens source) f (Place.ofIndex (tokens source) first.index)
      params after p q := by
  have hends := endsOnce_visibleTokens source
  obtain ⟨-, hahead⟩ := ofIndex_of_visibleTokens hf
  obtain ⟨hsuffix, hbegin⟩ := Signature.parameters?_suffix hparams
  obtain ⟨p, hlt, rfl⟩ : ∃ p, f < p ∧ params = (sites (tokens source)).drop p := by
    rw [List.suffix_iff_eq_drop, List.drop_drop] at hsuffix
    exact ⟨_, by omega, hsuffix⟩
  rw [afterGroup?_drop] at hafter
  obtain ⟨q, hpaired, rfl⟩ := Option.map_eq_some_iff.mp hafter
  obtain ⟨opener, hopener, hopening⟩ : ∃ t, (visibleTokens (tokens source))[p]? = some t ∧
      t.isMark .lParen = true := by
    obtain ⟨s, rest, hs, hmark⟩ := Signature.beginsWith_iff.mp hbegin
    have hs : (sites (tokens source))[p]? = some s := by
      rw [← List.head?_drop, hs]
      rfl
    exact ⟨s.token, getElem?_visibleTokens_of_site hs, hmark⟩
  obtain ⟨hasked, n, hn, htoken⟩ :=
    (seesPairs_of_ahead hends hahead).line p opener hlt.le hopener hopening q hpaired
  obtain ⟨s, hs, -⟩ : ∃ s, (sites (tokens source))[q + 1]? = some s ∧ s.token = n := by
    rw [getElem?_visibleTokens] at hn
    exact Option.map_eq_some_iff.mp hn
  have hbehind := closerAt?_lt hpaired
  have hline := continuesLine_of_site hf (by omega) hs
  have hnumber : q + 1 - f + 1 = q - f + 2 := by omega
  rw [hnumber] at hline
  refine ⟨p, q, hlt, rfl, hpaired, rfl, hasked, ⟨n, hn, htoken⟩, ?_⟩
  rw [Signature.bodyAfter, List.head?_drop, hs, hline]
  cases hfeed : s.followsLineFeed <;> simp [hfeed]

/-- From the place of a visible token of a text, every parenthesis behind it is seen to be closed
    where it is paired. So behind the parameters of a signature that begins with the token, it is
    never an error to ask whether the line goes on, and the token behind the pair is asked. -/
theorem pairs_seen_from (hf : (visibleTokens (tokens source))[f]? = some first) :
    SeesPairs (visibleTokens (tokens source)) f (Place.ofIndex (tokens source) first.index) ∧
      ∀ params after,
        Signature.parameters? ((sites (tokens source)).drop (f + 1)) = .ok (some params) →
        Signature.afterGroup? params = some after →
        ∃ p q, AsksBehind (tokens source) f (Place.ofIndex (tokens source) first.index)
          params after p q := by
  obtain ⟨-, hahead⟩ := ofIndex_of_visibleTokens hf
  exact ⟨seesPairs_of_ahead (endsOnce_visibleTokens source) hahead,
    fun _ _ => asksBehind_of_parameters hf⟩

theorem pairs_seen_from_func :
    (Place.ofIndex (tokens "func f()\n\x7b") 0).closingParenthesis? 3 = .ok (some 4) ∧
      ∃ p q, AsksBehind (tokens "func f()\n\x7b") 0 (Place.ofIndex (tokens "func f()\n\x7b") 0)
        ((sites (tokens "func f()\n\x7b")).drop 2)
        ((sites (tokens "func f()\n\x7b")).drop 4) p q := by
  have hfirst : (visibleTokens (tokens "func f()\n\x7b"))[0]? =
      some (tokens "func f()\n\x7b")[0] := rfl
  obtain ⟨hsees, hasks⟩ := pairs_seen_from hfirst
  constructor
  · exact (hsees.closed 2 (tokens "func f()\n\x7b")[3] (Nat.zero_le 2) rfl rfl 3).mp rfl
  · exact hasks _ _ rfl rfl

end Source

end Semicolons
