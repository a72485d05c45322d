import Semicolons.Proofs.Problem.DetachedBody
import Semicolons.Proofs.Signature.Declaration

/-!
# Signatures with bodies

A signature with a body is a `func`, perhaps a receiver, a name and type parameters, parameters, a
result of which no part begins behind a line feed, and a brace. However these parts are told apart,
the reading comes to the brace, so that it is reported exactly where a line feed precedes it
(`convert_reports_detached`).

One shape is read as something else. A name and a group in brackets at the beginning of the result
of a function literal are taken for the name and the type parameters of a method, the receiver of
which are the parameters of the literal. If no parameters follow, that is no signature, and nothing
is said of the literal (`LooksLikeMethod`).
-/

namespace Semicolons

/-- The tokens of a result: words and marks, groups in parentheses and brackets, and types with
    fields in braces. No part begins behind a line feed. -/
inductive IsResult (stream : List Token) : List Token → Prop
  | nil : IsResult stream []
  | word {t : Token} {rest : List Token} : t.kind ∈ Signature.resultKinds →
      ¬ FollowsLineFeed stream t → IsResult stream rest → IsResult stream (t :: rest)
  | group {b : Bracket} {opener : Token} {behind rest : List Token} : b = .round ∨ b = .square →
      IsGroup b (opener :: behind) → ¬ FollowsLineFeed stream opener → IsResult stream rest →
      IsResult stream (opener :: (behind ++ rest))
  | fields {t : Token} {group rest : List Token} :
      t.kind = .keyword .struct ∨ t.kind = .keyword .interface → IsGroup .curly group →
      ¬ FollowsLineFeed stream t → IsResult stream rest → IsResult stream (t :: (group ++ rest))

/-- What stands in front of the parameters of a function that has a name: perhaps a receiver, the
    name, and perhaps type parameters. -/
def IsHead (head : List Token) : Prop :=
  ∃ receiver name types, head = receiver ++ name :: types ∧
    (receiver = [] ∨ IsGroup .round receiver) ∧ name.kind = .identifier ∧
    (types = [] ∨ IsGroup .square types)

/-- The visible tokens of a stream hold a signature with a body: `func`, what stands in front of the
    parameters, the parameters, a result, and the brace that begins the body. A function literal has
    nothing in front of its parameters. -/
structure SignsBody (stream : List Token) (func : Token) (head params result : List Token)
    (brace : Token) : Prop where
  visible : ∃ before after, visibleTokens stream =
    before ++ func :: (head ++ (params ++ (result ++ brace :: after)))
  func : func.kind = .keyword .func
  head : head = [] ∨ IsHead head
  params : IsGroup .round params
  result : IsResult stream result
  brace : brace.kind = .punctuation .lBrace

/-- A function literal of which the result begins with a name and a group in brackets, without
    anything in parentheses behind them. -/
def LooksLikeMethod (head result : List Token) : Prop :=
  head = [] ∧ ∃ name types rest, result = name :: (types ++ rest) ∧ name.kind = .identifier ∧
    IsGroup .square types ∧ ∀ t ∈ rest.head?, t.kind ≠ .punctuation .lParen

section Result

variable {stream rest : List Token} {t : Token} {b : Bracket}

theorem IsGroup.opening {behind : List Token} (h : IsGroup b (t :: behind)) :
    t.kind.bracket? = some (.opening, b) := by
  obtain ⟨opener, inner, closer, hsplit, hopener, -⟩ := h
  rwa [(List.cons.inj hsplit).1]

theorem Signature.bracket?_of_resultKinds {k : Kind} (h : k ∈ resultKinds) : k.bracket? = none := by
  revert k
  decide

/-- Behind a name, a result goes on. -/
theorem IsResult.of_name (h : IsResult stream (t :: rest)) (ht : t.kind = .identifier) :
    IsResult stream rest := by
  cases h with
  | word _ _ hrest => exact hrest
  | group _ hgroup _ _ =>
    have hopening := hgroup.opening
    rw [ht] at hopening
    cases hopening
  | fields hkind _ _ _ => simp [ht] at hkind

/-- Behind a bracket, there is the rest of its group, and then the result goes on. -/
theorem IsResult.of_opening (h : IsResult stream (t :: rest))
    (ht : t.kind.bracket? = some (.opening, b)) :
    ∃ behind after, rest = behind ++ after ∧ IsGroup b (t :: behind) ∧ IsResult stream after := by
  cases h with
  | word hkind _ _ =>
    rw [Signature.bracket?_of_resultKinds hkind] at ht
    cases ht
  | @group b' opener behind after _ hgroup _ hafter =>
    obtain ⟨⟩ : b' = b := by simpa [ht] using hgroup.opening.symm
    exact ⟨behind, after, rfl, hgroup, hafter⟩
  | fields hkind _ _ _ => rcases hkind with hkind | hkind <;> rw [hkind] at ht <;> cases ht

end Result

namespace Signature

section Sites

variable {stream : List Token} {s brace : Site} {after : List Site}

/-- The first part of a result is passed over, and what is left is a result. -/
theorem exists_part {rs : List Site} (h : IsResult stream (s.token :: rs.map Site.token))
    (hpaired : Paired (s :: (rs ++ after))) :
    ¬ FollowsLineFeed stream s.token ∧ ∃ part ss, rs = part ++ ss ∧
      afterPart? s (rs ++ after) = some (ss ++ after) ∧ IsResult stream (ss.map Site.token) := by
  generalize htokens : rs.map Site.token = ts at h
  cases h with
  | word hkind hline hrest =>
    subst htokens
    exact ⟨hline, [], rs, rfl, afterPart?_eq_some_iff.mpr (Or.inl ⟨hkind, rfl⟩), hrest⟩
  | @group b opener behind rest hb hgroup hline hrest =>
    obtain ⟨g, ss, rfl, rfl, rfl⟩ := List.map_eq_append_iff.mp htokens
    rw [List.append_assoc] at hpaired ⊢
    have hmark : s.isMark (.opening b) = true := isMark_opening_iff.mpr hgroup.opening
    refine ⟨hline, g, ss, rfl, afterPart?_eq_some_iff.mpr (Or.inr (Or.inl ⟨?_, ?_⟩)), hrest⟩
    · rcases hb with rfl | rfl
      · exact Or.inl hmark
      · exact Or.inr hmark
    · exact afterGroup?_of_group (g := s :: g) hgroup hpaired
  | fields hkind hgroup hline hrest =>
    obtain ⟨g, ss, rfl, rfl, rfl⟩ := List.map_eq_append_iff.mp htokens
    rw [List.append_assoc] at hpaired ⊢
    refine ⟨hline, g, ss, rfl, afterPart?_eq_some_iff.mpr (Or.inr (Or.inr ⟨hkind, ?_, ?_⟩)), hrest⟩
    · exact beginsWith_of_group hgroup
    · exact afterGroup?_of_group hgroup hpaired.2

/-- A result is passed over, up to the brace behind it. -/
theorem afterResult_of_result : ∀ {rs : List Site}, IsResult stream (rs.map Site.token) →
    (∀ s ∈ rs, s.followsLineFeed = true → FollowsLineFeed stream s.token) →
    brace.isMark .lBrace = true → Paired (rs ++ brace :: after) →
    afterResult 0 (rs ++ brace :: after) = brace :: after
  | [], _, _, hbrace, _ => afterResult_stop (afterPart?_eq_none hbrace (Or.inl rfl))
  | s :: rs, h, hfeed, hbrace, hpaired => by
    obtain ⟨hline, part, ss, hsplit, hpart, hrest⟩ := exists_part h hpaired
    have hs : s.followsLineFeed = false :=
      Bool.eq_false_iff.mpr fun htrue => hline (hfeed s List.mem_cons_self htrue)
    rw [List.cons_append, afterResult_part hs hpart]
    have hlt : ss.length < (s :: rs).length := by
      rw [hsplit, List.length_cons, List.length_append]
      omega
    rw [hsplit, List.cons_append, List.append_assoc] at hpaired
    refine afterResult_of_result hrest (fun x hx => hfeed x ?_) hbrace hpaired.2.of_append
    rw [hsplit]
    exact List.mem_cons_of_mem s (List.mem_append_right part hx)
termination_by rs => rs.length

/-- A bracket in a result begins a group, behind which the result goes on. -/
theorem exists_group {b : Bracket} {rs : List Site}
    (h : IsResult stream (s.token :: rs.map Site.token)) (hs : s.isMark (.opening b) = true) :
    ∃ g ss, rs = g ++ ss ∧ IsGroup b ((s :: g).map Site.token) ∧
      IsResult stream (ss.map Site.token) := by
  obtain ⟨behind, rest, htokens, hgroup, hrest⟩ := h.of_opening (isMark_opening_iff.mp hs)
  obtain ⟨g, ss, rfl, rfl, rfl⟩ := List.map_eq_append_iff.mp htokens
  exact ⟨g, ss, rfl, hgroup, hrest⟩

/-- In front of a brace, parentheses are followed like a receiver only by what belongs to a
    result. -/
theorem exists_of_followReceiver {rs : List Site} (hbrace : brace.isMark .lBrace = true)
    (h : followReceiver (rs ++ brace :: after) = true) :
    ∃ n s ss, rs = n :: s :: ss ∧ n.kind = .identifier ∧
      (s.isMark .lParen = true ∨ s.isMark .lBracket = true) := by
  obtain ⟨hname, hopening⟩ := Bool.and_eq_true_iff.mp h
  rw [Bool.or_eq_true_iff] at hopening
  cases rs with
  | nil =>
    have hkind : brace.kind = .identifier := by simpa [beginsWithName] using hname
    rw [isMark_of_kind_eq hkind] at hbrace
    cases hbrace
  | cons n rs =>
    refine ⟨n, ?_⟩
    cases rs with
    | nil =>
      have hother : ∀ mark, Punctuation.lBrace ≠ mark → beginsWith (brace :: after) mark = false :=
        fun mark hne => isMark_of_isMark_ne hbrace hne
      rcases hopening with hmark | hmark
      · exact absurd hmark (Bool.eq_false_iff.mp (hother .lParen (by decide)))
      · exact absurd hmark (Bool.eq_false_iff.mp (hother .lBracket (by decide)))
    | cons s ss => exact ⟨s, ss, rfl, by simpa [beginsWithName] using hname, hopening⟩

/-- A group in parentheses is a receiver, or the parameters themselves. -/
theorem parameters?_of_group {params rest : List Site}
    (hparams : IsGroup .round (params.map Site.token)) (hpaired : Paired (params ++ rest)) :
    parameters? (params ++ rest) =
      .ok (if followReceiver rest then namedParameters? rest else some (params ++ rest)) := by
  have hgroup := afterGroup?_of_group hparams hpaired
  have hbegins : beginsWith (params ++ rest) .lParen = true := beginsWith_of_group hparams
  obtain ⟨opener, tail, hsplit, hmark⟩ := beginsWith_iff.mp hbegins
  rw [hsplit] at hgroup ⊢
  cases hfollow : followReceiver rest with
  | true => exact parameters?_receiver hmark hgroup hfollow
  | false => exact parameters?_unnamed hmark hgroup hfollow

/-- The result of a literal that goes on like a method holds the name and the parameters of one,
    unless it only looks like a method. -/
theorem exists_named {result : List Site} (hresult : IsResult stream (result.map Site.token))
    (hbrace : brace.isMark .lBrace = true)
    (hfollow : followReceiver (result ++ brace :: after) = true)
    (hmethod : ¬ LooksLikeMethod [] (result.map Site.token)) :
    ∃ n types params ss, result = n :: (types ++ (params ++ ss)) ∧ n.kind = .identifier ∧
      (types = [] ∨ IsGroup .square (types.map Site.token)) ∧
      IsGroup .round (params.map Site.token) ∧ IsResult stream (ss.map Site.token) := by
  obtain ⟨n, s, rs, rfl, hname, hopening⟩ := exists_of_followReceiver hbrace hfollow
  have hbehind : IsResult stream (s.token :: rs.map Site.token) := hresult.of_name hname
  rcases hopening with hround | hsquare
  · obtain ⟨g, ss, rfl, hgroup, hrest⟩ := exists_group (b := .round) hbehind hround
    exact ⟨n, [], s :: g, ss, by simp, hname, Or.inl rfl, hgroup, hrest⟩
  · obtain ⟨g, ss, rfl, htypes, hrest⟩ := exists_group (b := .square) hbehind hsquare
    have hparen : beginsWith ss .lParen = true := by
      by_contra hparen
      refine hmethod ⟨rfl, n.token, (s :: g).map Site.token, ss.map Site.token, by simp, hname,
        htypes, ?_⟩
      intro t ht hkind
      rw [List.head?_map] at ht
      obtain ⟨p, hp, rfl⟩ := Option.map_eq_some_iff.mp ht
      obtain ⟨ps, rfl⟩ := List.head?_eq_some_iff.mp hp
      exact hparen (beq_iff_eq.mpr hkind)
    obtain ⟨p, ss, rfl, hround⟩ := beginsWith_iff.mp hparen
    obtain ⟨g', ss, rfl, hgroup, hrest⟩ := exists_group (b := .round) hrest hround
    exact ⟨n, s :: g, p :: g', ss, by simp, hname, Or.inr htypes, hgroup, hrest⟩

/-- The parameters of a signature with a body are found, or those that come behind what looks like
    the name of a method. In both cases a result is left between them and the brace. -/
theorem exists_parameters {head params result : List Site}
    (hhead : head.map Site.token = [] ∨ IsHead (head.map Site.token))
    (hparams : IsGroup .round (params.map Site.token))
    (hresult : IsResult stream (result.map Site.token)) (hbrace : brace.isMark .lBrace = true)
    (hpaired : Paired (head ++ (params ++ (result ++ brace :: after))))
    (hmethod : ¬ LooksLikeMethod (head.map Site.token) (result.map Site.token)) :
    ∃ params' result', parameters? (head ++ (params ++ (result ++ brace :: after))) =
        .ok (some (params' ++ (result' ++ brace :: after))) ∧
      IsGroup .round (params'.map Site.token) ∧ IsResult stream (result'.map Site.token) ∧
      result' <:+ result := by
  rcases hhead with hhead | ⟨receiver, name, types, hhead, hreceiver, hname, htypes⟩
  · obtain rfl := List.map_eq_nil_iff.mp hhead
    rw [List.nil_append] at hpaired ⊢
    cases hfollow : followReceiver (result ++ brace :: after) with
    | false =>
      refine ⟨params, result, ?_, hparams, hresult, List.suffix_refl result⟩
      rw [parameters?_of_group hparams hpaired, hfollow]
      rfl
    | true =>
      obtain ⟨n, types, params', ss, rfl, hname, htypes, hparams', hrest⟩ :=
        exists_named hresult hbrace hfollow hmethod
      have hshape : n :: (types ++ (params' ++ ss)) ++ brace :: after =
          n :: (types ++ (params' ++ (ss ++ brace :: after))) := by simp
      rw [hshape] at hpaired ⊢
      refine ⟨params', ss, ?_, hparams', hrest, ⟨n :: (types ++ params'), by simp⟩⟩
      exact parameters?_of_declaration (Or.inr hparams) hname htypes hparams' hpaired
  · obtain ⟨sreceiver, s₁, rfl, rfl, h₁⟩ := List.map_eq_append_iff.mp hhead
    obtain ⟨sname, stypes, rfl, rfl, rfl⟩ := List.map_eq_cons_iff.mp h₁
    refine ⟨params, result, ?_, hparams, hresult, List.suffix_refl result⟩
    rw [List.append_assoc, List.cons_append] at hpaired ⊢
    exact parameters?_of_declaration (by simpa using hreceiver) hname (by simpa using htypes)
      hparams hpaired

/-- Type parameters without parameters behind them are no signature. -/
theorem namedParameters?_of_types {n : Site} {types rest : List Site}
    (htypes : IsGroup .square (types.map Site.token)) (hpaired : Paired (types ++ rest))
    (hrest : beginsWith rest .lParen = false) : namedParameters? (n :: (types ++ rest)) = none := by
  have hbracket : beginsWith (types ++ rest) .lBracket = true := beginsWith_of_group htypes
  rw [Option.eq_none_iff_forall_ne_some]
  intro found hfound
  obtain ⟨n', tail, heq, -, hbegin, htail⟩ := namedParameters?_eq_some_iff.mp hfound
  obtain ⟨-, rfl⟩ := List.cons.inj heq
  rcases htail with rfl | ⟨-, hgroup⟩
  · obtain ⟨s, ss, hsplit, hmark⟩ := beginsWith_iff.mp hbegin
    rw [hsplit] at hbracket
    have hother : beginsWith (s :: ss) .lBracket = false := isMark_of_isMark_ne hmark (by decide)
    rw [hother] at hbracket
    cases hbracket
  · rw [afterGroup?_of_group htypes hpaired] at hgroup
    rw [← Option.some.inj hgroup, hrest] at hbegin
    cases hbegin

/-- What looks like a method without parameters is no signature. -/
theorem parameters?_of_method {params result : List Site}
    (hparams : IsGroup .round (params.map Site.token)) (hbrace : brace.isMark .lBrace = true)
    (hpaired : Paired (params ++ (result ++ brace :: after)))
    (hmethod : LooksLikeMethod [] (result.map Site.token)) :
    parameters? (params ++ (result ++ brace :: after)) = .ok none := by
  obtain ⟨-, name, types, rest, hresult, hname, htypes, hrest⟩ := hmethod
  obtain ⟨n, rs, rfl, rfl, hrs⟩ := List.map_eq_cons_iff.mp hresult
  obtain ⟨ts, ss, rfl, rfl, rfl⟩ := List.map_eq_append_iff.mp hrs
  have hshape : n :: (ts ++ ss) ++ brace :: after = n :: (ts ++ (ss ++ brace :: after)) := by simp
  rw [hshape] at hpaired ⊢
  have hbehind : beginsWith (ss ++ brace :: after) .lParen = false := by
    cases ss with
    | nil => exact isMark_of_isMark_ne hbrace (by decide)
    | cons s ss =>
      apply Bool.eq_false_iff.mpr
      intro hmark
      exact hrest s.token rfl (kind_eq_of_isMark hmark)
  have hfollow : followReceiver (n :: (ts ++ (ss ++ brace :: after))) = true :=
    Bool.and_eq_true_iff.mpr ⟨beginsWithName_iff.mpr ⟨n, _, rfl, hname⟩,
      Bool.or_eq_true_iff.mpr (Or.inr (beginsWith_of_group htypes))⟩
  rw [parameters?_of_group hparams hpaired, hfollow, if_pos rfl,
    namedParameters?_of_types htypes hpaired.of_append.2 hbehind]

/-- A signature with a body has a defect if a line feed precedes the brace. -/
theorem defect?_of_body {head params result : List Site}
    (hhead : head.map Site.token = [] ∨ IsHead (head.map Site.token))
    (hparams : IsGroup .round (params.map Site.token))
    (hresult : IsResult stream (result.map Site.token)) (hbrace : brace.isMark .lBrace = true)
    (hpaired : Paired (head ++ (params ++ (result ++ brace :: after))))
    (hmethod : ¬ LooksLikeMethod (head.map Site.token) (result.map Site.token))
    (hline : ∀ s ∈ result, s.followsLineFeed = true → FollowsLineFeed stream s.token)
    (hfeed : brace.followsLineFeed = true) :
    defect? (head ++ (params ++ (result ++ brace :: after))) =
      some (.detachedBody brace.token) := by
  obtain ⟨params', result', hfound, hparams', hresult', hsuffix⟩ :=
    exists_parameters hhead hparams hresult hbrace hpaired hmethod
  have hpaired' := hpaired.of_suffix (parameters?_suffix hfound).1
  refine defect?_eq_some_iff.mpr (Or.inr (Or.inr ⟨_, _, brace, after, hfound,
    afterGroup?_of_group hparams' hpaired', ?_, hbrace, hfeed, rfl⟩))
  exact afterResult_of_result hresult' (fun s hs => hline s (hsuffix.subset hs)) hbrace
    hpaired'.of_append

end Sites

end Signature

section Stream

variable {stream head params result : List Token} {func brace : Token}

/-- The parts of a signature with a body are found among the sites. -/
theorem SignsBody.exists_sites (h : SignsBody stream func head params result brace) :
    ∃ f sh sp sr b after, f :: (sh ++ (sp ++ (sr ++ b :: after))) <:+ sites stream ∧
      f.token = func ∧ sh.map Site.token = head ∧ sp.map Site.token = params ∧
      sr.map Site.token = result ∧ b.token = brace := by
  obtain ⟨before, after, hvisible⟩ := h.visible
  rw [← map_token_sites] at hvisible
  obtain ⟨sbefore, s₁, hsplit, -, h₁⟩ := List.map_eq_append_iff.mp hvisible
  obtain ⟨f, s₂, rfl, rfl, h₂⟩ := List.map_eq_cons_iff.mp h₁
  obtain ⟨sh, s₃, rfl, rfl, h₃⟩ := List.map_eq_append_iff.mp h₂
  obtain ⟨sp, s₄, rfl, rfl, h₄⟩ := List.map_eq_append_iff.mp h₃
  obtain ⟨sr, s₅, rfl, rfl, h₅⟩ := List.map_eq_append_iff.mp h₄
  obtain ⟨b, safter, rfl, rfl, -⟩ := List.map_eq_cons_iff.mp h₅
  exact ⟨f, sh, sp, sr, b, safter, ⟨sbefore, hsplit.symm⟩, rfl, rfl, rfl, rfl, rfl⟩

theorem SignsBody.brace_mem (h : SignsBody stream func head params result brace) :
    brace ∈ stream := by
  obtain ⟨before, after, hvisible⟩ := h.visible
  have hmem : brace ∈ visibleTokens stream := by simp [hvisible]
  exact (List.mem_filter.mp hmem).1

theorem followsLineFeed_of_detaches (hnodup : stream.Nodup) (h : DetachesBody stream func brace) :
    FollowsLineFeed stream brace := by
  obtain ⟨f, rest, hsuffix, -, -, hd⟩ := h
  obtain ⟨s, hs, ⟨heq, -⟩ | ⟨heq, -, hfeed⟩⟩ := Signature.defect?_cases hd
  · cases heq
  · obtain rfl := Signature.Defect.detachedBody.inj heq
    exact (followsLineFeed_iff hnodup (hsuffix.subset (List.mem_cons_of_mem f hs))).mp hfeed

/-- Behind a line feed, the brace of a signature is detached from it. -/
theorem SignsBody.detaches (hnodup : stream.Nodup)
    (h : SignsBody stream func head params result brace)
    (hmethod : ¬ LooksLikeMethod head result) (hfeed : FollowsLineFeed stream brace) :
    DetachesBody stream func brace := by
  obtain ⟨f, sh, sp, sr, b, after, hsuffix, rfl, rfl, rfl, rfl, rfl⟩ := h.exists_sites
  have hmem : ∀ s ∈ sr ++ b :: after, s ∈ sites stream := fun s hs =>
    hsuffix.subset (List.mem_cons_of_mem f (List.mem_append_right sh (List.mem_append_right sp hs)))
  have hpaired := ((paired_sites stream).of_suffix hsuffix).2
  have hline : ∀ s ∈ sr, s.followsLineFeed = true → FollowsLineFeed stream s.token :=
    fun s hs => (followsLineFeed_iff hnodup (hmem s (List.mem_append_left _ hs))).mp
  have hb : b.followsLineFeed = true := (followsLineFeed_iff hnodup (hmem b (by simp))).mpr hfeed
  exact ⟨f, _, hsuffix, h.func, rfl, Signature.defect?_of_body h.head h.params h.result
    (beq_iff_eq.mpr h.brace) hpaired hmethod hline hb⟩

theorem SignsBody.not_detaches (hnodup : stream.Nodup)
    (h : SignsBody stream func head params result brace) (hmethod : LooksLikeMethod head result) :
    ¬ DetachesBody stream func brace := by
  obtain ⟨f, sh, sp, sr, b, after, hsuffix, rfl, rfl, rfl, rfl, rfl⟩ := h.exists_sites
  rintro ⟨f', rest, hsuffix', -, htoken, hd⟩
  obtain ⟨-, rfl⟩ := List.cons.inj
    (Signature.eq_of_token_eq (nodup_map_token_sites hnodup) hsuffix' hsuffix htoken)
  have hpaired := ((paired_sites stream).of_suffix hsuffix).2
  have hhead := hmethod.1
  obtain rfl := List.map_eq_nil_iff.mp hhead
  have hnone := Signature.parameters?_of_method h.params (beq_iff_eq.mpr h.brace) hpaired hmethod
  rw [List.nil_append, Signature.defect?, hnone] at hd
  cases hd

end Stream

/-- At the brace of a signature, the report says that the body is detached exactly if a line feed
    precedes the brace. For a literal that looks like a method it says so only for the sake of
    another `func`. -/
theorem convert_reports_detached (name : Option String) (source : String) {func brace : Token}
    {head params result : List Token}
    (h : SignsBody (tokens source) func head params result brace) :
    ∃ r : Conversion, convert .ignore name source = ⟨[], .ok r⟩ ∧
      (¬ LooksLikeMethod head result →
        ((∃ d ∈ r.diagnostics, d.span = brace.span ∧ d.message = Problem.detachedMessage) ↔
          FollowsLineFeed (tokens source) brace)) ∧
      (LooksLikeMethod head result →
        ((∃ d ∈ r.diagnostics, d.span = brace.span ∧ d.message = Problem.detachedMessage) ↔
          ∃ other, other ≠ func ∧ DetachesBody (tokens source) other brace)) := by
  have hnodup := nodup_tokens source
  refine ⟨Conversion.ofSource source, convert_ignore name source, ?_, ?_⟩
  · intro hmethod
    rw [reports_detached_iff h.brace_mem]
    constructor
    · rintro ⟨other, hother⟩
      exact followsLineFeed_of_detaches hnodup hother
    · intro hfeed
      exact ⟨func, h.detaches hnodup hmethod hfeed⟩
  · intro hmethod
    rw [reports_detached_iff h.brace_mem]
    constructor
    · rintro ⟨other, hother⟩
      refine ⟨other, ?_, hother⟩
      rintro rfl
      exact h.not_detaches hnodup hmethod hother
    · rintro ⟨other, -, hother⟩
      exact ⟨other, hother⟩

/-- The result of a literal is read as the name and the parameters of a method, and the body is
    found all the same. -/
theorem convert_reports_detached_literal :
    ∃ func params result brace, SignsBody (tokens "func() a(b)\n\x7b") func [] params result brace ∧
      ∃ r : Conversion, convert .ignore none "func() a(b)\n\x7b" = ⟨[], .ok r⟩ ∧
        ∃ d ∈ r.diagnostics, d.span = brace.span ∧ d.message = Problem.detachedMessage := by
  let name : Token := ⟨⟨.identifier, "a", none⟩, .visible, 4, ⟨7, 8⟩⟩
  let opener : Token := ⟨⟨.punctuation .lParen, "(", none⟩, .visible, 5, ⟨8, 9⟩⟩
  let inner : Token := ⟨⟨.identifier, "b", none⟩, .visible, 6, ⟨9, 10⟩⟩
  let closer : Token := ⟨⟨.punctuation .rParen, ")", none⟩, .visible, 7, ⟨10, 11⟩⟩
  let brace : Token := ⟨⟨.punctuation .lBrace, "\x7b", none⟩, .visible, 9, ⟨12, 13⟩⟩
  have hname : ¬ FollowsLineFeed (tokens "func() a(b)\n\x7b") name :=
    not_followsLineFeed (s := ⟨name, false, none⟩) (nodup_tokens _) (by decide) rfl
  have hopener : ¬ FollowsLineFeed (tokens "func() a(b)\n\x7b") opener :=
    not_followsLineFeed (s := ⟨opener, false, some 1⟩) (nodup_tokens _) (by decide) rfl
  have hsigns : SignsBody (tokens "func() a(b)\n\x7b")
      ⟨⟨.keyword .func, "func", none⟩, .visible, 0, ⟨0, 4⟩⟩ []
      [⟨⟨.punctuation .lParen, "(", none⟩, .visible, 1, ⟨4, 5⟩⟩,
        ⟨⟨.punctuation .rParen, ")", none⟩, .visible, 2, ⟨5, 6⟩⟩]
      (name :: opener :: ([inner, closer] ++ [])) brace := by
    refine ⟨⟨[], [_], rfl⟩, rfl, Or.inl rfl, ⟨_, [], _, rfl, rfl, .nil, rfl⟩, ?_, rfl⟩
    exact .word (by decide) hname
      (.group (Or.inl rfl) ⟨_, [inner], _, rfl, rfl, .nil, rfl⟩ hopener .nil)
  have hmethod : ¬ LooksLikeMethod [] (name :: opener :: ([inner, closer] ++ [])) := by
    rintro ⟨-, n, types, rest, hresult, -, ⟨bracket, _, _, rfl, hbracket, -⟩, -⟩
    obtain rfl : opener = bracket := (List.cons.inj (List.cons.inj hresult).2).1
    cases hbracket
  have hfeed : FollowsLineFeed (tokens "func() a(b)\n\x7b") brace :=
    ⟨(tokens "func() a(b)\n\x7b").take 8, _, [], _, rfl, rfl, rfl, by simp⟩
  obtain ⟨r, hr, hreport, -⟩ := convert_reports_detached none _ hsigns
  exact ⟨_, _, _, _, hsigns, r, hr, (hreport hmethod).mpr hfeed⟩

/-- A literal of which the result has type arguments is taken for a method, so that its body is not
    found to be detached. -/
theorem convert_misses_detached_literal :
    ¬ ∀ (source : String) (r : Conversion), convert .ignore none source = ⟨[], .ok r⟩ →
      faults (tokens source) = [] → Nested (brackets (visibleTokens (tokens source))) →
      ∀ func head params result brace, SignsBody (tokens source) func head params result brace →
        ((∃ d ∈ r.diagnostics, d.span = brace.span ∧ d.message = Problem.detachedMessage) ↔
          FollowsLineFeed (tokens source) brace) := by
  intro h
  let name : Token := ⟨⟨.identifier, "T", none⟩, .visible, 4, ⟨7, 8⟩⟩
  let opener : Token := ⟨⟨.punctuation .lBracket, "[", none⟩, .visible, 5, ⟨8, 9⟩⟩
  let inner : Token := ⟨⟨.identifier, "int", none⟩, .visible, 6, ⟨9, 12⟩⟩
  let closer : Token := ⟨⟨.punctuation .rBracket, "]", none⟩, .visible, 7, ⟨12, 13⟩⟩
  let brace : Token := ⟨⟨.punctuation .lBrace, "\x7b", none⟩, .visible, 9, ⟨14, 15⟩⟩
  have hname : ¬ FollowsLineFeed (tokens "func() T[int]\n\x7b\n\x7d") name :=
    not_followsLineFeed (s := ⟨name, false, none⟩) (nodup_tokens _) (by decide) rfl
  have hopener : ¬ FollowsLineFeed (tokens "func() T[int]\n\x7b\n\x7d") opener :=
    not_followsLineFeed (s := ⟨opener, false, some 1⟩) (nodup_tokens _) (by decide) rfl
  have hsigns : SignsBody (tokens "func() T[int]\n\x7b\n\x7d")
      ⟨⟨.keyword .func, "func", none⟩, .visible, 0, ⟨0, 4⟩⟩ []
      [⟨⟨.punctuation .lParen, "(", none⟩, .visible, 1, ⟨4, 5⟩⟩,
        ⟨⟨.punctuation .rParen, ")", none⟩, .visible, 2, ⟨5, 6⟩⟩]
      (name :: opener :: ([inner, closer] ++ [])) brace := by
    refine ⟨⟨[], [_, _], rfl⟩, rfl, Or.inl rfl, ⟨_, [], _, rfl, rfl, .nil, rfl⟩, ?_, rfl⟩
    exact .word (by decide) hname
      (.group (Or.inr rfl) ⟨_, [inner], _, rfl, rfl, .nil, rfl⟩ hopener .nil)
  have hword : brackets (visibleTokens (tokens "func() T[int]\n\x7b\n\x7d")) =
      [(.opening, .round), (.closing, .round), (.opening, .square), (.closing, .square),
        (.opening, .curly), (.closing, .curly)] := by decide
  have hnested : Nested (brackets (visibleTokens (tokens "func() T[int]\n\x7b\n\x7d"))) := by
    rw [hword]
    exact .group .nil (.group .nil (.group .nil .nil))
  have hfeed : FollowsLineFeed (tokens "func() T[int]\n\x7b\n\x7d") brace :=
    ⟨(tokens "func() T[int]\n\x7b\n\x7d").take 8, _, [], _, rfl, rfl, rfl, by simp⟩
  obtain ⟨d, hd, -⟩ := (h _ _ (convert_ignore none _) (by decide) hnested _ _ _ _ _ hsigns).mpr hfeed
  have hnone : (Conversion.ofSource "func() T[int]\n\x7b\n\x7d").diagnostics = [] := by decide
  rw [hnone] at hd
  cases hd

end Semicolons
