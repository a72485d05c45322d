import Mathlib.Data.List.Nodup
import Semicolons.Proofs.Site.Pairing

/-!
# The sites of a stream

The sites of a stream are collected from its places, and the groups they open are found in a
second pass. Read along the stream (`sitesFrom`), a site is a visible token with whether the layout
passed since the last one holds a line feed, and its group depends only on the sites behind it
(`sites_eq`, `paired_sites`). So every site can be found in the stream together with the layout in
front of it (`exists_gap_of_mem_sites`), and what it knows of a line feed is true of its token
(`followsLineFeed_iff`).
-/

namespace Semicolons

/-- The sites among tokens, where `feed` says whether a line feed lies in the layout that has been
    passed in front of them. -/
def sitesFrom (feed : Bool) : List Token → List Site
  | [] => []
  | t :: rest =>
    if t.isHidden then sitesFrom (t.hasLineFeed || feed) rest
    else
      let after := sitesFrom false rest
      ⟨t, feed, inside? t.kind (after.map Site.kind)⟩ :: after

section Equations

variable {t : Token} {rest : List Token}

theorem sitesFrom_hidden (h : t.isHidden = true) (feed : Bool) :
    sitesFrom feed (t :: rest) = sitesFrom (t.hasLineFeed || feed) rest := by
  simp [sitesFrom, h]

theorem sitesFrom_visible (h : t.isHidden = false) (feed : Bool) :
    sitesFrom feed (t :: rest) =
      ⟨t, feed, inside? t.kind ((sitesFrom false rest).map Site.kind)⟩ :: sitesFrom false rest := by
  simp [sitesFrom, h]

theorem visibleTokens_hidden (h : t.isHidden = true) :
    visibleTokens (t :: rest) = visibleTokens rest := by
  simp [visibleTokens, h]

theorem visibleTokens_visible (h : t.isHidden = false) :
    visibleTokens (t :: rest) = t :: visibleTokens rest := by
  simp [visibleTokens, h]

end Equations

theorem map_token_sitesFrom (feed : Bool) (stream : List Token) :
    (sitesFrom feed stream).map Site.token = visibleTokens stream := by
  induction stream generalizing feed with
  | nil => rfl
  | cons t rest ih =>
    by_cases ht : t.isHidden = true
    · rw [sitesFrom_hidden ht, visibleTokens_hidden ht, ih]
    · have ht : t.isHidden = false := by simpa using ht
      rw [sitesFrom_visible ht, visibleTokens_visible ht, List.map_cons, ih]

/-- The visible tokens among those ahead of a place, each with whether a line feed lies in the
    layout before it. -/
def markedPlaces (behind ahead : List Token) : List (Token × Bool) :=
  ((placesFrom behind ahead).filter fun p => p.token?.any fun t => !t.isHidden).filterMap
    fun p => p.token?.map (·, p.followsLineFeed)

theorem markedPlaces_hidden {t : Token} (h : t.isHidden = true) (behind rest : List Token) :
    markedPlaces behind (t :: rest) = markedPlaces (t :: behind) rest := by
  simp [markedPlaces, placesFrom, Place.token?, h]

theorem markedPlaces_visible {t : Token} (h : t.isHidden = false) (behind rest : List Token) :
    markedPlaces behind (t :: rest) =
      (t, (behind.takeWhile Token.isHidden).any (·.hasLineFeed)) ::
        markedPlaces (t :: behind) rest := by
  simp [markedPlaces, placesFrom, Place.token?, Place.followsLineFeed, Place.gap, h]

theorem map_fst_markedPlaces (behind ahead : List Token) :
    (markedPlaces behind ahead).map Prod.fst = visibleTokens ahead := by
  induction ahead generalizing behind with
  | nil => rfl
  | cons t rest ih =>
    by_cases ht : t.isHidden = true
    · rw [markedPlaces_hidden ht, visibleTokens_hidden ht, ih]
    · have ht : t.isHidden = false := by simpa using ht
      rw [markedPlaces_visible ht, visibleTokens_visible ht, List.map_cons, ih]

theorem zipWith_markedPlaces (behind ahead : List Token) :
    List.zipWith (fun (x : Token × Bool) inside => (⟨x.1, x.2, inside⟩ : Site))
        (markedPlaces behind ahead) (insides ((markedPlaces behind ahead).map (·.1.kind))) =
      sitesFrom ((behind.takeWhile Token.isHidden).any (·.hasLineFeed)) ahead := by
  induction ahead generalizing behind with
  | nil => rfl
  | cons t rest ih =>
    by_cases ht : t.isHidden = true
    · rw [markedPlaces_hidden ht, ih, sitesFrom_hidden ht, List.takeWhile_cons, if_pos ht,
        List.any_cons]
    · have ht : t.isHidden = false := by simpa using ht
      have hrest := ih (t :: behind)
      rw [List.takeWhile_cons, if_neg (by simp [ht]), List.any_nil] at hrest
      have hkinds : (markedPlaces (t :: behind) rest).map (·.1.kind) =
          (sitesFrom false rest).map Site.kind := by
        calc
          (markedPlaces (t :: behind) rest).map (·.1.kind)
            = ((markedPlaces (t :: behind) rest).map Prod.fst).map (·.kind) := by
              rw [List.map_map]
              rfl
          _ = ((sitesFrom false rest).map Site.token).map (·.kind) := by
              rw [map_fst_markedPlaces, map_token_sitesFrom]
          _ = (sitesFrom false rest).map Site.kind := by
              rw [List.map_map]
              rfl
      rw [markedPlaces_visible ht, List.map_cons, insides_cons, List.zipWith_cons_cons, hrest,
        hkinds, sitesFrom_visible ht]

/-- The sites of a stream, read along the stream. -/
theorem sites_eq (stream : List Token) : sites stream = sitesFrom false stream :=
  zipWith_markedPlaces [] stream

@[simp] theorem map_token_sites (stream : List Token) :
    (sites stream).map Site.token = visibleTokens stream := by
  rw [sites_eq, map_token_sitesFrom]

theorem token_mem_visibleTokens {stream : List Token} {s : Site} (h : s ∈ sites stream) :
    s.token ∈ visibleTokens stream := by
  rw [← map_token_sites]
  exact List.mem_map_of_mem h

/-- In a stream without repetitions, no token is met twice. -/
theorem nodup_map_token_sites {stream : List Token} (h : stream.Nodup) :
    ((sites stream).map Site.token).Nodup := by
  rw [map_token_sites]
  exact h.filter _

/-- Sites of which each knows its group by the sites behind it. -/
def Paired : List Site → Prop
  | [] => True
  | s :: rest => s.inside = inside? s.kind (rest.map Site.kind) ∧ Paired rest

theorem Paired.of_append {before after : List Site} (h : Paired (before ++ after)) :
    Paired after := by
  induction before with
  | nil => exact h
  | cons s before ih => exact ih h.2

theorem paired_sitesFrom (feed : Bool) (stream : List Token) : Paired (sitesFrom feed stream) := by
  induction stream generalizing feed with
  | nil => trivial
  | cons t rest ih =>
    by_cases ht : t.isHidden = true
    · rw [sitesFrom_hidden ht]
      exact ih _
    · rw [sitesFrom_visible (by simpa using ht)]
      exact ⟨rfl, ih false⟩

theorem paired_sites (stream : List Token) : Paired (sites stream) := by
  rw [sites_eq]
  exact paired_sitesFrom false stream

/-- The site behind layout knows whether the layout holds a line feed. -/
theorem sitesFrom_gap {gap after : List Token} {n : Token} (feed : Bool)
    (hgap : ∀ g ∈ gap, g.isHidden = true) (hn : n.isHidden = false) :
    sitesFrom feed (gap ++ n :: after) =
      ⟨n, gap.any (·.hasLineFeed) || feed, inside? n.kind ((sitesFrom false after).map Site.kind)⟩ ::
        sitesFrom false after := by
  induction gap generalizing feed with
  | nil => rw [List.nil_append, sitesFrom_visible hn, List.any_nil, Bool.false_or]
  | cons g gap ih =>
    obtain ⟨hg, hgap⟩ := List.forall_mem_cons.mp hgap
    rw [List.cons_append, sitesFrom_hidden hg, ih _ hgap, List.any_cons, ← Bool.or_assoc,
      Bool.or_comm g.hasLineFeed]

/-- Behind a visible token the sites begin anew. -/
theorem exists_sitesFrom_append {t : Token} (ht : t.isHidden = false) (feed : Bool)
    (before rest : List Token) :
    ∃ passed, sitesFrom feed (before ++ t :: rest) = passed ++ sitesFrom false rest := by
  induction before generalizing feed with
  | nil =>
    rw [List.nil_append, sitesFrom_visible ht]
    exact ⟨[_], rfl⟩
  | cons b before ih =>
    by_cases hb : b.isHidden = true
    · rw [List.cons_append, sitesFrom_hidden hb]
      exact ih _
    · obtain ⟨passed, hpassed⟩ := ih false
      rw [List.cons_append, sitesFrom_visible (by simpa using hb), hpassed]
      exact ⟨_ :: passed, rfl⟩

/-- Between visible tokens that come one behind the other, a stream holds only layout. -/
theorem exists_gap_of_visibleTokens {stream first second : List Token} {t n : Token}
    (h : visibleTokens stream = first ++ t :: n :: second) :
    ∃ before gap after, stream = before ++ t :: (gap ++ n :: after) ∧ t.isHidden = false ∧
      (∀ g ∈ gap, g.isHidden = true) ∧ n.isHidden = false := by
  obtain ⟨before, rest, rfl, -, hrest⟩ := List.filter_eq_append_iff.mp h
  obtain ⟨hidden, behind, rfl, -, ht, hbehind⟩ := List.filter_eq_cons_iff.mp hrest
  obtain ⟨gap, after, rfl, hgap, hn, -⟩ := List.filter_eq_cons_iff.mp hbehind
  refine ⟨before ++ hidden, gap, after, by simp, by simpa using ht, ?_, by simpa using hn⟩
  intro g hg
  simpa using hgap g hg

/-- In a stream without repetitions, the layout between two visible tokens settles whether the
    second one follows a line feed. -/
theorem followsLineFeed_of_gap {stream before gap after : List Token} {t : Token} {s : Site}
    (hnodup : stream.Nodup) (hs : s ∈ sites stream) (ht : t.isHidden = false)
    (hgap : ∀ g ∈ gap, g.isHidden = true) (hn : s.token.isHidden = false)
    (hsplit : stream = before ++ t :: (gap ++ s.token :: after)) :
    s.followsLineFeed = gap.any (·.hasLineFeed) := by
  obtain ⟨passed, hpassed⟩ := exists_sitesFrom_append ht false before (gap ++ s.token :: after)
  rw [← hsplit, ← sites_eq, sitesFrom_gap false hgap hn] at hpassed
  have hmem : (⟨s.token, gap.any (·.hasLineFeed) || false,
      inside? s.token.kind ((sitesFrom false after).map Site.kind)⟩ : Site) ∈ sites stream := by
    rw [hpassed]
    exact List.mem_append_right passed List.mem_cons_self
  rw [List.inj_on_of_nodup_map (nodup_map_token_sites hnodup) hs hmem rfl, Bool.or_false]

/-- Among tokens behind `feed`, a site stands behind layout that settles whether it follows a line
    feed, unless that layout reaches back to the beginning. -/
theorem exists_gap_of_mem_sitesFrom {feed : Bool} {stream : List Token} {s : Site}
    (hs : s ∈ sitesFrom feed stream) :
    ∃ before gap after, stream = before ++ (gap ++ s.token :: after) ∧
      (∀ g ∈ gap, g.isHidden = true) ∧
      s.followsLineFeed = (gap.any (·.hasLineFeed) || (feed && before.isEmpty)) := by
  induction stream generalizing feed with
  | nil => cases hs
  | cons t rest ih =>
    by_cases ht : t.isHidden = true
    · rw [sitesFrom_hidden ht] at hs
      obtain ⟨before, gap, after, rfl, hgap, hfeed⟩ := ih hs
      cases before with
      | nil =>
        refine ⟨[], t :: gap, after, rfl, List.forall_mem_cons.mpr ⟨ht, hgap⟩, ?_⟩
        rw [hfeed, List.any_cons]
        cases t.hasLineFeed <;> simp
      | cons b before =>
        refine ⟨t :: b :: before, gap, after, rfl, hgap, ?_⟩
        simpa using hfeed
    · rw [sitesFrom_visible (by simpa using ht)] at hs
      rcases List.mem_cons.mp hs with rfl | hs
      · exact ⟨[], [], rest, rfl, by simp, by simp⟩
      · obtain ⟨before, gap, after, rfl, hgap, hfeed⟩ := ih hs
        exact ⟨t :: before, gap, after, rfl, hgap, by simpa using hfeed⟩

/-- Every site of a stream stands behind layout, and follows a line feed if that holds one. -/
theorem exists_gap_of_mem_sites {stream : List Token} {s : Site} (hs : s ∈ sites stream) :
    ∃ before gap after, stream = before ++ (gap ++ s.token :: after) ∧
      (∀ g ∈ gap, g.isHidden = true) ∧ s.followsLineFeed = gap.any (·.hasLineFeed) := by
  rw [sites_eq] at hs
  obtain ⟨before, gap, after, hsplit, hgap, hfeed⟩ := exists_gap_of_mem_sitesFrom hs
  exact ⟨before, gap, after, hsplit, hgap, by simpa using hfeed⟩

/-- The layout directly in front of a token of a stream holds a line feed. -/
def FollowsLineFeed (stream : List Token) (t : Token) : Prop :=
  ∃ before g gap after, stream = before ++ g :: (gap ++ t :: after) ∧ g.isHidden = true ∧
    g.hasLineFeed = true ∧ ∀ x ∈ gap, x.isHidden = true

/-- A visible token behind layout is a site that knows of a line feed in there. -/
theorem exists_site_behind_gap {gap : List Token} {n : Token} (feed : Bool)
    (before after : List Token) (hgap : ∀ g ∈ gap, g.isHidden = true) (hn : n.isHidden = false)
    (hfeed : gap.any (·.hasLineFeed) = true) :
    ∃ s ∈ sitesFrom feed (before ++ (gap ++ n :: after)),
      s.token = n ∧ s.followsLineFeed = true := by
  induction before generalizing feed with
  | nil =>
    rw [List.nil_append, sitesFrom_gap feed hgap hn]
    exact ⟨_, List.mem_cons_self, rfl, Bool.or_eq_true_iff.mpr (Or.inl hfeed)⟩
  | cons b before ih =>
    by_cases hb : b.isHidden = true
    · rw [List.cons_append, sitesFrom_hidden hb]
      exact ih _
    · rw [List.cons_append, sitesFrom_visible (by simpa using hb)]
      obtain ⟨s, hs, htoken⟩ := ih false
      exact ⟨s, List.mem_cons_of_mem _ hs, htoken⟩

/-- In a stream without repetitions, a site knows whether its token follows a line feed. -/
theorem followsLineFeed_iff {stream : List Token} {s : Site} (hnodup : stream.Nodup)
    (hs : s ∈ sites stream) :
    s.followsLineFeed = true ↔ FollowsLineFeed stream s.token := by
  constructor
  · intro hfeed
    obtain ⟨before, gap, after, hsplit, hgap, hany⟩ := exists_gap_of_mem_sites hs
    rw [hfeed] at hany
    obtain ⟨g, hg, hline⟩ := List.any_eq_true.mp hany.symm
    obtain ⟨first, last, rfl⟩ := List.append_of_mem hg
    refine ⟨before ++ first, g, last, after, by simp [hsplit], hgap g hg, hline, ?_⟩
    exact fun x hx => hgap x (List.mem_append_right _ (List.mem_cons_of_mem _ hx))
  · rintro ⟨before, g, gap, after, hsplit, hg, hline, hgap⟩
    have hvisible : s.token.isHidden = false := by
      simpa using (List.mem_filter.mp (token_mem_visibleTokens hs)).2
    have hhidden : ∀ x ∈ g :: gap, x.isHidden = true := List.forall_mem_cons.mpr ⟨hg, hgap⟩
    obtain ⟨s', hs', htoken, hfeed⟩ :=
      exists_site_behind_gap false before after hhidden hvisible (by simp [hline])
    rw [List.cons_append, ← hsplit, ← sites_eq] at hs'
    rwa [List.inj_on_of_nodup_map (nodup_map_token_sites hnodup) hs' hs htoken] at hfeed

theorem not_followsLineFeed {stream : List Token} {s : Site} (hnodup : stream.Nodup)
    (hs : s ∈ sites stream) (hfeed : s.followsLineFeed = false) :
    ¬ FollowsLineFeed stream s.token := by
  rw [← followsLineFeed_iff hnodup hs, hfeed]
  exact Bool.false_ne_true

end Semicolons
