import Semicolons.Proofs.Insertion.Spacing
import Semicolons.Proofs.Problem.Outline
import Semicolons.Proofs.Site.Punctuated
import Semicolons.Proofs.Token.Tiling

/-!
# Conversion of a text with spacing around it

Spacing around a text is neutral: the text is converted as it is without the spacing, and the same
problems are reported, moved by the spacing in front of it (`convert_spacing`).
-/

namespace Semicolons

section Stream

variable {gap : List Token}

/-- Layout in front of a stream can only put a line feed in front of its first site. -/
theorem sitesFrom_layout_append (hgap : ∀ g ∈ gap, g.isHidden = true) (feed : Bool)
    (rest : List Token) : ∃ feed', sitesFrom feed (gap ++ rest) = sitesFrom feed' rest := by
  induction gap generalizing feed with
  | nil => exact ⟨feed, rfl⟩
  | cons g gap ih =>
    obtain ⟨hg, hgap⟩ := List.forall_mem_cons.mp hgap
    rw [List.cons_append, sitesFrom_hidden hg]
    exact ih hgap _

/-- No signature asks for a line feed in front of the first site of a stream. -/
theorem defects_sitesFrom (feed feed' : Bool) (stream : List Token) :
    Signature.defects (sitesFrom feed stream) = Signature.defects (sitesFrom feed' stream) := by
  induction stream generalizing feed feed' with
  | nil => rfl
  | cons t stream ih =>
    by_cases ht : t.isHidden = true
    · rw [sitesFrom_hidden ht, sitesFrom_hidden ht]
      exact ih _ _
    · have ht : t.isHidden = false := by simpa using ht
      rw [sitesFrom_visible ht, sitesFrom_visible ht]
      rfl

theorem defects_layout_append (hgap : ∀ g ∈ gap, g.isHidden = true) (rest : List Token) :
    Signature.defects (sites (gap ++ rest)) = Signature.defects (sitesFrom false rest) := by
  obtain ⟨feed, hfeed⟩ := sitesFrom_layout_append hgap false rest
  rw [sites_eq, hfeed, defects_sitesFrom feed false]

theorem visibleTokens_layout_append (hgap : ∀ g ∈ gap, g.isHidden = true) (rest : List Token) :
    visibleTokens (gap ++ rest) = visibleTokens rest := by
  have hnone : visibleTokens gap = [] := by simpa [visibleTokens] using hgap
  rw [visibleTokens, List.filter_append]
  exact congrArg (· ++ visibleTokens rest) hnone

theorem faults_append_of_none (hgap : ∀ g ∈ gap, g.fault = none) (rest : List Token) :
    faults (gap ++ rest) = faults rest := by
  have hnone : faults gap = [] := by simpa [faults] using hgap
  rw [faults, List.filterMap_append]
  exact congrArg (· ++ faults rest) hnone

end Stream

section Lexemes

variable {gap ls ls' : List Lexeme}

theorem isHidden_of_mem_spacing {index offset : Nat} (hgap : ∀ g ∈ gap, g.IsSpacing) {t : Token}
    (ht : t ∈ inPlace index offset gap) : t.isHidden = true ∧ t.fault = none := by
  have hmem : t.toLexeme ∈ gap := by
    rw [← map_toLexeme_inPlace index offset gap]
    exact List.mem_map_of_mem ht
  have hspacing := hgap _ hmem
  refine ⟨?_, hspacing.2⟩
  rw [Token.isHidden_eq (channel_of_mem_inPlace ht), hspacing.isLayout]

/-- Behind a gap, the end of the input has one outline wherever it stands. -/
theorem outline_sitesFrom_end (hgap : ∀ g ∈ gap, g.isLayout = true) (feed : Bool)
    (index offset n : Nat) :
    (sitesFrom feed (inPlace index offset (gap ++ [.endOfInput]))).map (Site.outline n) =
      [⟨⟨.endOfInput, .visible, 0, ⟨0, 0⟩⟩, false, none⟩] := by
  induction gap generalizing feed index offset with
  | nil =>
    cases feed <;> rfl
  | cons g gap ih =>
    obtain ⟨hg, hgap⟩ := List.forall_mem_cons.mp hgap
    rw [List.cons_append, sitesFrom_inPlace_layout hg]
    exact ih hgap _ _ _

theorem map_kind_of_outline {ss ss' : List Site} {n n' : Nat}
    (h : ss'.map (Site.outline n') = ss.map (Site.outline n)) :
    ss'.map Site.kind = ss.map Site.kind := by
  have hkind := congrArg (List.map Site.kind) h
  rwa [List.map_map, List.map_map] at hkind

/-- Two lexemes of one kind and with one fault have the same outline where they begin, if they have
    the same text or are faulty. -/
theorem outline_eq {x x' : Lexeme} (hkind : x'.kind = x.kind) (hfault : x'.fault = x.fault)
    (htext : x.fault.isSome = true ∨ x'.text = x.text) (index index' offset stop stop' n : Nat) :
    (⟨x', x'.kind.channel, index', ⟨offset + n, stop'⟩⟩ : Token).outline 0 =
      (⟨x, x.kind.channel, index, ⟨offset, stop⟩⟩ : Token).outline n := by
  obtain ⟨kind, text, fault⟩ := x
  obtain ⟨kind', text', fault'⟩ := x'
  obtain rfl : kind' = kind := hkind
  obtain rfl : fault' = fault := hfault
  rcases htext with hsome | rfl
  · have hsome : fault'.isSome = true := hsome
    simp [Token.outline, hsome]
  · rfl

/-- The outline of a visible lexeme in front of outlines that are the same. -/
theorem outline_sitesFrom_cons {x x' : Lexeme} {index index' offset n : Nat}
    (hx : x.isLayout = false) (hkind : x'.kind = x.kind) (hfault : x'.fault = x.fault)
    (htext : x.fault.isSome = true ∨ x'.text = x.text) (feed : Bool)
    (hrest : (sitesFrom false
        (inPlace (index' + 1) (offset + n + byteLength x'.chars) ls')).map (Site.outline 0) =
      (sitesFrom false
        (inPlace (index + 1) (offset + byteLength x.chars) ls)).map (Site.outline n)) :
    (sitesFrom feed (inPlace index' (offset + n) (x' :: ls'))).map (Site.outline 0) =
      (sitesFrom feed (inPlace index offset (x :: ls))).map (Site.outline n) := by
  have hx' : x'.isLayout = false := by rw [Lexeme.isLayout, hkind, ← Lexeme.isLayout, hx]
  rw [inPlace_cons, inPlace_cons, sitesFrom_visible ((Token.isHidden_eq rfl).trans hx'),
    sitesFrom_visible ((Token.isHidden_eq rfl).trans hx), map_kind_of_outline hrest,
    List.map_cons, List.map_cons, hrest]
  congr 1
  rw [Site.outline, Site.outline, outline_eq hkind hfault htext index index' offset
    (offset + byteLength x.chars)]
  simp only [Lexeme.isEnd, hkind]

/-- Spacing is not faulty, and neither is the end of the input. -/
theorem faults_spacing_end (hgap : ∀ g ∈ gap, g.IsSpacing) (index offset : Nat) :
    faults (inPlace index offset (gap ++ [.endOfInput])) = [] := by
  rw [inPlace_append, faults_append_of_none fun t ht => (isHidden_of_mem_spacing hgap ht).2]
  rfl

/-- A lexeme is reported by its fault. -/
theorem faults_inPlace_cons (x : Lexeme) (index offset : Nat) (ls : List Lexeme) :
    faults (inPlace index offset (x :: ls)) =
      (x.fault.map (.faulty
        ⟨x, x.kind.channel, index, ⟨offset, offset + byteLength x.chars⟩⟩)).toList ++
      faults (inPlace (index + 1) (offset + byteLength x.chars) ls) := by
  rw [inPlace_cons]
  cases hf : x.fault <;> simp [faults, hf]

theorem outline_faults_cons {x x' : Lexeme} {index index' offset n : Nat}
    (hkind : x'.kind = x.kind) (hfault : x'.fault = x.fault)
    (hrest : (faults
        (inPlace (index' + 1) (offset + n + byteLength x'.chars) ls')).map
          (Problem.map (Token.outline 0)) =
      (faults
        (inPlace (index + 1) (offset + byteLength x.chars) ls)).map
          (Problem.map (Token.outline n))) :
    (faults (inPlace index' (offset + n) (x' :: ls'))).map (Problem.map (Token.outline 0)) =
      (faults (inPlace index offset (x :: ls))).map (Problem.map (Token.outline n)) := by
  rw [faults_inPlace_cons, faults_inPlace_cons, List.map_append, List.map_append, hrest, hfault]
  cases hf : x.fault with
  | none => rfl
  | some fault =>
    have htext : x.fault.isSome = true ∨ x'.text = x.text := Or.inl (by rw [hf]; rfl)
    show [Problem.faulty (Token.outline 0 _) fault] ++ _ = [.faulty (Token.outline n _) fault] ++ _
    rw [outline_eq hkind hfault htext index]

namespace Trailed

theorem refl : ∀ ls : List Lexeme, Trailed ls ls
  | [] => .behind (by simp)
  | l :: ls => .cons (refl ls)

/-- Spacing behind a text, and bytes in front of it, leave the outlines of its sites. -/
theorem outline_sitesFrom (h : Trailed ls ls') (feed : Bool) (index index' offset n : Nat) :
    (sitesFrom feed (inPlace index' (offset + n) (ls' ++ [.endOfInput]))).map (Site.outline 0) =
      (sitesFrom feed (inPlace index offset (ls ++ [.endOfInput]))).map (Site.outline n) := by
  induction h generalizing feed index index' offset with
  | @behind spacing hspacing =>
    have hgap : ∀ g ∈ spacing, g.isLayout = true := fun g hg => (hspacing g hg).isLayout
    rw [outline_sitesFrom_end hgap]
    exact (outline_sitesFrom_end (by simp) feed index offset n).symm
  | @swallowed last last' spacing hopen hkind hfault hspacing =>
    have hgap : ∀ g ∈ spacing, g.isLayout = true := fun g hg => (hspacing g hg).isLayout
    by_cases hlast : last.isLayout = true
    · have hlast' : last'.isLayout = true := by rw [Lexeme.isLayout, hkind, ← Lexeme.isLayout, hlast]
      rw [outline_sitesFrom_end (List.forall_mem_cons.mpr ⟨hlast', hgap⟩)]
      exact (outline_sitesFrom_end (by simpa using hlast) feed index offset n).symm
    · rw [List.cons_append, List.cons_append]
      refine outline_sitesFrom_cons (by simpa using hlast) hkind hfault
        (Or.inl (hopen.resolve_left hlast)) feed ?_
      rw [outline_sitesFrom_end hgap]
      exact (outline_sitesFrom_end (by simp) false _ _ n).symm
  | @cons x ls ls' h ih =>
    have hmoved : offset + n + byteLength x.chars = offset + byteLength x.chars + n := by omega
    rw [List.cons_append, List.cons_append]
    by_cases hx : x.isLayout = true
    · rw [sitesFrom_inPlace_layout hx, sitesFrom_inPlace_layout hx, hmoved]
      exact ih _ _ _ _
    · refine outline_sitesFrom_cons (by simpa using hx) rfl rfl (Or.inr rfl) feed ?_
      rw [hmoved]
      exact ih _ _ _ _

/-- So do they leave the outlines of its faulty lexemes. -/
theorem outline_faults (h : Trailed ls ls') (index index' offset n : Nat) :
    (faults (inPlace index' (offset + n) (ls' ++ [.endOfInput]))).map
        (Problem.map (Token.outline 0)) =
      (faults (inPlace index offset (ls ++ [.endOfInput]))).map
        (Problem.map (Token.outline n)) := by
  induction h generalizing index index' offset with
  | @behind spacing hspacing =>
    rw [faults_spacing_end hspacing]
    rfl
  | @swallowed last last' spacing hopen hkind hfault hspacing =>
    rw [List.cons_append, List.cons_append]
    refine outline_faults_cons hkind hfault ?_
    rw [faults_spacing_end hspacing]
    rfl
  | @cons x ls ls' h ih =>
    have hmoved : offset + n + byteLength x.chars = offset + byteLength x.chars + n := by omega
    rw [List.cons_append, List.cons_append]
    refine outline_faults_cons rfl rfl ?_
    rw [hmoved]
    exact ih _ _ _

end Trailed

end Lexemes

section Source

variable {source source' : String} {gap gap' ls ls' : List Lexeme} {n : Nat}

/-- Where two texts fall into the same lexemes behind spacing, up to spacing at their ends, the same
    is reported of both. -/
theorem Trailed.reports (h : Trailed ls ls') (hls : lexemes source = gap ++ ls)
    (hls' : lexemes source' = gap' ++ ls') (hgap : ∀ g ∈ gap, g.IsSpacing)
    (hgap' : ∀ g ∈ gap', g.IsSpacing)
    (hn : byteLength (gap'.flatMap Lexeme.chars) = byteLength (gap.flatMap Lexeme.chars) + n) :
    ((Conversion.ofSource source').diagnostics.map fun d => (d.stage, d.message, d.span.start)) =
      (Conversion.ofSource source).diagnostics.map fun d =>
        (d.stage, d.message, d.span.start + n) := by
  have hhidden : ∀ t ∈ inPlace 0 0 gap, t.isHidden = true :=
    fun t ht => (isHidden_of_mem_spacing hgap ht).1
  have hhidden' : ∀ t ∈ inPlace 0 0 gap', t.isHidden = true :=
    fun t ht => (isHidden_of_mem_spacing hgap' ht).1
  have hstream : tokens source = inPlace 0 0 gap ++
      inPlace gap.length (byteLength (gap.flatMap Lexeme.chars)) (ls ++ [.endOfInput]) := by
    rw [tokens_eq_inPlace, hls, List.append_assoc, inPlace_append, Nat.zero_add, Nat.zero_add]
  have hstream' : tokens source' = inPlace 0 0 gap' ++
      inPlace gap'.length (byteLength (gap.flatMap Lexeme.chars) + n) (ls' ++ [.endOfInput]) := by
    rw [tokens_eq_inPlace, hls', List.append_assoc, inPlace_append, Nat.zero_add, Nat.zero_add, hn]
  have hsites := h.outline_sitesFrom false gap.length gap'.length
    (byteLength (gap.flatMap Lexeme.chars)) n
  apply reports_of_outline
  · rw [hstream, hstream', faults_append_of_none fun t ht => (isHidden_of_mem_spacing hgap ht).2,
      faults_append_of_none fun t ht => (isHidden_of_mem_spacing hgap' ht).2]
    exact h.outline_faults _ _ _ n
  · rw [hstream, hstream', defects_layout_append hhidden, defects_layout_append hhidden',
      map_defects_outline, map_defects_outline, hsites]
  · rw [hstream, hstream', visibleTokens_layout_append hhidden, visibleTokens_layout_append hhidden',
      ← map_token_sitesFrom false, ← map_token_sitesFrom false]
    have htokens := congrArg (List.map Site.token) hsites
    rw [List.map_map, List.map_map] at htokens
    rw [List.map_map, List.map_map]
    exact htokens

/-- Spacing in front of a text moves what is reported. -/
theorem reports_spacing_append (source : String) {u : String}
    (hu : ∀ c ∈ u.toList, isSpacing c = true) :
    ((Conversion.ofSource (u ++ source)).diagnostics.map fun d =>
        (d.stage, d.message, d.span.start)) =
      (Conversion.ofSource source).diagnostics.map fun d =>
        (d.stage, d.message, d.span.start + u.utf8ByteSize) := by
  obtain ⟨gap, gap', tail, hls, hls', hgap, hgap', hchars⟩ :=
    exists_lexemes_spacing_append source hu
  refine (Trailed.refl tail).reports hls hls' hgap hgap' ?_
  rw [hchars, byteLength_append, byteLength_toList, Nat.add_comm]

/-- Spacing behind a text changes nothing in what is reported. -/
theorem reports_append_spacing (source : String) {w : String}
    (hw : ∀ c ∈ w.toList, isSpacing c = true) :
    ((Conversion.ofSource (source ++ w)).diagnostics.map fun d =>
        (d.stage, d.message, d.span.start)) =
      (Conversion.ofSource source).diagnostics.map fun d =>
        (d.stage, d.message, d.span.start) := by
  obtain ⟨ls', hls', htrailed, -⟩ := exists_lexemes_append_spacing source hw
  have hnone : ∀ g ∈ ([] : List Lexeme), g.IsSpacing := by simp
  have hls : lexemes source = [] ++ lexemes source := rfl
  rw [← List.nil_append ls'] at hls'
  exact htrailed.reports (n := 0) hls hls' hnone hnone rfl

end Source

/-- Spacing around a text is neutral: it stands around the converted text, as many semicolons are
    inserted, and the same problems are reported in the same order, further on by the bytes in front
    of the text. -/
theorem convert_spacing (name : Option String) (source : String) {u w : String}
    (hu : ∀ c ∈ u.toList, isSpacing c = true) (hw : ∀ c ∈ w.toList, isSpacing c = true) :
    ∃ r r' : Conversion, convert .ignore name source = ⟨[], .ok r⟩ ∧
      convert .ignore name (u ++ source ++ w) = ⟨[], .ok r'⟩ ∧
      r'.output = u ++ r.output ++ w ∧ r'.inserted = r.inserted ∧
      (r'.diagnostics.map fun d => (d.stage, d.message, d.span.start)) =
        r.diagnostics.map fun d => (d.stage, d.message, d.span.start + u.utf8ByteSize) := by
  obtain ⟨houtput, hcount⟩ := withSemicolons_spacing_append (source ++ w) hu
  obtain ⟨houtput', hcount'⟩ := withSemicolons_append_spacing source hw
  refine ⟨Conversion.ofSource source, Conversion.ofSource (u ++ source ++ w),
    convert_ignore name source, convert_ignore name _, ?_, ?_, ?_⟩
  · rw [Conversion.output_ofSource, Conversion.output_ofSource, String.append_assoc, houtput,
      houtput', String.append_assoc]
  · rw [Conversion.inserted_ofSource, Conversion.inserted_ofSource, String.append_assoc, hcount,
      hcount']
  · have hbehind := congrArg
      (List.map fun x : Stage × String × Nat => (x.1, x.2.1, x.2.2 + u.utf8ByteSize))
      (reports_append_spacing source hw)
    rw [List.map_map, List.map_map] at hbehind
    rw [String.append_assoc, reports_spacing_append (source ++ w) hu]
    exact hbehind

theorem convert_spacing_open_rune :
    ∃ r r' : Conversion, convert .ignore none "func f()\n\x7b x\n)'\\" = ⟨[], .ok r⟩ ∧
      convert .ignore none ("\r\n\t" ++ "func f()\n\x7b x\n)'\\" ++ " \n") = ⟨[], .ok r'⟩ ∧
      r.output = "func f();\n\x7b x;\n)'\\" ∧ r'.output = "\r\n\tfunc f();\n\x7b x;\n)'\\ \n" ∧
      r'.inserted = 2 ∧
      (r'.diagnostics.map fun d => (d.stage, d.message, d.span.start)) =
        [(.syntactic, "unexpected newline before function body", 12),
          (.syntactic, "mismatched closing delimiter `)`", 16),
          (.lexical, "rune literal not terminated", 17)] := by
  have hu : "\r\n\t".toList.all isSpacing = true := by decide
  have hw : " \n".toList.all isSpacing = true := by decide
  obtain ⟨r, r', hr, hr', houtput, hinserted, hreports⟩ :=
    convert_spacing none "func f()\n\x7b x\n)'\\" (List.all_eq_true.mp hu)
      (List.all_eq_true.mp hw)
  obtain rfl : r = Conversion.ofSource "func f()\n\x7b x\n)'\\" := eq_ofSource_of_convert (by rw [hr])
  exact ⟨_, r', hr, hr', rfl, houtput, hinserted, hreports.trans (by decide)⟩

end Semicolons
