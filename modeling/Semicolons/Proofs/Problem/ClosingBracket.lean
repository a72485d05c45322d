import Semicolons.Proofs.Nesting.Partner
import Semicolons.Proofs.Problem.DetachedBody

/-!
# Reports about closing brackets

What is reported about a closing bracket is settled by its partner, the nearest opening bracket in
front of it that no other one has answered. If it has none it is unexpected, and if its partner is of
another kind it does not match, in words that name the partner and its place; if its partner is of
its own kind nothing is said. Nothing of that sort is said anywhere else
(`convert_reports_closers`).
-/

namespace Semicolons

namespace Diagnostic

/-- Whether the message of a diagnostic begins with the given words. -/
def startsWith (d : Diagnostic) (words : String) : Bool :=
  words.toList.isPrefixOf d.message.toList

/-- Whether a diagnostic says of a closing bracket that it is unexpected or does not match. -/
def isAboutCloser (d : Diagnostic) : Bool :=
  d.startsWith "unexpected closing delimiter" || d.startsWith "mismatched closing delimiter"

end Diagnostic

/-- The diagnostics say of each closing bracket what its partner tells, in full, and of nothing else
    that it is an unexpected closing bracket or one that does not match. -/
structure ReportsClosers (ts : List Token) (partner : Nat → Option Nat)
    (found : List Diagnostic) : Prop where
  unexpected : ∀ (q : Nat) (t : Token) (b : Bracket), ts[q]? = some t →
    t.kind.bracket? = some (.closing, b) → partner q = none →
    found.filter (fun d => d.span == t.span && d.isAboutCloser) =
      [.syntactic ("unexpected closing delimiter `" ++ t.text ++ "`") t.span]
  mismatched : ∀ (q p : Nat) (t o : Token) (b b' : Bracket), ts[q]? = some t →
    t.kind.bracket? = some (.closing, b) → partner q = some p → ts[p]? = some o →
    o.kind.bracket? = some (.opening, b') → b' ≠ b →
    found.filter (fun d => d.span == t.span && d.isAboutCloser) =
      [(Diagnostic.syntactic ("mismatched closing delimiter `" ++ t.text ++ "`") t.span).withHint
        ("`" ++ o.text ++ "` opened at byte " ++ toString o.span.start ++ " is still open")]
  answered : ∀ (q p : Nat) (t o : Token) (b : Bracket), ts[q]? = some t →
    t.kind.bracket? = some (.closing, b) → partner q = some p → ts[p]? = some o →
    o.kind.bracket? = some (.opening, b) →
    found.filter (fun d => d.span == t.span && d.isAboutCloser) = []
  elsewhere : ∀ d ∈ found, d.isAboutCloser = true →
    ∃ (q : Nat) (t : Token) (b : Bracket), ts[q]? = some t ∧
      t.kind.bracket? = some (.closing, b) ∧ d.span = t.span

section Words

variable {d : Diagnostic} {words start : String}

theorem toList_prefix_append (start text : String) :
    start.toList <+: (start ++ text).toList := by
  rw [String.toList_append]
  exact List.prefix_append _ _

theorem startsWith_of_begins (hstart : start.toList <+: d.message.toList)
    (hwords : words.toList <+: start.toList) : d.startsWith words = true :=
  List.isPrefixOf_iff_prefix.mpr (hwords.trans hstart)

/-- A message that begins differently does not begin with the given words. -/
theorem startsWith_eq_false {n : Nat} (hstart : start.toList <+: d.message.toList)
    (hlength : n ≤ start.toList.length) (hwords : n ≤ words.toList.length)
    (hne : words.toList.take n ≠ start.toList.take n) : d.startsWith words = false := by
  apply Bool.eq_false_iff.mpr
  intro hbegins
  obtain ⟨tail, htail⟩ := List.isPrefixOf_iff_prefix.mp hbegins
  obtain ⟨text, htext⟩ := hstart
  have htake := congrArg (List.take n) (htail.trans htext.symm)
  rw [List.take_append_of_le_length hwords, List.take_append_of_le_length hlength] at htake
  exact hne htake

theorem isAboutCloser_eq_false (hstart : start.toList <+: d.message.toList)
    (hlength : 13 ≤ start.toList.length)
    (hunexpected : "unexpected closing delimiter".toList.take 13 ≠ start.toList.take 13)
    (hmismatched : "mismatched closing delimiter".toList.take 13 ≠ start.toList.take 13) :
    d.isAboutCloser = false := by
  rw [Diagnostic.isAboutCloser, startsWith_eq_false hstart hlength (by decide) hunexpected,
    startsWith_eq_false hstart hlength (by decide) hmismatched]
  rfl

theorem isAboutCloser_faulty (t : Token) (fault : Fault) :
    (Problem.faulty t fault).diagnostic.isAboutCloser = false := by
  have hmessage : fault.message.toList <+: (Problem.faulty t fault).diagnostic.message.toList :=
    List.prefix_rfl
  cases fault with
  | strayCharacter c =>
    have hstart := (toList_prefix_append "unexpected character " (Text.quotedChar c)).trans hmessage
    exact isAboutCloser_eq_false hstart (by decide) (by decide) (by decide)
  | _ => exact isAboutCloser_eq_false hmessage (by decide) (by decide) (by decide)

theorem isAboutCloser_signature (defect : Signature.Defect) :
    (Problem.signature defect).diagnostic.isAboutCloser = false := by
  cases defect with
  | unclosedParenthesis t =>
    have hstart : Diagnostic.unclosedParenthesisMessage.toList <+:
        (Problem.signature (.unclosedParenthesis t)).diagnostic.message.toList := List.prefix_rfl
    exact isAboutCloser_eq_false hstart (by decide) (by decide) (by decide)
  | detachedBody t =>
    have hstart : Problem.detachedMessage.toList <+:
        (Problem.signature (.detachedBody t)).diagnostic.message.toList := List.prefix_rfl
    exact isAboutCloser_eq_false hstart (by decide) (by decide) (by decide)

theorem isAboutCloser_unclosed (t : Token) :
    (Problem.unclosed t).diagnostic.isAboutCloser = false := by
  have hstart := toList_prefix_append "unclosed delimiter `" (t.text ++ "`")
  rw [← String.append_assoc] at hstart
  exact isAboutCloser_eq_false hstart (by decide) (by decide) (by decide)

theorem isAboutCloser_nesting (defect : Nesting.Defect) :
    (Problem.nesting defect).diagnostic.isAboutCloser = true := by
  apply Bool.or_eq_true_iff.mpr
  cases defect with
  | mismatched t o =>
    have hstart := toList_prefix_append "mismatched closing delimiter `" (t.text ++ "`")
    rw [← String.append_assoc] at hstart
    exact Or.inr (startsWith_of_begins hstart (by decide))
  | unexpected t =>
    have hstart := toList_prefix_append "unexpected closing delimiter `" (t.text ++ "`")
    rw [← String.append_assoc] at hstart
    exact Or.inl (startsWith_of_begins hstart (by decide))

/-- These words are kept for the defects of nesting. -/
theorem isAboutCloser_iff {p : Problem} :
    p.diagnostic.isAboutCloser = true ↔ ∃ d, p = .nesting d := by
  cases p with
  | faulty t fault => simp [isAboutCloser_faulty]
  | signature defect => simp [isAboutCloser_signature]
  | nesting defect => simp [isAboutCloser_nesting]
  | unclosed t => simp [isAboutCloser_unclosed]

end Words

section Source

variable {source : String} {ts : List Token} {t : Token} {d : Nesting.Defect}
  {q : Nat}

theorem nesting_mem_problems_iff {stream : List Token} :
    .nesting d ∈ problems stream ↔ ∃ q, Nesting.DefectAt (visibleTokens stream) q d := by
  have hfault : .nesting d ∉ faults stream := by
    intro h
    obtain ⟨t, -, f, -, heq⟩ := mem_faults.mp h
    cases heq
  rw [mem_problems, or_iff_right hfault, mem_structuralProblems, mem_reportedProblems,
    ← Nesting.mem_read_iff]
  constructor
  · rintro ((⟨d', -, heq⟩ | ⟨d', hd', heq⟩) | ⟨t, -, -, heq⟩) <;> cases heq
    exact hd'
  · exact fun hd => Or.inl (Or.inr ⟨d, hd, rfl⟩)

theorem getElem?_of_defectAt (h : Nesting.DefectAt ts q d) : ts[q]? = some d.closer := by
  cases h with
  | unexpected ht _ _ => exact ht
  | mismatched ht _ _ _ _ _ => exact ht

/-- What is said of brackets at the place of a token is what is wrong with that token. -/
theorem mem_filter_problems_iff {p : Problem} (ht : (visibleTokens (tokens source))[q]? = some t) :
    p ∈ (problems (tokens source)).filter
        (fun p => p.span == t.span && p.diagnostic.isAboutCloser) ↔
      ∃ d, Nesting.DefectAt (visibleTokens (tokens source)) q d ∧ p = .nesting d := by
  have hmem : t ∈ tokens source := (List.mem_filter.mp (List.mem_of_getElem? ht)).1
  have hnodup : (visibleTokens (tokens source)).Nodup := (nodup_tokens source).filter _
  rw [List.mem_filter, Bool.and_eq_true, beq_iff_eq, isAboutCloser_iff]
  constructor
  · rintro ⟨hp, hspan, d, rfl⟩
    obtain ⟨q', hd⟩ := nesting_mem_problems_iff.mp hp
    have htoken := token_eq_of_place hmem hp hspan
    rw [token_nesting] at htoken
    have ht' := getElem?_of_defectAt hd
    rw [htoken] at ht'
    -- No token stands at two positions.
    obtain ⟨hlt, -⟩ := List.getElem?_eq_some_iff.mp ht
    obtain rfl := (List.getElem?_inj hlt hnodup).mp (ht.trans ht'.symm)
    exact ⟨d, hd, rfl⟩
  · rintro ⟨d, hd, rfl⟩
    have hcloser := (getElem?_of_defectAt hd).symm.trans ht
    refine ⟨nesting_mem_problems_iff.mpr ⟨q, hd⟩, ?_, d, rfl⟩
    rw [Problem.span, token_nesting, Option.some.inj hcloser]

theorem filter_diagnostics_at (source : String) (t : Token) :
    (Conversion.ofSource source).diagnostics.filter
        (fun d => d.span == t.span && d.isAboutCloser) =
      ((problems (tokens source)).filter
        (fun p => p.span == t.span && p.diagnostic.isAboutCloser)).map Problem.diagnostic := by
  rw [Conversion.diagnostics_ofSource, List.filter_map]
  congr 2
  funext p
  rw [Function.comp_apply, Problem.span_diagnostic]

theorem filter_diagnostics_of_sound (ht : (visibleTokens (tokens source))[q]? = some t)
    (hsound : ∀ d, ¬ Nesting.DefectAt (visibleTokens (tokens source)) q d) :
    (Conversion.ofSource source).diagnostics.filter
      (fun d => d.span == t.span && d.isAboutCloser) = [] := by
  rw [filter_diagnostics_at, List.map_eq_nil_iff, List.eq_nil_iff_forall_not_mem]
  intro p hp
  obtain ⟨d, hd, -⟩ := (mem_filter_problems_iff ht).mp hp
  exact hsound d hd

/-- A defective bracket has one report. -/
theorem filter_diagnostics_of_defect (ht : (visibleTokens (tokens source))[q]? = some t)
    (hd : Nesting.DefectAt (visibleTokens (tokens source)) q d) :
    (Conversion.ofSource source).diagnostics.filter
      (fun d => d.span == t.span && d.isAboutCloser) = [(Problem.nesting d).diagnostic] := by
  obtain ⟨hplace, habout⟩ := Bool.and_eq_true_iff.mp
    (List.mem_filter.mp ((mem_filter_problems_iff ht).mpr ⟨d, hd, rfl⟩)).2
  have hmem : Problem.nesting d ∈ problems (tokens source) :=
    nesting_mem_problems_iff.mpr ⟨q, hd⟩
  have hfilter := filter_problems_eq_singleton hmem (by simp)
  rw [beq_iff_eq.mp hplace] at hfilter
  have hsplit : (problems (tokens source)).filter
        (fun p => p.span == t.span && p.diagnostic.isAboutCloser) =
      ((problems (tokens source)).filter (·.span == t.span)).filter
        (·.diagnostic.isAboutCloser) := by
    rw [List.filter_filter]
    exact List.filter_congr fun p _ => Bool.and_comm _ _
  have hkept : [Problem.nesting d].filter (·.diagnostic.isAboutCloser) = [.nesting d] :=
    List.filter_cons_of_pos habout
  rw [filter_diagnostics_at, hsplit, hfilter, hkept, List.map_singleton]

/-- Such reports are about closing brackets only. -/
theorem exists_closer_of_report {report : Diagnostic}
    (hmem : report ∈ (Conversion.ofSource source).diagnostics)
    (habout : report.isAboutCloser = true) :
    ∃ (q : Nat) (t : Token) (b : Bracket), (visibleTokens (tokens source))[q]? = some t ∧
      t.kind.bracket? = some (.closing, b) ∧ report.span = t.span := by
  obtain ⟨p, hp, rfl⟩ := List.mem_map.mp hmem
  obtain ⟨d, rfl⟩ := isAboutCloser_iff.mp habout
  obtain ⟨q, hd⟩ := nesting_mem_problems_iff.mp hp
  have hspan : (Problem.nesting d).diagnostic.span = d.closer.span := by
    rw [Problem.span_diagnostic, Problem.span, token_nesting]
  cases hd with
  | unexpected ht hb _ => exact ⟨q, _, _, ht, hb, hspan⟩
  | mismatched ht hb _ _ _ _ => exact ⟨q, _, _, ht, hb, hspan⟩

/-- The reports about closing brackets are what their partners tell. -/
theorem reportsClosers_partner? (source : String) :
    ReportsClosers (visibleTokens (tokens source)) (partner? (visibleTokens (tokens source)))
      (Conversion.ofSource source).diagnostics where
  unexpected q t b ht hb hp :=
    filter_diagnostics_of_defect ht (.unexpected ht hb hp)
  mismatched q p t o b b' ht hb hp ho hb' hne :=
    filter_diagnostics_of_defect ht (.mismatched ht hb hp ho hb' hne)
  answered q p t o b ht hb hp ho hb' := by
    apply filter_diagnostics_of_sound ht
    intro d hd
    exact ((Nesting.defectAt_iff_of_paired ht hb hp ho hb').mp hd).1 rfl
  elsewhere d hd habout := exists_closer_of_report hd habout

end Source

/-- There is one way to pair the brackets of a text whatever their kind, each closing one with the
    nearest opening one in front of it that is not paired yet. A closing bracket that is not paired
    is reported once as unexpected, one that is paired with a bracket of another kind once as
    mismatched, with a hint at that bracket, and no other report is of that sort. -/
theorem convert_reports_closers (name : Option String) (source : String) :
    ∃ (r : Conversion) (partner : Nat → Option Nat), convert .ignore name source = ⟨[], .ok r⟩ ∧
      PairsNearest (visibleTokens (tokens source)) partner ∧
      (∀ partner', PairsNearest (visibleTokens (tokens source)) partner' → partner' = partner) ∧
      ReportsClosers (visibleTokens (tokens source)) partner r.diagnostics :=
  ⟨_, _, convert_ignore name source, pairsNearest_partner? _, fun _ h => h.eq_partner?,
    reportsClosers_partner? source⟩

end Semicolons
