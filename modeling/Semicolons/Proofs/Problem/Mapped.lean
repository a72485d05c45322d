import Semicolons.Proofs.Nesting.Word
import Semicolons.Proofs.Problem.Report
import Semicolons.Proofs.Problem.Structural
import Semicolons.Proofs.Signature.Mapped

/-!
# Problems of other tokens

Where the tokens of a stream are replaced by others that are read in the same way, and the places
of the problems stay apart and in order, the problems are those of the first stream with their
tokens replaced (`problems_map`). More generally, two streams have the same problems if their tokens
can be replaced so that nothing that problems are found by tells them apart (`problems_alike`).
-/

namespace Semicolons

namespace Nesting

/-- A defect with its tokens replaced. -/
def Defect.map (f : Token → Token) : Defect → Defect
  | .mismatched closer opener => .mismatched (f closer) (f opener)
  | .unexpected closer => .unexpected (f closer)

/-- Of the replaced tokens, the same brackets are defective and the same groups are left open. -/
theorem read_map {f : Token → Token} (hf : ∀ t, (f t).kind = t.kind) (opened ts : List Token) :
    read (opened.map f) (ts.map f) =
      ((read opened ts).1.map (Defect.map f), (read opened ts).2.map f) := by
  induction ts generalizing opened with
  | nil => rfl
  | cons t ts ih =>
    have hkind : (f t).kind.bracket? = t.kind.bracket? := congrArg Kind.bracket? (hf t)
    rw [List.map_cons]
    cases ht : t.kind.bracket? with
    | none => rw [read_none ht, read_none (hkind.trans ht), ih]
    | some x =>
      obtain ⟨side, b⟩ := x
      cases side with
      | opening => rw [read_opening ht, read_opening (hkind.trans ht), ← List.map_cons, ih]
      | closing =>
        cases opened with
        | nil =>
          rw [List.map_nil, read_unexpected ht, read_unexpected (hkind.trans ht), ← List.map_nil,
            ih]
          rfl
        | cons opener outer =>
          have hopener : (f opener).isMark (.opening b) = opener.isMark (.opening b) := by
            rw [Token.isMark, Token.isMark, hf]
          rw [List.map_cons]
          cases hmark : opener.isMark (.opening b) with
          | true =>
            rw [read_answer (isMark_opening_iff.mp hmark) ht,
              read_answer (isMark_opening_iff.mp (hopener.trans hmark)) (hkind.trans ht), ih]
          | false =>
            rw [read_mismatched hmark ht,
              read_mismatched (hopener.trans hmark) (hkind.trans ht), ih]
            rfl

end Nesting

namespace Problem

/-- A problem with its tokens replaced. -/
def map (f : Token → Token) : Problem → Problem
  | .faulty t fault => .faulty (f t) fault
  | .signature defect => .signature (defect.map f)
  | .nesting defect => .nesting (defect.map f)
  | .unclosed opener => .unclosed (f opener)

variable {f : Token → Token}

@[simp] theorem token_map (f : Token → Token) (p : Problem) : (p.map f).token = f p.token := by
  cases p with
  | faulty t fault => rfl
  | signature defect => cases defect <;> rfl
  | nesting defect => cases defect <;> rfl
  | unclosed opener => rfl

/-- What is said about a problem does not change with its tokens, unless it is about a bracket and
    that is spelled differently. -/
theorem wording_map {f : Token → Token} {p : Problem}
    (h : (∃ t fault, p = .faulty t fault) ∨ (f p.token).text = p.token.text) :
    (p.map f).diagnostic.stage = p.diagnostic.stage ∧
      (p.map f).diagnostic.message = p.diagnostic.message := by
  rcases h with ⟨t, fault, rfl⟩ | htext
  · exact ⟨rfl, rfl⟩
  · cases p with
    | faulty t fault => exact ⟨rfl, rfl⟩
    | signature defect => cases defect <;> exact ⟨rfl, rfl⟩
    | nesting defect =>
      cases defect with
      | mismatched closer opener =>
        exact ⟨rfl, congrArg ("mismatched closing delimiter `" ++ · ++ "`") htext⟩
      | unexpected closer =>
        exact ⟨rfl, congrArg ("unexpected closing delimiter `" ++ · ++ "`") htext⟩
    | unclosed opener => exact ⟨rfl, congrArg ("unclosed delimiter `" ++ · ++ "`") htext⟩

theorem insertByPlace_map {p : Problem} {found : List Problem}
    (h : ∀ q ∈ found, (p.map f).span.start ≤ (q.map f).span.start ↔
      p.span.start ≤ q.span.start) :
    (p.map f).insertByPlace (found.map (Problem.map f)) =
      (p.insertByPlace found).map (Problem.map f) := by
  induction found with
  | nil => rfl
  | cons q rest ih =>
    obtain ⟨hq, hrest⟩ := List.forall_mem_cons.mp h
    rw [List.map_cons, insertByPlace, insertByPlace]
    by_cases hle : p.span.start ≤ q.span.start
    · rw [if_pos (hq.mpr hle), if_pos hle]
      rfl
    · rw [if_neg fun hmapped => hle (hq.mp hmapped), if_neg hle, ih hrest, List.map_cons]

/-- Where the places keep their order, so do the sorted problems. -/
theorem sortByPlace_map {found : List Problem}
    (h : ∀ p ∈ found, ∀ q ∈ found, (p.map f).span.start ≤ (q.map f).span.start ↔
      p.span.start ≤ q.span.start) :
    sortByPlace (found.map (Problem.map f)) = (sortByPlace found).map (Problem.map f) := by
  induction found with
  | nil => rfl
  | cons p rest ih =>
    obtain ⟨hp, hrest⟩ := List.forall_mem_cons.mp h
    have hsorted : ∀ q ∈ sortByPlace rest, (p.map f).span.start ≤ (q.map f).span.start ↔
        p.span.start ≤ q.span.start := by
      intro q hq
      exact hp q (List.mem_cons_of_mem p ((sortByPlace_perm rest).mem_iff.mp hq))
    have hih := ih fun q hq q' hq' => hrest q hq q' (List.mem_cons_of_mem p hq')
    show (p.map f).insertByPlace (sortByPlace (rest.map (Problem.map f))) = _
    rw [hih, insertByPlace_map hsorted]
    rfl

end Problem

/-- Problems that are reported, and behind them the groups that are left open and at whose brackets
    none of them is. -/
def withOpenGroups (reported : List Problem) (left : List Token) : List Problem :=
  reported ++
    (left.reverse.filter fun t => !(reported.map Problem.span).contains t.span).map .unclosed

/-- A change of tokens under which the problems of a stream stay apart and in order. -/
structure KeepsPlaces (f : Token → Token) (stream : List Token) : Prop where
  span : ∀ p ∈ foundProblems stream, ∀ t ∈ leftOpenGroups stream,
    (f p.token).span = (f t).span ↔ p.token.span = t.span
  start : ∀ p ∈ foundProblems stream, ∀ q ∈ foundProblems stream,
    (f p.token).span.start ≤ (f q.token).span.start ↔ p.span.start ≤ q.span.start

section Stream

variable {f f' : Token → Token} {stream stream' : List Token}

theorem faults_map (hfault : ∀ t, (f t).fault = t.fault) (stream : List Token) :
    faults (stream.map f) = (faults stream).map (Problem.map f) := by
  induction stream with
  | nil => rfl
  | cons t stream ih =>
    rw [List.map_cons]
    cases ht : t.fault <;> simp_all [faults, Problem.map]

/-- With all tokens replaced, the reported problems are the defects of signatures with their tokens
    replaced, and those of the brackets that stand there now. -/
theorem map_reportedProblems (hf : ∀ t, (f t).kind = t.kind) (stream : List Token) :
    (reportedProblems stream).map (Problem.map f) =
      ((Signature.defects (sites stream)).map (Signature.Defect.map f)).map .signature ++
        (Nesting.read [] ((visibleTokens stream).map f)).1.map .nesting := by
  have hread := Nesting.read_map hf [] (visibleTokens stream)
  rw [List.map_nil] at hread
  rw [reportedProblems, hread, List.map_append, List.map_map, List.map_map, List.map_map,
    List.map_map]
  rfl

theorem map_leftOpenGroups (hf : ∀ t, (f t).kind = t.kind) (stream : List Token) :
    (leftOpenGroups stream).map f = (Nesting.read [] ((visibleTokens stream).map f)).2 := by
  have hread := Nesting.read_map hf [] (visibleTokens stream)
  rw [List.map_nil] at hread
  rw [leftOpenGroups, hread]

/-- Where the problems stay apart, a group that is left open is passed over as before. -/
theorem map_structuralProblems (h : KeepsPlaces f stream) :
    (structuralProblems stream).map (Problem.map f) =
      withOpenGroups ((reportedProblems stream).map (Problem.map f))
        ((leftOpenGroups stream).map f) := by
  have hspans : ∀ t ∈ leftOpenGroups stream,
      (((reportedProblems stream).map (Problem.map f)).map Problem.span).contains (f t).span =
        ((reportedProblems stream).map Problem.span).contains t.span := by
    intro t ht
    rw [List.map_map, Bool.eq_iff_iff, List.contains_iff_mem, List.contains_iff_mem, List.mem_map,
      List.mem_map]
    apply exists_congr
    intro p
    apply and_congr_right
    intro hp
    have hfound : p ∈ foundProblems stream :=
      List.mem_append_right _ (mem_structuralProblems.mpr (Or.inl hp))
    show (p.map f).token.span = (f t).span ↔ p.token.span = t.span
    rw [Problem.token_map]
    exact h.span p hfound t ht
  have hleft : (((leftOpenGroups stream).map f).reverse.filter fun t =>
        !(((reportedProblems stream).map (Problem.map f)).map Problem.span).contains t.span) =
      ((leftOpenGroups stream).reverse.filter fun t =>
        !((reportedProblems stream).map Problem.span).contains t.span).map f := by
    rw [← List.map_reverse, List.filter_map]
    congr 1
    apply List.filter_congr
    intro t ht
    show (!_) = (!_)
    rw [hspans t (List.mem_reverse.mp ht)]
  rw [withOpenGroups, hleft, structuralProblems_eq, List.map_append, List.map_map, List.map_map]
  rfl

/-- Where the problems also stay in order, they are listed as before. -/
theorem map_problems (h : KeepsPlaces f stream) :
    (problems stream).map (Problem.map f) =
      Problem.sortByPlace ((faults stream).map (Problem.map f) ++
        withOpenGroups ((reportedProblems stream).map (Problem.map f))
          ((leftOpenGroups stream).map f)) := by
  have hfound : (foundProblems stream).map (Problem.map f) = (faults stream).map (Problem.map f) ++
      withOpenGroups ((reportedProblems stream).map (Problem.map f))
        ((leftOpenGroups stream).map f) := by
    rw [foundProblems, List.map_append, map_structuralProblems h]
  rw [← hfound]
  symm
  apply Problem.sortByPlace_map
  intro p hp q hq
  show (p.map f).token.span.start ≤ (q.map f).token.span.start ↔ _
  rw [Problem.token_map, Problem.token_map]
  exact h.start p hp q hq

/-- Two streams whose tokens can be replaced so that they have the same faults, the same defects of
    signatures and the same visible tokens, have the same problems with their tokens replaced. -/
theorem problems_alike (hf : ∀ t, (f t).kind = t.kind) (hf' : ∀ t, (f' t).kind = t.kind)
    (hfaults : (faults stream').map (Problem.map f') = (faults stream).map (Problem.map f))
    (hdefects : (Signature.defects (sites stream')).map (Signature.Defect.map f') =
      (Signature.defects (sites stream)).map (Signature.Defect.map f))
    (hvisible : (visibleTokens stream').map f' = (visibleTokens stream).map f)
    (h : KeepsPlaces f stream) (h' : KeepsPlaces f' stream') :
    (problems stream').map (Problem.map f') = (problems stream).map (Problem.map f) := by
  rw [map_problems h, map_problems h', map_reportedProblems hf, map_reportedProblems hf',
    map_leftOpenGroups hf, map_leftOpenGroups hf', hfaults, hdefects, hvisible]

/-- The problems of the replaced tokens are the problems with their tokens replaced. -/
theorem problems_map (hf : KeepsReading f) (hfault : ∀ t, (f t).fault = t.fault)
    (h : KeepsPlaces f stream) :
    problems (stream.map f) = (problems stream).map (Problem.map f) := by
  have hreported : reportedProblems (stream.map f) =
      (reportedProblems stream).map (Problem.map f) := by
    rw [map_reportedProblems hf.kind, reportedProblems, sites_map hf, visibleTokens_map hf,
      Signature.defects_map hf.keepsSignatures]
  have hleft : leftOpenGroups (stream.map f) = (leftOpenGroups stream).map f := by
    rw [map_leftOpenGroups hf.kind, leftOpenGroups, visibleTokens_map hf]
  rw [map_problems h, ← faults_map hfault, ← hreported, ← hleft]
  rfl

end Stream

end Semicolons
