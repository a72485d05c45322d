import Semicolons.Proofs.Conversion
import Semicolons.Proofs.Transfer.Reading
import Semicolons.World

/-!
# Outcomes of a conversion of files

A conversion of files goes through three stages, each of which can put an end to it: the source
text is read, it is converted, and the converted text is written (`convertFile_cases`).
-/

namespace Semicolons

section Source

variable {name source : String} {found : Except SystemError ByteArray}

/-- What an input holds is a source text if it spells one that is not too large. -/
theorem sourceOfInput_eq_ok_iff : sourceOfInput name found = .ok source ↔
    found = .ok source.toUTF8 ∧ source.toUTF8.size ≤ sizeLimit := by
  cases found with
  | error error => simp [sourceOfInput]
  | ok bytes =>
    have hwhole : Reader.Advances ⟨bytes, 0, none⟩ := by simp [Reader.Advances]
    rw [sourceOfInput, Reader.source_eq_ok_iff hwhole]
    constructor
    · rintro ⟨rfl, hsize⟩
      exact ⟨rfl, hsize⟩
    · rintro ⟨hbytes, hsize⟩
      obtain rfl := Except.ok.inj hbytes
      exact ⟨rfl, hsize⟩

end Source

section Outcome

variable {policy : Policy} {input output : Option String} {w after : World} {source : String}
  {failure : Failure} {error : SystemError} {r : Conversion}

theorem convertFile_unread
    (h : sourceOfInput (input.getD stdinName) (w.read input) = .error failure) :
    convertFile policy input output w = ⟨w, [], .error failure⟩ := by
  simp only [convertFile, h]

theorem convertFile_failed
    (h : sourceOfInput (input.getD stdinName) (w.read input) = .ok source)
    (hresult : (convert policy input source).result = .error failure) :
    convertFile policy input output w =
      ⟨w, (convert policy input source).log, .error failure⟩ := by
  simp only [convertFile, h, hresult]

theorem convertFile_unwritten
    (h : sourceOfInput (input.getD stdinName) (w.read input) = .ok source)
    (hresult : (convert policy input source).result = .ok r)
    (hwrite : w.write output r.output = .error error) :
    convertFile policy input output w =
      ⟨w, (convert policy input source).log, .error (.system error)⟩ := by
  simp only [convertFile, h, hresult, hwrite]

theorem convertFile_written
    (h : sourceOfInput (input.getD stdinName) (w.read input) = .ok source)
    (hresult : (convert policy input source).result = .ok r)
    (hwrite : w.write output r.output = .ok after) :
    convertFile policy input output w =
      ⟨after, (convert policy input source).log, .ok r⟩ := by
  simp only [convertFile, h, hresult, hwrite]

/-- The ways in which a conversion of files can end. -/
theorem convertFile_cases (policy : Policy) (input output : Option String) (w : World) :
    (∃ failure, sourceOfInput (input.getD stdinName) (w.read input) = .error failure ∧
        convertFile policy input output w = ⟨w, [], .error failure⟩) ∨
      (∃ source failure, sourceOfInput (input.getD stdinName) (w.read input) = .ok source ∧
        (convert policy input source).result = .error failure ∧
        convertFile policy input output w =
          ⟨w, (convert policy input source).log, .error failure⟩) ∨
      (∃ source r error, sourceOfInput (input.getD stdinName) (w.read input) = .ok source ∧
        (convert policy input source).result = .ok r ∧ w.write output r.output = .error error ∧
        convertFile policy input output w =
          ⟨w, (convert policy input source).log, .error (.system error)⟩) ∨
      (∃ source r after, sourceOfInput (input.getD stdinName) (w.read input) = .ok source ∧
        (convert policy input source).result = .ok r ∧ w.write output r.output = .ok after ∧
        convertFile policy input output w =
          ⟨after, (convert policy input source).log, .ok r⟩) := by
  cases hread : sourceOfInput (input.getD stdinName) (w.read input) with
  | error failure => exact Or.inl ⟨failure, rfl, convertFile_unread hread⟩
  | ok source =>
    cases hresult : (convert policy input source).result with
    | error failure =>
      exact Or.inr (Or.inl ⟨source, failure, rfl, hresult, convertFile_failed hread hresult⟩)
    | ok r =>
      cases hwrite : w.write output r.output with
      | error error =>
        exact Or.inr (Or.inr (Or.inl ⟨source, r, error, rfl, hresult, hwrite,
          convertFile_unwritten hread hresult hwrite⟩))
      | ok after =>
        exact Or.inr (Or.inr (Or.inr ⟨source, r, after, rfl, hresult, hwrite,
          convertFile_written hread hresult hwrite⟩))

/-- A conversion of files that fails leaves everything as it was. -/
theorem world_of_failure (h : (convertFile policy input output w).result = .error failure) :
    (convertFile policy input output w).world = w := by
  rcases convertFile_cases policy input output w with ⟨_, -, heq⟩ | ⟨_, _, -, -, heq⟩ |
    ⟨_, _, _, -, -, -, heq⟩ | ⟨_, _, _, -, -, -, heq⟩
  · rw [heq]
  · rw [heq]
  · rw [heq]
  · rw [heq] at h
    cases h

/-- What a conversion of files that succeeds has read and written. -/
theorem written_of_success (h : (convertFile policy input output w).result = .ok r) :
    ∃ source, w.read input = .ok source.toUTF8 ∧ r = Conversion.ofSource source ∧
      w.write output r.output = .ok (convertFile policy input output w).world := by
  rcases convertFile_cases policy input output w with ⟨_, -, heq⟩ | ⟨_, _, -, -, heq⟩ |
    ⟨_, _, _, -, -, -, heq⟩ | ⟨source, r', after, hread, hresult, hwrite, heq⟩
  · rw [heq] at h
    cases h
  · rw [heq] at h
    cases h
  · rw [heq] at h
    cases h
  · rw [heq] at h
    obtain rfl : r' = r := Except.ok.inj h
    rw [heq]
    exact ⟨source, (sourceOfInput_eq_ok_iff.mp hread).1, eq_ofSource_of_convert hresult, hwrite⟩

end Outcome

end Semicolons
