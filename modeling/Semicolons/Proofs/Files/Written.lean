import Mathlib.Data.List.Basic
import Semicolons.Files

/-!
# Files that are written

Writing a file touches one location: what stands at any other is as before
(`Files.node?_put_of_ne`). Since a file never takes the place of a directory, paths that led
somewhere lead there still (`Files.locate_put`), so that what has been written is read back
(`Files.read_of_write`), and writing it once more changes nothing (`Files.put_put`).
-/

namespace Semicolons

namespace Files

variable {files after : Files} {location other here there : Location} {content : ByteArray}
  {names : List String} {path : String} {slash : Bool}

theorem lookup_filter_of_ne (h : other ≠ location) (contents : List (Location × ByteArray)) :
    (contents.filter (·.1 != location)).lookup other = contents.lookup other := by
  induction contents with
  | nil => rfl
  | cons entry contents ih =>
    obtain ⟨l, c⟩ := entry
    by_cases hl : l = location
    · have hother : (other == location) = false := by simp [h]
      simp [hl, ih, List.lookup_cons, hother]
    · by_cases hother : other = l
      · simp [hl, hother]
      · have hne : (other == l) = false := by simp [hother]
        simp [hl, ih, List.lookup_cons, hne]

/-- What stands at another location does not change. -/
theorem node?_put_of_ne (h : other ≠ location) :
    (files.put location content).node? other = files.node? other := by
  have hne : (other == location) = false := by simp [h]
  simp only [node?, put, List.lookup_cons, hne, lookup_filter_of_ne h]

/-- A file stands where it is put, unless there is a directory. -/
theorem node?_put_self (h : files.node? location ≠ some .directory) :
    (files.put location content).node? location = some (.file content) := by
  have hplace : (location.isEmpty || files.directories.contains location) = false := by
    by_contra hdirectory
    apply h
    rw [node?, if_pos (by simpa only [Bool.not_eq_false] using hdirectory)]
  simp only [node?, put, hplace, List.lookup_cons, beq_self_eq_true]
  rfl

@[simp] theorem current_put (files : Files) (location : Location) (content : ByteArray) :
    (files.put location content).current = files.current :=
  rfl

/-- Putting the same file a second time changes nothing. -/
theorem put_put (files : Files) (location : Location) (content : ByteArray) :
    (files.put location content).put location content = files.put location content := by
  simp [put, List.filter_filter]

/-- Directories are followed as before. -/
theorem walk_put (content : ByteArray) (hnode : files.node? location ≠ some .directory)
    (h : files.walk here names = .ok there) :
    (files.put location content).walk here names = .ok there := by
  induction names generalizing here with
  | nil => exact h
  | cons name names ih =>
    unfold walk at h ⊢
    by_cases hdot : name = "."
    · rw [if_pos hdot] at h ⊢
      exact ih h
    · rw [if_neg hdot] at h ⊢
      by_cases hup : name = ".."
      · rw [if_pos hup] at h ⊢
        exact ih h
      · rw [if_neg hup] at h ⊢
        cases hstep : files.node? (name :: here) with
        | none =>
          rw [hstep] at h
          cases h
        | some node =>
          cases node with
          | file content =>
            rw [hstep] at h
            cases h
          | directory =>
            have hne : name :: here ≠ location := by
              rintro rfl
              exact hnode hstep
            rw [hstep] at h
            rw [node?_put_of_ne hne, hstep]
            exact ih h

/-- A path that led somewhere leads there still. -/
theorem locate_put {destination : Destination} (hnode : files.node? location ≠ some .directory)
    (h : files.locate path = .ok destination) :
    (files.put location content).locate path = .ok destination := by
  unfold locate at h ⊢
  by_cases hempty : path.isEmpty = true
  · rw [if_pos hempty] at h
    cases h
  · rw [if_neg hempty] at h ⊢
    split at h
    · next hlast => simpa only [hlast] using h
    · next last hlast =>
      split at h
      · cases h
      · next here hwalk =>
        have hwalk' := walk_put content hnode hwalk
        rw [current_put, hwalk']
        exact h

section Write

/-- What a path that can be written leads to, and what is there afterwards. -/
theorem write_eq_ok_iff : files.write path content = .ok after ↔
    ∃ location, files.locate path = .ok (.entry location false) ∧
      files.node? location ≠ some .directory ∧ after = files.put location content := by
  unfold write
  cases hlocate : files.locate path with
  | error error => simp
  | ok destination =>
    cases destination with
    | directory => simp
    | entry location slash =>
      cases hnode : files.node? location with
      | none => cases slash <;> simp [hnode, eq_comm]
      | some node => cases node <;> cases slash <;> simp [hnode, eq_comm]

/-- A path leads to a file that was put where it leads. -/
theorem read_put (hnode : files.node? location ≠ some .directory)
    (h : files.locate path = .ok (.entry location false)) :
    (files.put location content).read path = .ok content := by
  simp [read, locate_put hnode h, node?_put_self hnode]

end Write

end Files

end Semicolons
