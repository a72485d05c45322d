import Semicolons.Proofs.Files.Written
import Semicolons.Proofs.Insertion.Confluence
import Semicolons.Proofs.World.Outcome

/-!
# What a conversion of files touches

A conversion of files that fails leaves no trace, and one that succeeds changes nothing but what
its output holds (`convertFile_touches_output`). A file that is converted in its place stays as it
is when it is converted once more, since a converted text is not changed by its conversion
(`withSemicolons_withSemicolons`).
-/

namespace Semicolons

/-- From one world to another an output has been given a text, and nothing else has changed: a
    file holds that text and no other, and all other places of the tree are as before; the
    standard output has been given the text behind what it had before. -/
def World.Receives (output : Option String) (text : String) (before after : World) : Prop :=
  match output with
  | none => after = { before with stdout := before.stdout ++ text.toUTF8 }
  | some path =>
    ∃ location, before.files.locate path = .ok (.entry location false) ∧
      after.files.locate path = .ok (.entry location false) ∧
      after.files.node? location = some (.file text.toUTF8) ∧
      (∀ other, other ≠ location → after.files.node? other = before.files.node? other) ∧
      after.files.directories = before.files.directories ∧
      after.files.current = before.files.current ∧
      after.stdin = before.stdin ∧ after.stdout = before.stdout

theorem withSemicolons_withSemicolons (source : String) :
    withSemicolons (tokens (withSemicolons (tokens source))) = withSemicolons (tokens source) := by
  rw [withSemicolons_eq_insertSemicolons source,
    withSemicolons_insertSemicolons (Finset.Subset.refl _), withSemicolons_eq_insertSemicolons]

section Write

variable {output : Option String} {path text : String} {before after : World}

theorem write_some (before : World) (path text : String) :
    before.write (some path) text =
      (before.files.write path text.toUTF8).map fun files => { before with files := files } :=
  rfl

theorem write_some_eq_ok_iff : before.write (some path) text = .ok after ↔
    ∃ location, before.files.locate path = .ok (.entry location false) ∧
      before.files.node? location ≠ some .directory ∧
      after = { before with files := before.files.put location text.toUTF8 } := by
  rw [write_some]
  constructor
  · intro h
    cases hwrite : before.files.write path text.toUTF8 with
    | error error =>
      rw [hwrite] at h
      cases h
    | ok files =>
      obtain ⟨location, hlocate, hnode, rfl⟩ := Files.write_eq_ok_iff.mp hwrite
      rw [hwrite] at h
      exact ⟨location, hlocate, hnode, (Except.ok.inj h).symm⟩
  · rintro ⟨location, hlocate, hnode, rfl⟩
    rw [Files.write_eq_ok_iff.mpr ⟨location, hlocate, hnode, rfl⟩]
    rfl

/-- An output that can be written receives the text. -/
theorem receives_of_write (h : before.write output text = .ok after) :
    World.Receives output text before after := by
  cases output with
  | none => exact (Except.ok.inj h).symm
  | some path =>
    obtain ⟨location, hlocate, hnode, rfl⟩ := write_some_eq_ok_iff.mp h
    exact ⟨location, hlocate, Files.locate_put hnode hlocate, Files.node?_put_self hnode,
      fun other hother => Files.node?_put_of_ne hother, rfl, rfl, rfl, rfl⟩

/-- A text that is written is read back on every path that leads to the same place, and writing it
    once more changes nothing. -/
theorem read_write_of_write {path' : String} (h : before.write (some path) text = .ok after)
    (hsame : before.files.locate path' = before.files.locate path) :
    after.read (some path') = .ok text.toUTF8 ∧ after.write (some path) text = .ok after := by
  obtain ⟨location, hlocate, hnode, rfl⟩ := write_some_eq_ok_iff.mp h
  refine ⟨Files.read_put hnode (hsame.trans hlocate), write_some_eq_ok_iff.mpr ?_⟩
  refine ⟨location, Files.locate_put hnode hlocate, ?_, ?_⟩
  · rw [Files.node?_put_self hnode]
    simp
  · rw [Files.put_put]

end Write

/-- A conversion of files that fails changes nothing. One that succeeds gives the converted text to
    its output and changes nothing else; and if the input is the output, whatever the paths by
    which they are named, then no further conversion that succeeds changes anything at all. -/
theorem convertFile_touches_output (policy : Policy) (input output : Option String) (w : World) :
    let run := convertFile policy input output w
    (∀ failure, run.result = .error failure → run.world = w) ∧
      ∀ r, run.result = .ok r → World.Receives output r.output w run.world ∧
        ∀ path path', input = some path → output = some path' →
          w.files.locate path = w.files.locate path' → ∀ policy' r',
            (convertFile policy' input output run.world).result = .ok r' →
              r'.output = r.output ∧
                (convertFile policy' input output run.world).world = run.world := by
  refine ⟨fun failure => world_of_failure, ?_⟩
  intro r hr
  obtain ⟨source, -, rfl, hwrite⟩ := written_of_success hr
  refine ⟨receives_of_write hwrite, ?_⟩
  rintro path path' rfl rfl hsame policy' r' hr'
  obtain ⟨source', hread, rfl, hwrite'⟩ := written_of_success hr'
  obtain ⟨hback, hagain⟩ := read_write_of_write hwrite hsame
  -- What the second conversion reads is what the first one has written.
  have hbytes : (Conversion.ofSource source).output.toUTF8 = source'.toUTF8 :=
    Except.ok.inj (hback.symm.trans hread)
  have hsource : (Conversion.ofSource source).output = source' := String.toByteArray_inj.mp hbytes
  have houtput : (Conversion.ofSource source').output = (Conversion.ofSource source).output := by
    rw [← hsource]
    exact withSemicolons_withSemicolons source
  rw [houtput, hagain] at hwrite'
  exact ⟨houtput, (Except.ok.inj hwrite').symm⟩

theorem convertFile_twice_in_place :
    let w : World := ⟨⟨[], [(["a"], "x\n".toUTF8), (["b"], "y".toUTF8)], []⟩, .empty, .empty⟩
    let once := (convertFile .fatal (some "./a") (some "a") w).world
    once.files.node? ["a"] = some (.file "x;\n".toUTF8) ∧
      once.files.node? ["b"] = some (.file "y".toUTF8) ∧
      (convertFile .ignore (some "./a") (some "a") once).world = once := by
  intro w once
  let after : World := { w with files := w.files.put ["a"] "x;\n".toUTF8 }
  have hread : sourceOfInput ((some "./a").getD stdinName) (w.read (some "./a")) = .ok "x\n" :=
    sourceOfInput_eq_ok_iff.mpr ⟨rfl, by decide⟩
  have hread' : sourceOfInput ((some "./a").getD stdinName) (after.read (some "./a")) =
      .ok "x;\n" :=
    sourceOfInput_eq_ok_iff.mpr ⟨rfl, by decide⟩
  have hrun : convertFile .fatal (some "./a") (some "a") w = ⟨after, [], .ok ⟨"x;\n", 1, []⟩⟩ :=
    convertFile_written hread rfl rfl
  have hrun' : convertFile .ignore (some "./a") (some "a") after =
      ⟨after, [], .ok ⟨"x;\n", 0, []⟩⟩ :=
    convertFile_written hread' rfl rfl
  have honce : once = after := congrArg Run.world hrun
  obtain ⟨-, hok⟩ := convertFile_touches_output .fatal (some "./a") (some "a") w
  obtain ⟨hreceives, hplace⟩ := hok _ (congrArg Run.result hrun)
  obtain ⟨location, hlocate, -, hnode, hothers, -⟩ := hreceives
  cases hlocate
  refine ⟨hnode, (hothers ["b"] (by decide)).trans rfl, ?_⟩
  have hagain : (convertFile .ignore (some "./a") (some "a") once).result =
      .ok ⟨"x;\n", 0, []⟩ := by
    rw [honce, hrun']
  exact (hplace "./a" "a" rfl rfl rfl .ignore _ hagain).2

end Semicolons
