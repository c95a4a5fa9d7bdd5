import Drumline.CommandLine.Files

/-! Hosts whose files change only as a whole.  Such a host may refuse any request, but what it reads
stays as it is, and a text is written to a file completely or not at all (`Host.Atomic`).  The main
statement is `World.atomic_host`, that a directory held as a value serves a program so. -/

namespace Drumline.CommandLine

/-- What a host with the files `file?` keeps to, whatever it refuses. -/
structure Host.Atomic {σ File : Type} (host : Host (StateM σ))
    (file? : σ → File → Option ByteArray) : Prop where
  readInput : ∀ s, (host.readInput.run s).2 = s
  readFile : ∀ path s, ((host.readFile path).run s).2 = s
  /-- A refused text changes nothing. -/
  refused : ∀ path text s e, ((host.writeFile path text).run s).1 = .error e →
    ((host.writeFile path text).run s).2 = s
  /-- A text that is written is what the path is read as from then on, the contents of one file. -/
  written : ∀ path text s, ((host.writeFile path text).run s).1 = .ok () →
    ((host.readFile path).run ((host.writeFile path text).run s).2).1 = .ok (encode text) ∧
      ∃ file, file? ((host.writeFile path text).run s).2 file = some (encode text) ∧
        ∀ other ≠ file, file? ((host.writeFile path text).run s).2 other = file? s other

theorem decode_encode (text : List Char) : decode (encode text) = .ok text := by
  have hRead : String.fromUTF8? (String.ofList text).toUTF8 = some (String.ofList text) := by
    rw [String.toUTF8_eq_toByteArray, String.fromUTF8?, dif_pos (String.ofList text).isValidUTF8]
    rfl
  simp only [decode, encode, hRead, String.toList_ofList]

namespace Directory

variable {d d' : Directory} {name other path text : List Char} {contents : ByteArray}

theorem file?_put (d : Directory) (name : List Char) (contents : ByteArray) :
    (d.put name contents).file? name = some contents := by
  simp [file?, put]

theorem lookup_filter_ne {files : List (List Char × ByteArray)} (h : other ≠ name) :
    (files.filter (·.1 != name)).lookup other = files.lookup other := by
  induction files with
  | nil => rfl
  | cons entry files ih =>
    by_cases hEntry : entry.1 = name
    · have hOther : (other == entry.1) = false := by simpa [hEntry] using h
      rw [List.filter_cons_of_neg (by simp [hEntry]), ih, List.lookup_cons, hOther]
    · rw [List.filter_cons_of_pos (by simp [hEntry]), List.lookup_cons, List.lookup_cons, ih]

theorem file?_put_of_ne (d : Directory) (contents : ByteArray) (h : other ≠ name) :
    (d.put name contents).file? other = d.file? other := by
  have hOther : (other == name) = false := by simpa using h
  rw [file?, put, List.lookup_cons, hOther]
  exact lookup_filter_ne h

/-- What can be written to is a file of the working directory, named by itself. -/
theorem exists_of_write (h : d.write path text = .ok d') :
    ∃ name, Target.ofPath path = .entry true name .plain ∧ Text.byteSize name ≤ nameLimit ∧
      d' = d.put name (encode text) := by
  unfold write at h
  split at h
  · cases h
  · cases h
  · cases h
  · next here name hTarget =>
    simp only [find] at h
    split at h
    · cases h
    · next hSize =>
      cases here with
      | false => cases h
      | true =>
        cases h
        exact ⟨name, hTarget, Nat.not_lt.mp hSize, rfl⟩
  · next here name hTarget =>
    cases hFind : d.find here name with
    | error e =>
      rw [hFind] at h
      cases h
    | ok entry =>
      rw [hFind] at h
      cases entry <;> cases h

/-- What is written is read back. -/
theorem read_of_write (h : d.write path text = .ok d') : d'.read path = .ok (encode text) := by
  obtain ⟨name, hTarget, hSize, rfl⟩ := exists_of_write h
  simp only [read, hTarget, find, if_neg (Nat.not_lt.mpr hSize), if_true, file?_put]
  rfl

end Directory

namespace World

variable {w : World} {path text : List Char}

theorem run_writeFile (w : World) (path text : List Char) :
    (host.writeFile path text).run w = match w.directory.write path text with
      | .ok directory => (.ok (), { w with directory })
      | .error e => (.error e, w) := by
  change (match w.directory.write path text with
    | .ok directory => do
      set { w with directory }
      return .ok ()
    | .error e => return .error e : StateM World (Except FileError Unit)).run w = _
  cases w.directory.write path text <;> rfl

/-- A world serves a program without half-written files. -/
theorem atomic_host : host.Atomic fun w name => w.directory.file? name where
  readInput _ := rfl
  readFile _ _ := rfl
  refused path text w e h := by
    rw [run_writeFile] at h ⊢
    cases hWrite : w.directory.write path text with
    | error e => rfl
    | ok d =>
      rw [hWrite] at h
      cases h
  written path text w h := by
    rw [run_writeFile] at h ⊢
    cases hWrite : w.directory.write path text with
    | error e =>
      rw [hWrite] at h
      cases h
    | ok d =>
      refine ⟨Directory.read_of_write hWrite, ?_⟩
      obtain ⟨name, -, -, rfl⟩ := Directory.exists_of_write hWrite
      exact ⟨name, Directory.file?_put _ _ _, fun other => Directory.file?_put_of_ne _ _⟩

end World

end Drumline.CommandLine
