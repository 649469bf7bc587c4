import Mathlib.Tactic.SplitIfs
import TableRecipe.FileSystem

/-!
# Files that were written

A path along which a file was written leads to this file, and opening it gives what was written:
its directory is there still, and the last part of the path is the name of the file.

* `FileSystem.walk_of_contains` — a path can be followed where more files are;
* `FileSystem.lookup_putFile` — the files after one was put among them;
* `FileSystem.write?_eq_ok`, `FileSystem.Writable` — when a file can be written;
* `FileSystem.open?_of_write?` — what was written is there.
-/

namespace TableRecipe

theorem Content.text?_ofText (text : String) : (Content.ofText text).text? = some text := by
  rw [Content.text?, Content.ofText, String.fromUTF8?, dif_pos]
  rfl

namespace FileSystem

variable {fs written : FileSystem} {path : String} {content : Content}
  {place target : List String} {parts : List String} {last : String}

/-! ## Following a path -/

/-- A path can be followed where all the files and directories are that there were. -/
theorem walk_of_contains (hdirectories : written.directories = fs.directories)
    (hfiles : ∀ place, (fs.file? place).isSome → (written.file? place).isSome)
    (h : fs.walk place parts = .ok target) : written.walk place parts = .ok target := by
  have hsame : ∀ place, written.isDirectoryAt place = fs.isDirectoryAt place := by
    intro place
    rw [isDirectoryAt, isDirectoryAt, hdirectories]
  induction parts generalizing place with
  | nil => exact h
  | cons part rest ih =>
    have hthere : ∀ next, (fs.isDirectoryAt next || (fs.file? next).isSome) = true →
        (fs.isDirectoryAt next || (written.file? next).isSome) = true := by
      intro next hnext
      rw [Bool.or_eq_true] at hnext ⊢
      exact hnext.imp_right (hfiles next)
    simp only [walk, hsame] at h ⊢
    split_ifs at h with hdirectory hup hempty hlong hnext
    · simpa [hdirectory, hup, hempty] using ih h
    · simpa only [hdirectory, hup, hlong, if_true, if_false, if_pos (hthere _ hnext)] using ih h

/-- A path that leads to a directory may go on to what lies in it. -/
theorem walk_concat (h : fs.walk place parts = .ok target) (hdirectory : fs.isDirectoryAt target)
    (hup : last ≠ "..") (hshort : last.utf8ByteSize ≤ 255)
    (hthere : (fs.file? (target ++ [last])).isSome) :
    fs.walk place (parts ++ [last]) = .ok (target ++ [last]) := by
  induction parts generalizing place with
  | nil =>
    obtain rfl := Except.ok.inj h
    simp [walk, hdirectory, hup, Nat.not_lt.mpr hshort, hthere]
  | cons part rest ih =>
    rw [List.cons_append]
    simp only [walk] at h ⊢
    split_ifs at h ⊢
    · exact ih h
    · exact ih h

/-! ## Putting a file -/

theorem lookup_cons (name other : List String) (content : Content)
    (files : List (List String × Content)) :
    ((name, content) :: files).lookup other =
      if other = name then some content else files.lookup other := by
  by_cases h : other = name
  · simp [h]
  · simp [List.lookup_cons, beq_eq_false_iff_ne.mpr h, h]

theorem lookup_putFile (path other : List String) (content : Content)
    (files : List (List String × Content)) :
    (putFile path content files).lookup other =
      if other = path then some content else files.lookup other := by
  induction files with
  | nil => rw [putFile, lookup_cons]
  | cons file rest ih =>
    obtain ⟨name, old⟩ := file
    rw [putFile, lookup_cons]
    by_cases hname : name = path
    · subst hname
      rw [if_pos rfl, lookup_cons]
      by_cases hother : other = name <;> simp [hother]
    · rw [if_neg hname, lookup_cons, ih]
      by_cases hother : other = name
      · subst hother
        simp [hname]
      · simp [hother]

/-- The last part of a path that ends in a name is this name. -/
theorem last_ne_up (hopen : FilePath.endsOpen path = false)
    (hlast : (FilePath.parts path).getLast? = some last) : last ≠ ".." := by
  rw [FilePath.endsOpen] at hopen
  split at hopen
  · rename_i piece hpiece
    simp only [Bool.or_eq_false_iff, decide_eq_false_iff_not] at hopen
    obtain ⟨⟨hempty, hdot⟩, hup⟩ := hopen
    have hname : ∀ cs : List Char, piece ≠ cs → String.ofList piece ≠ String.ofList cs :=
      fun cs hne heq => hne (String.ofList_injective heq)
    obtain ⟨pieces, hpieces⟩ := List.getLast?_eq_some_iff.mp hpiece
    have hkept : (String.ofList piece ≠ "" && String.ofList piece ≠ ".") = true := by
      simp [hname [] (by simpa using hempty), hname ['.'] hdot]
    rw [FilePath.parts, hpieces] at hlast
    simp only [List.map_append, List.map_singleton, List.filter_append] at hlast
    rw [List.filter_cons_of_pos (by simpa using hkept), List.filter_nil,
      List.getLast?_concat] at hlast
    obtain rfl := Option.some.inj hlast
    exact hname ['.', '.'] hup
  · cases hopen

/-- What it takes to write a file: its directory is there, and it is no directory itself. -/
theorem write?_eq_ok : fs.write? path content = .ok written ↔
    ∃ directory name, check path = .ok () ∧
      fs.walk [] (FilePath.parts path).dropLast = .ok directory ∧
      (FilePath.parts path).getLast? = some name ∧ fs.isDirectoryAt directory = true ∧
      FilePath.endsOpen path = false ∧ name.utf8ByteSize ≤ 255 ∧
      fs.isDirectoryAt (directory ++ [name]) = false ∧
      written = { fs with files := putFile (directory ++ [name]) content fs.files } := by
  constructor
  · intro h
    simp only [write?] at h
    rcases hcheck : check path with e | _ <;> rw [hcheck] at h
    · cases h
    rcases hwalk : fs.walk [] (FilePath.parts path).dropLast with e | directory <;> rw [hwalk] at h
    · cases h
    rcases hlast : (FilePath.parts path).getLast? with _ | name <;> rw [hlast] at h
    · cases h
    simp only [bind, Except.bind, throw, throwThe, MonadExceptOf.throw, pure, Except.pure] at h
    split_ifs at h with hdirectory hopen hlong htaken
    obtain rfl := Except.ok.inj h
    refine ⟨directory, name, rfl, rfl, rfl, ?_, ?_, Nat.not_lt.mp hlong, ?_, rfl⟩
    · simpa using hdirectory
    · simpa using hopen
    · simpa using htaken
  · rintro ⟨directory, name, hcheck, hwalk, hlast, hdirectory, hopen, hshort, htaken, rfl⟩
    simp [write?, hcheck, hwalk, hlast, hdirectory, hopen, Nat.not_lt.mpr hshort, htaken, bind,
      Except.bind, pure, Except.pure]

/-- whether a file can be written along a path -/
def Writable (fs : FileSystem) (path : String) : Prop :=
  ∃ content written, fs.write? path content = .ok written

/-- Whether a file can be written does not depend on what is written. -/
theorem Writable.exists_write? (h : fs.Writable path) (content : Content) :
    ∃ written, fs.write? path content = .ok written := by
  obtain ⟨other, written, h⟩ := h
  obtain ⟨directory, name, hcheck, hwalk, hlast, hdirectory, hopen, hshort, htaken, -⟩ :=
    write?_eq_ok.mp h
  exact ⟨_, write?_eq_ok.mpr
    ⟨directory, name, hcheck, hwalk, hlast, hdirectory, hopen, hshort, htaken, rfl⟩⟩

/-- **What was written is there.** After a file was written along a path, opening the path gives
what was written. -/
theorem open?_of_write? (h : fs.write? path content = .ok written) :
    written.open? path = .ok (.ok content) := by
  obtain ⟨directory, name, hcheck, hwalk, hlast, hdirectory, hopen, hshort, -, hwritten⟩ :=
    write?_eq_ok.mp h
  have hfiles : written.files = putFile (directory ++ [name]) content fs.files := by rw [hwritten]
  have hdirectories : written.directories = fs.directories := by rw [hwritten]
  have hfile : written.file? (directory ++ [name]) = some content := by
    rw [file?, hfiles, lookup_putFile, if_pos rfl]
  have hkept : ∀ place, (fs.file? place).isSome → (written.file? place).isSome := by
    intro place hplace
    rw [file?, hfiles, lookup_putFile]
    split
    · rfl
    · exact hplace
  have hparts : FilePath.parts path = (FilePath.parts path).dropLast ++ [name] := by
    obtain ⟨before, hbefore⟩ := List.getLast?_eq_some_iff.mp hlast
    rw [hbefore, List.dropLast_concat]
  have hplace : written.walk [] (FilePath.parts path) = .ok (directory ++ [name]) := by
    rw [hparts]
    refine walk_concat (walk_of_contains hdirectories hkept hwalk) ?_ (last_ne_up hopen hlast)
      hshort (by rw [hfile]; rfl)
    rw [isDirectoryAt, hdirectories]
    exact hdirectory
  have hlocate : written.locate path = .ok (directory ++ [name]) := by
    simp [locate, hcheck, hplace, hopen, bind, Except.bind]
  simp [open?, hlocate, hfile, bind, Except.bind, pure, Except.pure]

end FileSystem

end TableRecipe
