import Mathlib.Algebra.Order.BigOperators.Group.List
import Mathlib.Algebra.Order.Ring.Nat
import Mathlib.Data.List.TakeWhile
import StationNaming.Files.InPlace
import StationNaming.Proofs.Keyed
/-!
# What saving in place comes to

Saving in place goes by way of a temporary file, of which nothing is left in the end.

**What is exact.** `run_saveInPlace` covers every path and all files. If a file is there, it has the
new content and its old permissions afterwards, and all other files are as before; otherwise saving
fails, and all files are as before. A saving that fails half way, also because it could write only a
part (`run_saveInPlace_part`), has made a temporary file by then, which it removes
(`run_saveInPlace_of_error`). Writing over another file removes nothing (`run_writeOver`).
-/

namespace StationNaming.Files

/-! ## The path of a temporary file -/

section TemporaryPath

variable (fs : Files) (path : String)

/-- A plain path is its folder and its last name. -/
theorem toList_folder_append (plain : String) :
    (folder plain).toList ++ (lastName plain).toList = plain.toList := by
  rw [folder, lastName, String.toList_ofList, String.toList_ofList, ← List.reverse_append,
    List.takeWhile_append_dropWhile, List.reverse_reverse]

/-- The last name holds no slash. -/
theorem slash_notMem_lastName (plain : String) : '/' ∉ (lastName plain).toList := by
  rw [lastName, String.toList_ofList, List.mem_reverse]
  intro hmem
  exact absurd (List.mem_takeWhile_imp hmem) (by decide)

/-- The ending of a name is made of the characters of the name and a dot. -/
theorem mem_of_mem_ending {name : String} {c : Char} (h : c ∈ (ending name).toList) :
    c ∈ name.toList ∨ c = '.' := by
  simp only [ending] at h
  split at h
  · exact absurd h List.not_mem_nil
  · rw [String.toList_ofList, List.mem_cons, List.mem_reverse] at h
    rcases h with rfl | h
    · exact .inr rfl
    · exact .inl (List.mem_reverse.mp ((List.takeWhile_sublist _).mem h))

/-- A temporary path is the folder of the path it is made for and a name without a slash. -/
theorem exists_toList_temporaryPath : ∃ name : List Char, '/' ∉ name ∧
    (fs.temporaryPath path).toList = (folder (plainPath path)).toList ++ name := by
  refine ⟨_, ?_, by rw [temporaryPath, String.toList_append, String.toList_append,
    String.toList_append, List.append_assoc, List.append_assoc]⟩
  rw [String.toList_ofList]
  intro hmem
  rcases List.mem_append.mp hmem with htmp | hmem
  · exact absurd htmp (by decide)
  rcases List.mem_append.mp hmem with hfill | hending
  · rw [String.toList_ofList] at hfill
    exact absurd (List.eq_of_mem_replicate hfill) (by decide)
  · rcases mem_of_mem_ending hending with hlast | hdot
    · exact slash_notMem_lastName _ hlast
    · exact absurd hdot (by decide)

theorem length_le_join {s : String} {ss : List String} (h : s ∈ ss) :
    s.length ≤ (String.join ss).length := by
  obtain ⟨before, after, rfl⟩ := List.append_of_mem h
  rw [String.join_append, String.join_cons, String.length_append, String.length_append]
  omega

/-- A temporary path is longer than every path to avoid. -/
theorem length_lt_of_mem_avoided {other : String} (h : other ∈ fs.avoided path) :
    other.length < (fs.temporaryPath path).length := by
  have hle : other.length ≤ (String.join (fs.avoided path)).length := length_le_join h
  have htmp : "tmp".length = 3 := rfl
  simp only [temporaryPath, String.length_append, String.length_ofList, List.length_replicate, htmp]
  omega

theorem ne_temporaryPath {other : String} (h : other ∈ fs.avoided path) :
    other ≠ fs.temporaryPath path := by
  rintro rfl
  exact Nat.lt_irrefl _ (length_lt_of_mem_avoided fs path h)

/-- No file has the path of a temporary file. -/
theorem temporaryPath_notMem : fs.temporaryPath path ∉ fs.files.map (·.1) :=
  fun h => ne_temporaryPath fs path (List.mem_append_left _ (List.mem_append_left _ h)) rfl

end TemporaryPath

/-! ## Where paths lead beside a temporary file -/

section Beside

variable {fs : Files} {path : String} {file : File}

theorem files_put_temporaryPath :
    (fs.put (fs.temporaryPath path) file).files = fs.files ++ [(fs.temporaryPath path, file)] :=
  Keyed.set_of_notMem (temporaryPath_notMem fs path) file

theorem isDirectory_put_temporaryPath (plain : String) :
    (fs.put (fs.temporaryPath path) file).isDirectory plain =
      (fs.isDirectory plain ||
        (plain ++ "/").toList.isPrefixOf (fs.temporaryPath path).toList) := by
  rw [isDirectory, files_put_temporaryPath, List.any_append, List.any_cons, List.any_nil,
    Bool.or_false, ← Bool.or_assoc]
  rfl

/-- A file beside a path is not below it. -/
theorem isDirectory_plainPath_put :
    (fs.put (fs.temporaryPath path) file).isDirectory (plainPath path) =
      fs.isDirectory (plainPath path) := by
  rw [isDirectory_put_temporaryPath, Bool.or_eq_left_iff_imp, List.isPrefixOf_iff_prefix]
  intro hbelow
  obtain ⟨name, hname, htemporary⟩ := exists_toList_temporaryPath fs path
  rw [htemporary, String.toList_append, ← toList_folder_append (plainPath path), List.append_assoc,
    List.prefix_append_right_inj] at hbelow
  exact absurd (hbelow.subset (List.mem_append_right _ (List.mem_singleton.mpr rfl))) hname

/-- What is at a path to avoid is as before. -/
theorem find?_put_temporaryPath {other : String} (h : other ∈ fs.avoided path) :
    (fs.put (fs.temporaryPath path) file).find? other = fs.find? other := by
  rw [find?_put, if_neg (ne_temporaryPath fs path h)]

/-- **A temporary file does not change where its path leads**, if it can be made there. -/
theorem locate_put_temporaryPath (hnowhere : fs.locate path ≠ .nowhere) :
    (fs.put (fs.temporaryPath path) file).locate path = fs.locate path := by
  have hplain : (fs.put (fs.temporaryPath path) file).find? (plainPath path) =
      fs.find? (plainPath path) :=
    find?_put_temporaryPath (List.mem_append_right _ (List.mem_singleton.mpr rfl))
  have habove : (ancestors path).any
        (fun above => ((fs.put (fs.temporaryPath path) file).find? above).isSome) =
      (ancestors path).any fun above => (fs.find? above).isSome := by
    rw [Bool.eq_iff_iff, List.any_eq_true, List.any_eq_true]
    refine exists_congr fun above => and_congr_right fun h => ?_
    rw [find?_put_temporaryPath (List.mem_append_left _ (List.mem_append_right _ h))]
  -- A folder stays one, and only where there was none before would the path have led nowhere.
  have hfolder : (ancestors path).getLast?.any fs.isDirectory = true →
      (ancestors path).getLast?.any (fs.put (fs.temporaryPath path) file).isDirectory = true := by
    intro h
    cases hlast : (ancestors path).getLast? with
    | none => rw [hlast] at h; cases h
    | some folder =>
      rw [hlast] at h
      rw [Option.any_some, isDirectory_put_temporaryPath, show fs.isDirectory folder = true from h,
        Bool.true_or]
  simp only [locate, isDirectory_plainPath_put, hplain, habove] at hnowhere ⊢
  generalize (ancestors path).getLast?.any fs.isDirectory = before at *
  generalize (ancestors path).getLast?.any
    (fs.put (fs.temporaryPath path) file).isDirectory = after at *
  cases before with
  | true => rw [hfolder rfl]
  | false =>
    cases after with
    | false => rfl
    | true =>
      simp only [Bool.not_false, if_true] at hnowhere
      split_ifs at hnowhere ⊢ <;> first | rfl | exact absurd rfl hnowhere

end Beside

/-! ## What the steps do -/

theorem put_put (fs : Files) (plain : String) (first last : File) :
    (fs.put plain first).put plain last = fs.put plain last := by
  simp only [put, Keyed.set_set]

/-- What is put in the place of a file that is there stands where it stood, whatever comes after. -/
theorem files_put_append {fs : Files} {rest more : List (String × File)} {plain : String}
    (hfiles : fs.files = rest ++ more) (h : plain ∈ rest.map (·.1)) (file : File) :
    (fs.put plain file).files = Keyed.set plain file rest ++ more := by
  rw [put, hfiles, Keyed.set_append_of_mem h]

section Steps

variable {fs : Files} {path plain : String} {file : File}

theorem run_seek (path : String) (fs : Files) :
    (seek path).run fs =
      match fs.fileAt path with
      | .ok plain => .ok plain fs
      | .error e => .error e fs := by
  unfold seek
  cases hfile : fs.fileAt path with
  | ok plain => simp [hfile]
  | error e =>
    simp only [EStateM.run_bind, EStateM.run_get, hfile]
    rfl

theorem run_createBeside (path : String) (fs : Files) :
    (createBeside path).run fs =
      match fs.locate path with
      | .file _ | .free _ | .unmade | .directory =>
        .ok (fs.temporaryPath path) (fs.put (fs.temporaryPath path) ⟨[], temporaryMode⟩)
      | .nowhere => .error (.missing path) fs
      | .blocked => .error (.notDirectory path) fs
      | .unreadable => .error .nullCharacter fs := by
  unfold createBeside
  simp only [EStateM.run_bind, EStateM.run_get]
  cases fs.locate path <;> rfl

/-- Removing a file that is last takes it off, if no other one has its path. -/
theorem run_remove_of_last {rest : List (String × File)}
    (hfiles : fs.files = rest ++ [(plain, file)])
    (hfresh : plain ∉ rest.map (·.1)) : (remove plain).run fs = .ok ()
    { fs with files := rest } := by
  have hrest : rest.filter (·.1 != plain) = rest := by
    rw [List.filter_eq_self]
    intro entry hentry
    rw [bne_iff_ne]
    rintro rfl
    exact hfresh (List.mem_map_of_mem hentry)
  show EStateM.Result.ok () { fs with files := fs.files.filter (·.1 != plain) } = _
  rw [hfiles, List.filter_append, hrest, List.filter_cons_of_neg (by simp), List.filter_nil,
    List.append_nil]

/-- Removing a temporary file restores the files. -/
theorem run_remove_put_temporaryPath :
    (remove (fs.temporaryPath path)).run (fs.put (fs.temporaryPath path) file) = .ok () fs :=
  run_remove_of_last files_put_temporaryPath (temporaryPath_notMem fs path)

theorem run_copyMode (h : fs.fileAt path = .ok plain) (other : String) :
    (copyMode path other).run fs =
      .ok () (fs.put other ⟨((fs.find? other).map (·.content)).getD [],
        ((fs.find? plain).map (·.mode)).getD newMode⟩) := by
  have hseek := run_seek path fs
  rw [h] at hseek
  simp only [copyMode, EStateM.run, bind, EStateM.bind] at hseek ⊢
  rw [hseek]
  rfl

theorem run_copyMode_of_error {e : FileError} (h : fs.fileAt path = .error e) (other : String) :
    (copyMode path other).run fs = .error e fs := by
  have hseek := run_seek path fs
  rw [h] at hseek
  simp only [copyMode, EStateM.run, bind, EStateM.bind] at hseek ⊢
  rw [hseek]

/-- Moving a temporary file over a file that is there leaves the one in the place of the other. -/
theorem run_moveOver (h : (fs.put (fs.temporaryPath path) file).fileAt path = .ok plain)
    (there : plain ∈ fs.files.map (·.1)) :
    (moveOver (fs.temporaryPath path) path).run (fs.put (fs.temporaryPath path) file) =
      .ok () (fs.put plain file) := by
  have hseek := run_seek path (fs.put (fs.temporaryPath path) file)
  rw [h] at hseek
  have hfound : (fs.put (fs.temporaryPath path) file).find? (fs.temporaryPath path) =
    some file := by
    rw [find?_put, if_pos rfl]
  have hremove : (remove (fs.temporaryPath path)).run
      ((fs.put (fs.temporaryPath path) file).put plain file) = .ok () (fs.put plain file) := by
    refine run_remove_of_last (files_put_append files_put_temporaryPath there file) ?_
    rw [Keyed.map_fst_set_of_mem file there]
    exact temporaryPath_notMem fs path
  unfold moveOver
  simp only [EStateM.run_bind, EStateM.run_get, hseek, hfound]
  exact hremove

end Steps

/-! ## The whole saving -/

section Saving

variable {fs : Files} {path plain : String}

theorem exists_find?_of_locate (h : fs.locate path = .file plain) :
    ∃ file, fs.find? plain = some file := by
  simp only [locate] at h
  split_ifs at h with _ _ _ hfound
  cases h
  exact Option.isSome_iff_exists.mp hfound

theorem locate_of_fileAt (h : fs.fileAt path = .ok plain) : fs.locate path = .file plain := by
  unfold fileAt at h
  split at h <;> cases h
  assumption

theorem mem_keys_of_find? {file : File} (h : fs.find? plain = some file) :
    plain ∈ fs.files.map (·.1) :=
  Keyed.mem_keys_of_lookup h

theorem mem_avoided_of_find? {file : File} (h : fs.find? plain = some file) :
    plain ∈ fs.avoided path :=
  List.mem_append_left _ (List.mem_append_left _ (mem_keys_of_find? h))

theorem fileAt_put_temporaryPath (hnowhere : fs.locate path ≠ .nowhere) (file : File) :
    (fs.put (fs.temporaryPath path) file).fileAt path = fs.fileAt path := by
  rw [fileAt, locate_put_temporaryPath hnowhere, fileAt]

/-- **A temporary file is filled**, and if it has only a part then of what it was to have, nothing
more is done. -/
theorem run_fill (content : List UInt8) (isWhole : Bool) :
    (fill (fs.temporaryPath path) content isWhole).run
        (fs.put (fs.temporaryPath path) ⟨[], temporaryMode⟩) =
      if isWhole then .ok () (fs.put (fs.temporaryPath path) ⟨content, temporaryMode⟩)
      else .error .tooDeep (fs.put (fs.temporaryPath path) ⟨content, temporaryMode⟩) := by
  have hupdate : (fs.put (fs.temporaryPath path) ⟨[], temporaryMode⟩).update
      (fs.temporaryPath path) content =
        fs.put (fs.temporaryPath path) ⟨content, temporaryMode⟩ := by
    rw [update, find?_put, if_pos rfl, put_put]
    rfl
  rw [← hupdate]
  cases isWhole <;> rfl

/-- **A temporary file takes the place of a file** that is there, or stays where it is. -/
theorem run_takePlace (hnowhere : fs.locate path ≠ .nowhere) (content : List UInt8) :
    (takePlace (fs.temporaryPath path) path content true).run
        (fs.put (fs.temporaryPath path) ⟨[], temporaryMode⟩) =
      match fs.fileAt path with
      | .ok plain => .ok () (fs.update plain content)
      | .error e => .error e (fs.put (fs.temporaryPath path) ⟨content, temporaryMode⟩) := by
  have hfill := @run_fill fs path content true
  simp only [takePlace, EStateM.run, bind, EStateM.bind] at hfill ⊢
  rw [hfill]
  cases hfile : fs.fileAt path with
  | error e =>
    have hcopy := run_copyMode_of_error
      ((fileAt_put_temporaryPath hnowhere ⟨content, temporaryMode⟩).trans hfile)
      (fs.temporaryPath path)
    simp only [EStateM.run] at hcopy
    simp only [if_true, hcopy]
  | ok plain =>
    obtain ⟨old, hold⟩ := exists_find?_of_locate (locate_of_fileAt hfile)
    have hkept : ∀ file, (fs.put (fs.temporaryPath path) file).find? plain = some old := by
      intro file
      rw [find?_put, if_neg (ne_temporaryPath fs path (mem_avoided_of_find? hold)), hold]
    have hcopy := run_copyMode
      ((fileAt_put_temporaryPath hnowhere ⟨content, temporaryMode⟩).trans hfile)
      (fs.temporaryPath path)
    rw [hkept, find?_put, if_pos rfl, put_put] at hcopy
    have hmove := run_moveOver
      ((fileAt_put_temporaryPath hnowhere ⟨content, old.mode⟩).trans hfile) (mem_keys_of_find? hold)
    simp only [EStateM.run, Option.map_some, Option.getD_some] at hcopy hmove
    simp only [if_true, hcopy, hmove, update, hold, Option.map_some, Option.getD_some]

/-- A temporary file that has only a part of what it was to have takes no place. -/
theorem run_takePlace_part (content : List UInt8) :
    (takePlace (fs.temporaryPath path) path content false).run
        (fs.put (fs.temporaryPath path) ⟨[], temporaryMode⟩) =
      .error .tooDeep (fs.put (fs.temporaryPath path) ⟨content, temporaryMode⟩) := by
  have hfill := @run_fill fs path content false
  simp only [takePlace, EStateM.run, bind, EStateM.bind] at hfill ⊢
  rw [hfill]
  rfl

/-- **A saving that fails after it has made its temporary file** removes it again. -/
theorem run_saveInPlace_of_error {content last : List UInt8} {isWhole : Bool} {e : FileError}
    (created : (createBeside path).run fs =
      .ok (fs.temporaryPath path) (fs.put (fs.temporaryPath path) ⟨[], temporaryMode⟩))
    (failed : (takePlace (fs.temporaryPath path) path content isWhole).run
        (fs.put (fs.temporaryPath path) ⟨[], temporaryMode⟩) =
      .error e (fs.put (fs.temporaryPath path) ⟨last, temporaryMode⟩)) :
    (saveInPlace path content isWhole).run fs = .error e fs := by
  have hremove : (remove (fs.temporaryPath path)).run
      (fs.put (fs.temporaryPath path) ⟨last, temporaryMode⟩) = .ok () fs :=
    run_remove_put_temporaryPath
  simp only [EStateM.run] at created failed hremove
  simp only [saveInPlace, EStateM.run, bind, EStateM.bind, created, tryCatch, tryCatchThe,
    MonadExceptOf.tryCatch, EStateM.tryCatch, failed]
  show (match remove (fs.temporaryPath path)
      (fs.put (fs.temporaryPath path) ⟨last, temporaryMode⟩) with
    | .ok _ s => EStateM.throw e s
    | .error e s => EStateM.Result.error e s) = _
  rw [hremove]
  rfl

/-- A whole content of which a temporary file could be made, beside the file that is there or
not. -/
theorem run_saveInPlace_of_created (content : List UInt8) (hnowhere : fs.locate path ≠ .nowhere)
    (created : (createBeside path).run fs =
      .ok (fs.temporaryPath path) (fs.put (fs.temporaryPath path) ⟨[], temporaryMode⟩)) :
    (saveInPlace path content true).run fs =
      match fs.fileAt path with
      | .ok plain => .ok () (fs.update plain content)
      | .error e => .error e fs := by
  have htake := run_takePlace hnowhere content
  cases hfile : fs.fileAt path with
  | error e =>
    rw [hfile] at htake
    exact run_saveInPlace_of_error created htake
  | ok plain =>
    rw [hfile] at htake
    simp only [EStateM.run] at created htake
    simp only [saveInPlace, EStateM.run, bind, EStateM.bind, created, tryCatch, tryCatchThe,
      MonadExceptOf.tryCatch, EStateM.tryCatch, htake]

/-- **Saving in place**: the file that is there gets the content and keeps its permissions, and
nothing else changes; if no file is there, nothing changes at all. -/
theorem run_saveInPlace (path : String) (content : List UInt8) (fs : Files) :
    (saveInPlace path content true).run fs =
      match fs.fileAt path with
      | .ok plain => .ok () (fs.update plain content)
      | .error e => .error e fs := by
  have hcreate := run_createBeside path fs
  cases hplace : fs.locate path with
  | file plain | free plain | directory | unmade =>
    rw [hplace] at hcreate
    exact run_saveInPlace_of_created content (by rw [hplace]; exact nofun) hcreate
  | blocked | nowhere | unreadable =>
    rw [hplace] at hcreate
    simp only [EStateM.run] at hcreate
    simp only [saveInPlace, EStateM.run, bind, EStateM.bind, hcreate, fileAt, hplace]

/-- **Saving a part in place** fails, and nothing changes. -/
theorem run_saveInPlace_part (path : String) (content : List UInt8) (fs : Files) :
    (saveInPlace path content false).run fs =
      .error (match (createBeside path).run fs with
        | .ok _ _ => .tooDeep
        | .error e _ => e) fs := by
  have hcreate := run_createBeside path fs
  cases hplace : fs.locate path with
  | file plain | free plain | directory | unmade =>
    rw [hplace] at hcreate
    rw [hcreate]
    exact run_saveInPlace_of_error hcreate (run_takePlace_part content)
  | blocked | nowhere | unreadable =>
    rw [hplace] at hcreate
    rw [hcreate]
    simp only [EStateM.run] at hcreate
    simp only [saveInPlace, EStateM.run, bind, EStateM.bind, hcreate]

/-- **A saving in place that fails changes nothing**, whatever it has written by then. -/
theorem eq_of_run_saveInPlace_error {content : List UInt8} {isWhole : Bool} {e : FileError}
    {after : Files} (h : (saveInPlace path content isWhole).run fs = .error e after) :
    after = fs := by
  cases isWhole with
  | false =>
    rw [run_saveInPlace_part] at h
    exact (EStateM.Result.error.inj h).2.symm
  | true =>
    rw [run_saveInPlace] at h
    split at h
    · cases h
    · exact (EStateM.Result.error.inj h).2.symm

end Saving

/-! ## Writing over a file -/

/-- **Writing over a file**: what was written stays, also if it is only a part. -/
theorem run_writeOver (path : String) (content : List UInt8) (isWhole : Bool) (fs : Files) :
    (writeOver path content isWhole).run fs =
      match fs.write path content with
      | .ok after => if isWhole then .ok () after else .error .tooDeep after
      | .error e => .error e fs := by
  unfold writeOver
  simp only [EStateM.run_bind, EStateM.run_get]
  cases fs.write path content with
  | error e => rfl
  | ok after => cases isWhole <;> rfl

end StationNaming.Files
