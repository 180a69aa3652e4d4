import NesMachine.Proofs.Files.Path
import NesMachine.Proofs.Files.Tree
import NesMachine.Proofs.Outcome

/-!
# Files that stay

A file that can be read is still there after a directory was made, and after a write, unless the write
went to its place.

* `read_iff`: what can be read is at the place of its path.
* `OnlyBy`: changes of a tree by what is left at places.
-/

namespace NesMachine.Files.Tree

open Digest (Bytes)

variable {t t' t'' : Tree} {p q : Path} {key dir : Key} {name : String} {bytes saved : Bytes}

/-! ## Places -/

/-- The directories of a tree are in another one. -/
def Grows (t t' : Tree) : Prop := ∀ key, t.isDir key = true → t'.isDir key = true

theorem keyOf_ok (h : keyOf dir name = .ok key) : key = dir ++ [name] := by
  unfold keyOf at h
  split_ifs at h
  exact (Except.ok.inj h).symm

theorem enter_ok (h : t.enter dir name = .ok key) :
    key = Path.stepFrom dir name ∧ ∀ {t' : Tree}, t.Grows t' → t'.enter dir name = .ok key := by
  unfold enter at h ⊢
  unfold Path.stepFrom
  split_ifs at h ⊢
  · cases h
    exact ⟨rfl, fun _ => rfl⟩
  · cases h
    exact ⟨rfl, fun _ => rfl⟩
  · obtain ⟨key', hkey, h⟩ := bind_ok h
    split_ifs at h with hdir
    cases h
    refine ⟨keyOf_ok hkey, fun hgrows => ?_⟩
    rw [hkey]
    exact if_pos (hgrows key hdir)

theorem foldlM_enter_ok {steps : List String} (h : steps.foldlM t.enter dir = .ok key) :
    key = steps.foldl Path.stepFrom dir ∧
      ∀ {t' : Tree}, t.Grows t' → steps.foldlM t'.enter dir = .ok key := by
  induction steps generalizing dir with
  | nil =>
    cases h
    exact ⟨rfl, fun _ => rfl⟩
  | cons step steps ih =>
    rw [List.foldlM_cons] at h
    obtain ⟨dir', hstep, h⟩ := bind_ok h
    obtain ⟨hkey, hsteps⟩ := ih h
    obtain ⟨rfl, henter⟩ := enter_ok hstep
    refine ⟨hkey, fun hgrows => ?_⟩
    rw [List.foldlM_cons, henter hgrows]
    exact hsteps hgrows

/-- Follows the steps of a path that is fit to be followed. -/
def walk (t : Tree) (p : Path) : Except Error Target := do
  let steps := p.steps.map String.ofList
  let dir ← steps.dropLast.foldlM t.enter p.start
  match steps.getLast? with
  | none => return .dir dir
  | some name =>
    if name = "." || name = ".." then return .dir (← t.enter dir name)
    else return .entry dir name p.endsInSlash

/-- Whether a path is fit to be followed depends on its text alone. -/
theorem follow_ok {target : Target} (h : t.follow p = .ok target) :
    t.walk p = .ok target ∧ ∀ t' : Tree, t'.follow p = t'.walk p := by
  have hfollow (t : Tree) : t.follow p =
      if p.text.toList.contains '\x00' then .error .nulInName
      else if p.text.isEmpty then .error .notFound
      else if p.text.utf8ByteSize > maxPath then .error .nameTooLong
      else t.walk p := by
    unfold follow
    by_cases hnul : p.text.toList.contains '\x00' = true
    · rw [if_pos hnul, if_pos hnul]
      rfl
    by_cases hempty : p.text.isEmpty = true
    · rw [if_neg hnul, if_neg hnul, if_pos hempty, if_pos hempty]
      rfl
    by_cases hlong : p.text.utf8ByteSize > maxPath
    · rw [if_neg hnul, if_neg hnul, if_neg hempty, if_neg hempty, if_pos hlong, if_pos hlong]
      rfl
    · rw [if_neg hnul, if_neg hnul, if_neg hempty, if_neg hempty, if_neg hlong, if_neg hlong]
      rfl
  rw [hfollow] at h
  simp only [hfollow]
  split_ifs at h ⊢
  exact ⟨h, fun _ => rfl⟩

/-- A way to an entry: a directory behind all steps but the last, which is a name. -/
theorem walk_entry_iff {slash : Bool} : t.walk p = .ok (.entry dir name slash) ↔
    (p.steps.map String.ofList).dropLast.foldlM t.enter p.start = .ok dir ∧
      (p.steps.map String.ofList).getLast? = some name ∧ (name = "." || name = "..") = false ∧
      p.endsInSlash = slash := by
  unfold walk
  constructor
  · intro h
    obtain ⟨dir', hdir, h⟩ := bind_ok h
    cases hlast : (p.steps.map String.ofList).getLast? with
    | none =>
      rw [hlast] at h
      cases h
    | some last =>
      rw [hlast] at h
      simp only at h
      split_ifs at h with hdots
      · obtain ⟨above, -, h⟩ := bind_ok h
        cases h
      · cases h
        exact ⟨hdir, rfl, Bool.eq_false_iff.mpr hdots, rfl⟩
  · rintro ⟨hdir, hlast, hdots, rfl⟩
    simp only
    rw [hdir, hlast]
    simp only [hdots]
    rfl

/-- **A file is at the place of its path**, now and when there are more directories. -/
theorem follow_entry (h : t.follow p = .ok (.entry dir name false)) :
    p.place? = some (dir ++ [name]) ∧
      ∀ {t' : Tree}, t.Grows t' → t'.follow p = .ok (.entry dir name false) := by
  obtain ⟨hwalk, hfollow⟩ := follow_ok h
  obtain ⟨hdir, hlast, hname, hslash⟩ := walk_entry_iff.mp hwalk
  obtain ⟨rfl, hgrown⟩ := foldlM_enter_ok hdir
  refine ⟨?_, fun hgrows => ?_⟩
  · unfold Path.place?
    simp only [hlast, hname, hslash, Bool.or_false, Bool.false_eq_true, if_false]
  · rw [hfollow, walk_entry_iff]
    exact ⟨hgrown hgrows, hlast, hname, hslash⟩

/-! ## Files that can be read -/

theorem fileKey_ok (h : t.fileKey p = .ok key) : ∃ dir name,
    t.follow p = .ok (.entry dir name false) ∧ keyOf dir name = .ok key ∧ t.isDir key = false := by
  obtain ⟨target, hfollow, h⟩ := bind_ok h
  obtain dir | ⟨dir, name, _ | _⟩ := target
  · cases h
  · obtain ⟨key', hkey, h⟩ := bind_ok h
    split_ifs at h with hdir
    cases h
    exact ⟨dir, name, hfollow, hkey, Bool.eq_false_iff.mpr hdir⟩
  · cases h

theorem fileKey_of_follow (hfollow : t.follow p = .ok (.entry dir name false))
    (hkey : keyOf dir name = .ok key) (hdir : t.isDir key = false) : t.fileKey p = .ok key := by
  unfold fileKey
  rw [hfollow]
  simp only [bind, Except.bind]
  rw [hkey]
  simp only [hdir, Bool.false_eq_true, if_false]
  rfl

/-- **What can be read is at the place of its path.** -/
theorem read_ok (h : t.read p = .ok bytes) :
    ∃ key, t.fileKey p = .ok key ∧ t.file? key = some bytes := by
  obtain ⟨target, hfollow, h⟩ := bind_ok h
  obtain dir | ⟨dir, name, slash⟩ := target
  · cases h
  · obtain ⟨key, hkey, h⟩ := bind_ok h
    by_cases hdir : t.isDir key
    · simp only [hdir, if_true] at h
      cases h
    · simp only [hdir] at h
      cases hfile : t.file? key with
      | none =>
        rw [hfile] at h
        cases h
      | some found =>
        rw [hfile] at h
        cases slash with
        | true => cases h
        | false =>
          cases h
          exact ⟨key, fileKey_of_follow hfollow hkey (Bool.eq_false_iff.mpr hdir), hfile⟩

theorem read_of_fileKey (hkey : t.fileKey p = .ok key) (hfile : t.file? key = some bytes) :
    t.read p = .ok bytes := by
  obtain ⟨dir, name, hfollow, hname, hdir⟩ := fileKey_ok hkey
  unfold read
  rw [hfollow]
  simp only [bind, Except.bind]
  rw [hname]
  simp only [hdir, hfile, Bool.false_eq_true, if_false]
  rfl

theorem isDir_of_fileKey (h : t.fileKey p = .ok key) : t.isDir key = false := by
  obtain ⟨dir, name, -, -, hdir⟩ := fileKey_ok h
  exact hdir

theorem place?_of_fileKey (h : t.fileKey p = .ok key) : p.place? = some key := by
  obtain ⟨dir, name, hfollow, hname, -⟩ := fileKey_ok h
  rw [keyOf_ok hname]
  exact (follow_entry hfollow).1

theorem Grows.fileKey (hgrows : t.Grows t') (h : t.fileKey p = .ok key)
    (hdir : t'.isDir key = false) : t'.fileKey p = .ok key := by
  obtain ⟨dir, name, hfollow, hname, -⟩ := fileKey_ok h
  exact fileKey_of_follow ((follow_entry hfollow).2 hgrows) hname hdir

/-! ## Changes -/

theorem isDir_put (key' : Key) : (t.put key' bytes).isDir key = t.isDir key := by
  unfold isDir
  rw [dirs_put]

theorem fileKey_put (key' : Key) (h : t.fileKey p = .ok key) :
    (t.put key' bytes).fileKey p = .ok key := by
  have hgrows : t.Grows (t.put key' bytes) := fun other hother => by rwa [isDir_put]
  exact hgrows.fileKey h (by rw [isDir_put, isDir_of_fileKey h])

/-- A tree behind changes: what can be read there could be read before, or it is what was left at its
place. -/
def OnlyBy (left : Path → Bytes → Prop) (t t' : Tree) : Prop :=
  ∀ p bytes, t.read p = .ok bytes → t'.read p = .ok bytes ∨
    ∃ q found, left q found ∧ q.place? = p.place? ∧ t'.read p = .ok found

variable {left left' : Path → Bytes → Prop}

theorem OnlyBy.refl (t : Tree) : OnlyBy left t t := fun _ _ h => .inl h

theorem OnlyBy.mono (h : OnlyBy left t t') (hleft : ∀ q found, left q found → left' q found) :
    OnlyBy left' t t' := by
  intro p bytes hread
  obtain hkept | ⟨q, found, hfound, hplace, hnow⟩ := h p bytes hread
  · exact .inl hkept
  · exact .inr ⟨q, found, hleft q found hfound, hplace, hnow⟩

theorem OnlyBy.trans (h : OnlyBy left t t') (h' : OnlyBy left t' t'') : OnlyBy left t t'' := by
  intro p bytes hread
  obtain hkept | ⟨q, found, hfound, hplace, hnow⟩ := h p bytes hread
  · exact h' p bytes hkept
  · obtain hkept' | hlater := h' p found hnow
    · exact .inr ⟨q, found, hfound, hplace, hkept'⟩
    · exact .inr hlater

/-- **A write changes what is at its place.** -/
theorem onlyBy_write (hleft : left q saved) (h : t.write q saved = .ok t') : OnlyBy left t t' := by
  obtain ⟨key', hkey', h⟩ := bind_ok h
  cases h
  intro p bytes hread
  obtain ⟨key, hkey, hfile⟩ := read_ok hread
  by_cases hsame : key = key'
  · subst hsame
    by_cases hnull : key = nullDevice
    · refine .inl (read_of_fileKey (fileKey_put key hkey) ?_)
      unfold put
      rw [if_pos hnull]
      exact hfile
    · refine .inr ⟨q, saved, hleft, ?_, ?_⟩
      · rw [place?_of_fileKey hkey', place?_of_fileKey hkey]
      · exact read_of_fileKey (fileKey_put key hkey) (file?_put_self saved hnull)
  · refine .inl (read_of_fileKey (fileKey_put key' hkey) ?_)
    rw [file?_put_ne saved hsame, hfile]

/-- A directory is made where there is no file. -/
theorem onlyBy_createDir (h : t.createDir q = .ok t') : OnlyBy left t t' := by
  obtain ⟨target, -, h⟩ := bind_ok h
  obtain dir | ⟨dir, name, slash⟩ := target
  · cases h
    exact .refl t
  · obtain ⟨key', -, h⟩ := bind_ok h
    by_cases hdir : t.isDir key'
    · simp only [hdir, if_true] at h
      cases h
      exact .refl t
    by_cases hfile : t.isFile key'
    · simp only [hdir, hfile, if_true] at h
      cases h
    · simp only [hdir, hfile] at h
      cases h
      intro p bytes hread
      obtain ⟨key, hkey, hbytes⟩ := read_ok hread
      have hne : key ≠ key' := by
        rintro rfl
        exact hfile (by rw [isFile, hbytes, Option.isSome_some])
      have hgrows : t.Grows { t with dirs := key' :: t.dirs } := by
        intro other hother
        unfold isDir at hother ⊢
        rw [List.contains_cons]
        rw [Bool.or_eq_true] at hother ⊢
        exact hother.imp_right fun hold => by rw [hold, Bool.or_true]
      refine .inl (read_of_fileKey (hgrows.fileKey hkey ?_) hbytes)
      have hold := isDir_of_fileKey hkey
      unfold isDir at hold ⊢
      rw [List.contains_cons, beq_false_of_ne hne, Bool.false_or]
      exact hold

/-- The directories that were made have changed no file, even where not all of them could be made. -/
theorem onlyBy_createFirst (t : Tree) (dirs : List Path) :
    OnlyBy left t (t.createFirst dirs).2 := by
  fun_induction createFirst t dirs with
  | case1 | case6 => exact .refl t
  | case2 p above t' hmade => exact onlyBy_createDir hmade
  | case3 p above hmissing e t' habove ih
  | case5 p above hmissing t' habove e hfailed ih =>
    rwa [habove] at ih
  | case4 p above hmissing t' habove t'' hmade ih =>
    rw [habove] at ih
    exact ih.trans (onlyBy_createDir hmade)

end NesMachine.Files.Tree
