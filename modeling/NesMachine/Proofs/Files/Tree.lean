import Mathlib.Tactic.SplitIfs
import NesMachine.Files.Tree

/-!
# Writes to a tree of files

A write changes one file, and no directory.

* `file?_put_ne`, `file?_put_self`: the files behind one that was stored.
* `file?_extended_ne`, `file?_extended_self`: the files behind bytes for the end of one of them.
-/

namespace NesMachine.Files.Tree

open Digest (Bytes)

variable {t : Tree} {key key' : Key}

theorem lookup_filter_ne (files : List (Key × Bytes)) (h : key ≠ key') :
    (files.filter (·.1 != key')).lookup key = files.lookup key := by
  induction files with
  | nil => rfl
  | cons file files ih =>
    by_cases hkey : file.1 = key'
    · have hne : (key == file.1) = false := beq_false_of_ne (hkey ▸ h)
      rw [List.filter_cons_of_neg (by simpa using hkey), List.lookup_cons, hne, ih]
    · rw [List.filter_cons_of_pos (by simpa using hkey), List.lookup_cons, List.lookup_cons, ih]

/-- Storing a file leaves the others as they are. -/
theorem file?_put_ne (bytes : Bytes) (h : key ≠ key') :
    (t.put key' bytes).file? key = t.file? key := by
  unfold put
  split_ifs
  · rfl
  · unfold file?
    rw [List.lookup_cons, beq_false_of_ne h]
    exact lookup_filter_ne t.files h

theorem file?_put_self (bytes : Bytes) (h : key ≠ nullDevice) :
    (t.put key bytes).file? key = some bytes := by
  unfold put file?
  rw [if_neg h]
  exact List.lookup_cons_self

theorem dirs_put (key : Key) (bytes : Bytes) : (t.put key bytes).dirs = t.dirs := by
  unfold put
  split_ifs <;> rfl

/-- The files behind bytes for the end of a file, if they could be written. -/
def extended (t : Tree) (path : Path) (bytes : Bytes) : Tree :=
  match t.append path bytes with
  | .ok t' => t'
  | .error _ => t

variable {path : Path} {bytes : Bytes}

theorem extended_ok (h : t.fileKey path = .ok key) :
    t.extended path bytes = t.put key ((t.file? key).getD #[] ++ bytes) := by
  unfold extended append
  rw [h]
  rfl

theorem extended_error {e : Error} (h : t.fileKey path = .error e) : t.extended path bytes = t := by
  unfold extended append
  rw [h]
  rfl

/-- The bytes are at the end of the file. -/
theorem file?_extended_self (h : t.fileKey path = .ok key) (hnull : key ≠ nullDevice) :
    (t.extended path bytes).file? key = some ((t.file? key).getD #[] ++ bytes) := by
  rw [extended_ok h, file?_put_self _ hnull]

/-- Every other file is as it was. -/
theorem file?_extended_ne (h : t.fileKey path ≠ .ok key) :
    (t.extended path bytes).file? key = t.file? key := by
  cases hkey : t.fileKey path with
  | error e => rw [extended_error hkey]
  | ok key' =>
    rw [extended_ok hkey]
    refine file?_put_ne _ ?_
    rintro rfl
    exact h hkey

theorem dirs_extended : (t.extended path bytes).dirs = t.dirs := by
  cases hkey : t.fileKey path with
  | error e => rw [extended_error hkey]
  | ok key => rw [extended_ok hkey, dirs_put]

end NesMachine.Files.Tree
