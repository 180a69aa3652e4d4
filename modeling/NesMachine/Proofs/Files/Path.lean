import Mathlib.Tactic.SplitIfs
import NesMachine.Files.Tree

/-!
# Where paths lead

A path can be followed on paper: names go down, double dots go up, and the last name is that of a file.
No directory has to be looked at, so the place of a path is the same at all times.

* `pieces_append_slash`: the pieces of a text are those on both sides of a slash.
* `exists_upToName`: a path with a file name ends in it, but for what counts for nothing.
* `place?_withExtension`, `place?_join`: a path that was given an extension leads to a name with it.
-/

namespace NesMachine.Path

open Files (Key workDir)

variable {p : Path} {text before name suffix : List Char} {key : Key}

/-! ## Pieces -/

theorem pieces_cons (c : Char) (text : List Char) : ∃ first rest, pieces text = first :: rest ∧
    pieces (c :: text) = if c = '/' then [] :: first :: rest else (c :: first) :: rest := by
  have hne : pieces text ≠ [] := by
    cases text with
    | nil => nofun
    | cons c text =>
      unfold pieces
      rw [List.foldr_cons]
      split
      · nofun
      · split_ifs <;> nofun
  obtain ⟨first, rest, hpieces⟩ := List.exists_cons_of_ne_nil hne
  refine ⟨first, rest, hpieces, ?_⟩
  unfold pieces at hpieces ⊢
  rw [List.foldr_cons, hpieces]

theorem pieces_append_slash (text text' : List Char) :
    pieces (text ++ '/' :: text') = pieces text ++ pieces text' := by
  induction text with
  | nil =>
    obtain ⟨first, rest, hrest, hcons⟩ := pieces_cons '/' text'
    rw [List.nil_append, hcons, if_pos rfl, hrest]
    rfl
  | cons c text ih =>
    obtain ⟨first, rest, hrest, hcons⟩ := pieces_cons c (text ++ '/' :: text')
    obtain ⟨first', rest', hrest', hcons'⟩ := pieces_cons c text
    rw [ih, hrest'] at hrest
    obtain ⟨rfl, rfl⟩ := List.cons.inj hrest
    rw [List.cons_append, hcons, hcons']
    split_ifs <;> rfl

theorem pieces_of_notMem (h : '/' ∉ text) : pieces text = [text] := by
  induction text with
  | nil => rfl
  | cons c text ih =>
    rw [List.mem_cons, not_or] at h
    obtain ⟨hc, htext⟩ := h
    obtain ⟨first, rest, hrest, hcons⟩ := pieces_cons c text
    rw [ih htext] at hrest
    obtain ⟨rfl, rfl⟩ := List.cons.inj hrest
    rw [hcons, if_neg (Ne.symm hc)]

/-- What can stand before a name: nothing, or a text that ends in a slash. -/
def Above (before : List Char) : Prop := before = [] ∨ ∃ text, before = text ++ ['/']

/-- A text ends in a name, which may be empty. -/
theorem exists_name (text : List Char) :
    ∃ before name, text = before ++ name ∧ Above before ∧ '/' ∉ name := by
  by_cases hslash : '/' ∈ text.reverse
  · obtain ⟨name, before, htext, hname⟩ := List.eq_append_cons_of_mem hslash
    refine ⟨before.reverse ++ ['/'], name.reverse, ?_, .inr ⟨_, rfl⟩, by rwa [List.mem_reverse]⟩
    rw [← text.reverse_reverse, htext]
    simp
  · exact ⟨[], text, rfl, .inl rfl, by rwa [List.mem_reverse] at hslash⟩

theorem Above.exists_pieces (h : Above before) :
    ∃ above, ∀ name, '/' ∉ name → pieces (before ++ name) = above ++ [name] := by
  obtain rfl | ⟨text, rfl⟩ := h
  · exact ⟨[], fun name hname => pieces_of_notMem hname⟩
  · refine ⟨pieces text, fun name hname => ?_⟩
    rw [List.append_assoc, List.singleton_append, pieces_append_slash, pieces_of_notMem hname]

/-! ## The last name -/

/-- The names in a text. -/
def namesOf (text : List Char) : List (List Char) :=
  ((pieces text).filter (!·.isEmpty)).filter (· != ['.'])

theorem namesOf_append_slash (text : List Char) : namesOf (text ++ ['/']) = namesOf text := by
  unfold namesOf
  rw [pieces_append_slash, List.filter_append, List.filter_append]
  exact List.append_nil _

theorem namesOf_append_slash_dot (text : List Char) :
    namesOf (text ++ ['/', '.']) = namesOf text := by
  unfold namesOf
  rw [pieces_append_slash, List.filter_append, List.filter_append]
  exact List.append_nil _

theorem namesOf_trimBack (backwards : List Char) :
    namesOf (upToName.trimBack backwards).reverse = namesOf backwards.reverse := by
  fun_induction upToName.trimBack backwards with
  | case1 rest ih => rw [ih, List.reverse_cons, namesOf_append_slash]
  | case2 rest ih =>
    rw [ih, List.reverse_cons, List.reverse_cons, List.append_assoc]
    exact (namesOf_append_slash_dot _).symm
  | case3 => rfl

theorem names_upToName (p : Path) : namesOf (upToName p.text.toList) = p.names := by
  unfold upToName
  rw [namesOf_trimBack, List.reverse_reverse]
  rfl

/-- Nothing is left that counts for nothing. -/
theorem trimBack_ne (backwards rest : List Char) :
    upToName.trimBack backwards ≠ '/' :: rest ∧ upToName.trimBack backwards ≠ '.' :: '/' :: rest := by
  fun_induction upToName.trimBack backwards with
  | case1 rest' ih => exact ih
  | case2 rest' ih => exact ih
  | case3 backwards hslash hdot => exact ⟨hslash rest, hdot rest⟩

theorem upToName_ne (text before : List Char) :
    upToName text ≠ before ++ ['/'] ∧ upToName text ≠ before ++ ['/', '.'] := by
  unfold upToName
  constructor
  · intro h
    refine (trimBack_ne text.reverse before.reverse).1 ?_
    rw [← List.reverse_reverse (upToName.trimBack _), h]
    simp
  · intro h
    refine (trimBack_ne text.reverse before.reverse).2 ?_
    rw [← List.reverse_reverse (upToName.trimBack _), h]
    simp

/-- A name that counts is the last of its text. -/
theorem namesOf_getLast? (hbefore : Above before) (hslash : '/' ∉ name) (hempty : name ≠ [])
    (hdot : name ≠ ['.']) : (namesOf (before ++ name)).getLast? = some name := by
  obtain ⟨above, habove⟩ := hbefore.exists_pieces
  unfold namesOf
  rw [habove name hslash, List.filter_append, List.filter_append,
    List.filter_cons_of_pos (by simpa using hempty), List.filter_nil,
    List.filter_cons_of_pos (by simpa using hdot), List.filter_nil, List.getLast?_concat]

/-- **A path with a file name ends in it**, but for what counts for nothing. -/
theorem exists_upToName (h : p.fileName? = some name) :
    ∃ before, upToName p.text.toList = before ++ name ∧ Above before ∧ '/' ∉ name := by
  obtain ⟨before, last, htext, hbefore, hslash⟩ := exists_name (upToName p.text.toList)
  have hnames : p.names = namesOf (before ++ last) := by rw [← htext, names_upToName]
  -- A text without a last name has no name at all, or ends in what is left out.
  have hfile : p.names ≠ [] := by
    intro hnone
    unfold fileName? at h
    rw [hnone] at h
    cases h
  have hempty : last ≠ [] := by
    rintro rfl
    obtain rfl | ⟨above, rfl⟩ := hbefore
    · exact hfile hnames
    · exact (upToName_ne _ above).1 (by rw [htext, List.append_nil])
  have hdot : last ≠ ['.'] := by
    rintro rfl
    obtain rfl | ⟨above, rfl⟩ := hbefore
    · exact hfile hnames
    · exact (upToName_ne _ above).2 (by rw [htext, List.append_assoc]; rfl)
  unfold fileName? at h
  rw [hnames, namesOf_getLast? hbefore hslash hempty hdot] at h
  simp only at h
  split_ifs at h
  cases h
  exact ⟨before, htext, hbefore, hslash⟩

/-! ## Places -/

/-- Where a step of a path leads to from a directory. -/
def stepFrom (dir : Key) (step : String) : Key :=
  if step = "." then dir else if step = ".." then dir.dropLast else dir ++ [step]

/-- Where a path starts. -/
def start (p : Path) : Key := if p.isAbsolute then [] else workDir

/-- The place of the file that a path is of. Dots lead to directories, and so does a slash at the
end. -/
def place? (p : Path) : Option Key :=
  let steps := p.steps.map String.ofList
  match steps.getLast? with
  | none => none
  | some name =>
    if name = "." || name = ".." || p.endsInSlash then none
    else some (steps.dropLast.foldl stepFrom p.start ++ [name])

/-- The last name of a place is the last step of its path. -/
theorem getLast?_of_place? (h : p.place? = some key) : ∃ above step, p.steps.getLast? = some step ∧
    key = above ++ [String.ofList step] ∧ step ≠ ['.'] ∧ step ≠ ['.', '.'] := by
  unfold place? at h
  simp only [List.getLast?_map] at h
  cases hlast : p.steps.getLast? with
  | none =>
    rw [hlast] at h
    cases h
  | some step =>
    rw [hlast] at h
    simp only [Option.map_some] at h
    split_ifs at h with hdots
    cases h
    refine ⟨_, step, rfl, rfl, ?_, ?_⟩
    · rintro rfl
      exact hdots rfl
    · rintro rfl
      exact hdots rfl

theorem steps_getLast? (htext : p.text.toList = before ++ name) (hbefore : Above before)
    (hslash : '/' ∉ name) (hempty : name ≠ []) : p.steps.getLast? = some name := by
  obtain ⟨above, habove⟩ := hbefore.exists_pieces
  unfold steps
  rw [htext, habove name hslash, List.filter_append,
    List.filter_cons_of_pos (by simpa using hempty), List.filter_nil, List.getLast?_concat]

/-- A path leads to a name that ends as the path does. -/
theorem place?_suffix (htext : p.text.toList = text ++ suffix) (hslash : '/' ∉ suffix)
    (hempty : suffix ≠ []) (h : p.place? = some key) :
    ∃ above name, key = above ++ [String.ofList (name ++ suffix)] := by
  obtain ⟨before, name, rfl, hbefore, hname⟩ := exists_name text
  rw [List.append_assoc] at htext
  have hlast := steps_getLast? htext hbefore (by simp [hname, hslash]) (by simp [hempty])
  obtain ⟨above, step, hstep, rfl, -⟩ := getLast?_of_place? h
  rw [hlast] at hstep
  cases hstep
  exact ⟨above, name, rfl⟩

/-- **A path below a directory leads to a name that ends as the path does.** -/
theorem place?_join {dir : Path} (name suffix : List Char) (hslash : '/' ∉ suffix)
    (hempty : suffix ≠ []) (htext : p.text.toList = name ++ suffix) (h : (dir.join p).place? = some key) :
    ∃ above name, key = above ++ [String.ofList (name ++ suffix)] := by
  have hjoin : ∃ text, (dir.join p).text.toList = text ++ suffix := by
    unfold join
    split_ifs
    · exact ⟨name, htext⟩
    · exact ⟨dir.text.toList ++ name, by simp [htext]⟩
    · exact ⟨dir.text.toList ++ '/' :: name, by simp [htext]⟩
  obtain ⟨text, htext⟩ := hjoin
  exact place?_suffix htext hslash hempty h

/-- A path without a file name leads to no file. -/
theorem place?_eq_none (h : p.fileName? = none) : p.place? = none := by
  cases hplace : p.place? with
  | none => rfl
  | some key =>
    obtain ⟨above, step, hstep, -, hdot, hdots⟩ := getLast?_of_place? hplace
    obtain ⟨before, hsteps⟩ := List.getLast?_eq_some_iff.mp hstep
    unfold fileName? names at h
    rw [hsteps, List.filter_append, List.filter_cons_of_pos (by simpa using hdot), List.filter_nil,
      List.getLast?_concat] at h
    simp only [if_neg hdots] at h
    cases h

theorem stemOf_prefix (name : List Char) : stemOf name <+: name := by
  have hsuffix := List.dropWhile_suffix (l := name.reverse) (· != '.')
  unfold stemOf
  split
  · exact List.prefix_rfl
  · rename_i dot before hdrop
    split_ifs
    · exact List.prefix_rfl
    · rw [hdrop] at hsuffix
      rw [← List.reverse_suffix, List.reverse_reverse]
      exact (List.suffix_cons dot before).trans hsuffix

/-- **A path with another extension leads to a name with that extension.** -/
theorem place?_withExtension {extension : String} (hslash : '/' ∉ extension.toList)
    (h : (p.withExtension extension).place? = some key) :
    ∃ above name, key = above ++ [String.ofList (name ++ '.' :: extension.toList)] := by
  cases hfile : p.fileName? with
  | none =>
    unfold withExtension at h
    rw [hfile] at h
    cases (place?_eq_none hfile).symm.trans h
  | some name =>
    obtain ⟨before, htext, hbefore, hname⟩ := exists_upToName hfile
    unfold withExtension at h
    rw [hfile] at h
    simp only at h
    split_ifs at h with hlast
    · -- A double dot is left, which leads to no file.
      obtain ⟨rest, hrest⟩ := stemOf_prefix name
      rw [hlast.1, List.singleton_append] at hrest
      have htake : (before ++ name).take ((before ++ name).length - (name.length - 1)) =
          before ++ ['.'] := by
        have hlength : (before ++ name).length - (name.length - 1) = before.length + 1 := by
          rw [List.length_append, ← hrest, List.length_cons]
          omega
        rw [hlength, List.take_length_add_append, ← hrest]
        rfl
      have htext' : (String.ofList (before ++ ['.']) ++ "." ++ "").toList = before ++ ['.', '.'] := by
        simp
      rw [htext, hlast.1, List.length_singleton, htake] at h
      obtain ⟨above, step, hstep, -, -, hdots⟩ := getLast?_of_place? h
      rw [steps_getLast? htext' hbefore (by decide) nofun] at hstep
      cases hstep
      exact (hdots rfl).elim
    · have hslash' : '/' ∉ '.' :: extension.toList := by simp [hslash]
      exact place?_suffix (by simp; rfl) hslash' nofun h

end NesMachine.Path
