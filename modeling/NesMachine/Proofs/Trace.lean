import Mathlib.Data.List.Basic
import NesMachine.Proofs.Text.Number
import NesMachine.Proofs.Text.Search
import NesMachine.Trace

/-!
# Trace lines are read back

A trace line is read by looking for labels, and one label may stand within another. A column starts
behind the leftmost of its labels that starts the text or follows a space.

* `column?_eq_some_iff`: the search, which goes on behind the labels it turns down, passes over none.
* `parse?_around`: the line of a record is read back, whatever a log puts between the address and the
  columns, and around the line.
* `reads_back`: both.
-/

namespace NesMachine.Trace

/-! ## Labels -/

/-- Whether a boundary stands behind a text: a space, or the start if the text is empty. -/
def boundary (start : Bool) (front : List Char) : Bool := (front.getLast?.map (· == ' ')).getD start

/-- A label stands in a text behind a boundary. -/
def Stands (start : Bool) (label text front rest : List Char) : Prop :=
  text = front ++ (label ++ rest) ∧ boundary start front = true

/-- Some text follows the leftmost label behind a boundary. -/
def Leads (start : Bool) (label text rest : List Char) : Prop :=
  ∃ front, Stands start label text front rest ∧
    ∀ front' rest', Stands start label text front' rest' → front.length ≤ front'.length

variable {start : Bool} {label text front rest : List Char} {c : Char}

theorem boundary_cons (start : Bool) (c : Char) (front : List Char) :
    boundary start (c :: front) = boundary (c == ' ') front := by
  cases front <;> rfl

theorem stands_nil : Stands start label text [] rest ↔ text = label ++ rest ∧ start = true := Iff.rfl

theorem stands_cons {c' : Char} : Stands start label (c :: text) (c' :: front) rest ↔
    c = c' ∧ Stands (c == ' ') label text front rest := by
  unfold Stands
  rw [boundary_cons, List.cons_append, List.cons.injEq]
  constructor
  · rintro ⟨⟨rfl, htext⟩, hboundary⟩
    exact ⟨rfl, htext, hboundary⟩
  · rintro ⟨rfl, htext, hboundary⟩
    exact ⟨⟨rfl, htext⟩, hboundary⟩

/-- No label starts a text: the leftmost one is that of the rest. -/
theorem leads_cons (h : ∀ rest, ¬ Stands start label (c :: text) [] rest) :
    Leads start label (c :: text) rest ↔ Leads (c == ' ') label text rest := by
  constructor
  · rintro ⟨front, hstands, hleft⟩
    cases front with
    | nil => exact absurd hstands (h rest)
    | cons c' front =>
      obtain ⟨rfl, hlater⟩ := stands_cons.mp hstands
      refine ⟨front, hlater, fun front' rest' hstands' => ?_⟩
      exact Nat.le_of_succ_le_succ (hleft (c :: front') rest' (stands_cons.mpr ⟨rfl, hstands'⟩))
  · rintro ⟨front, hstands, hleft⟩
    refine ⟨c :: front, stands_cons.mpr ⟨rfl, hstands⟩, fun front' rest' hstands' => ?_⟩
    cases front' with
    | nil => exact absurd hstands' (h rest')
    | cons c' front' =>
      exact Nat.succ_le_succ (hleft front' rest' (stands_cons.mp hstands').2)

/-- A label that starts a text is the leftmost one. -/
theorem leads_start : Leads true label (label ++ text) rest ↔ rest = text := by
  have hstart : Stands true label (label ++ text) [] text := ⟨rfl, rfl⟩
  constructor
  · rintro ⟨front, hstands, hleft⟩
    obtain rfl := List.length_eq_zero_iff.mp (Nat.le_zero.mp (hleft [] text hstart))
    exact (List.append_cancel_left hstands.1).symm
  · rintro rfl
    exact ⟨[], hstart, fun _ _ _ => Nat.zero_le _⟩

/-- The characters passed over hold no space, so no label behind a boundary starts among them. -/
theorem columnFrom_eq_some_iff (hne : label ≠ []) (hspace : ' ' ∉ label) {passed : Nat}
    (hstart : 0 < passed → start = false) (hpassed : ' ' ∉ text.take passed) :
    columnFrom label start passed text = some rest ↔ Leads start label text rest := by
  induction text generalizing start passed with
  | nil =>
    refine ⟨fun h => (nomatch h), fun ⟨front, hstands, _⟩ => absurd hstands.1 ?_⟩
    simp [hne]
  | cons c text ih =>
    obtain ⟨first, tail, rfl⟩ := List.exists_cons_of_ne_nil hne
    rw [columnFrom]
    by_cases hlabel : passed = 0 ∧ first :: tail <+: c :: text
    · obtain ⟨rfl, hprefix⟩ := hlabel
      rw [if_pos (by simpa using hprefix)]
      obtain ⟨behind, hbehind⟩ := hprefix
      cases start with
      | true =>
        rw [if_pos rfl, ← hbehind, List.drop_left, leads_start, Option.some.injEq, eq_comm]
      | false =>
        obtain ⟨rfl, rfl⟩ := List.cons.inj hbehind
        have hfirst : (first == ' ') = false := by
          rw [beq_eq_false_iff_ne]
          rintro rfl
          exact hspace List.mem_cons_self
        have htail : ' ' ∉ (tail ++ behind).take ((first :: tail).length - 1) := by
          rw [List.length_cons, Nat.add_sub_cancel, List.take_left]
          exact fun hmem => hspace (List.mem_cons_of_mem _ hmem)
        rw [if_neg Bool.false_ne_true]
        exact (ih (fun _ => hfirst) htail).trans
          (leads_cons fun rest hstands => Bool.false_ne_true hstands.2).symm
    · have hnone : ∀ rest, ¬ Stands start (first :: tail) (c :: text) [] rest := by
        intro rest hstands
        obtain ⟨htext, hboundary⟩ := stands_nil.mp hstands
        rcases Nat.eq_zero_or_pos passed with hzero | hpos
        · exact hlabel ⟨hzero, htext ▸ List.prefix_append ..⟩
        · rw [hstart hpos] at hboundary
          cases hboundary
      rw [if_neg (by simpa using hlabel), leads_cons hnone]
      refine ih (fun hpos => ?_) fun hmem => ?_
      · obtain ⟨n, rfl⟩ := Nat.exists_eq_succ_of_ne_zero (show passed ≠ 0 by omega)
        rw [beq_eq_false_iff_ne]
        rintro rfl
        exact hpassed List.mem_cons_self
      · cases passed with
        | zero => simp at hmem
        | succ n => exact hpassed (List.mem_cons_of_mem _ hmem)

/-- A label without a space is found where it stands leftmost behind a boundary. -/
theorem column?_eq_some_iff (hne : label ≠ []) (hspace : ' ' ∉ label) :
    column? label text = some rest ↔ Leads true label text rest :=
  columnFrom_eq_some_iff hne hspace (fun h => absurd h (Nat.lt_irrefl 0)) List.not_mem_nil

/-- A label behind a boundary is the leftmost one if its first character stands nowhere before. -/
theorem leads_append {first : Char} (hfront : first ∉ front)
    (hboundary : boundary start front = true) :
    Leads start (first :: label) (front ++ (first :: label ++ rest)) rest := by
  refine ⟨front, ⟨rfl, hboundary⟩, fun front' rest' hstands => Nat.le_of_not_lt fun hlt => ?_⟩
  have hfirst : (front ++ (first :: label ++ rest))[front'.length]? = some first := by
    rw [hstands.1, List.getElem?_append_right (Nat.le_refl _), Nat.sub_self]
    rfl
  rw [List.getElem?_append_left hlt] at hfirst
  exact hfront (List.mem_of_getElem? hfirst)

/-! ## Columns -/

/-- A byte in two hexadecimal digits. -/
def digitsOf (b : UInt8) : List Char := Radix.fixed 16 2 b.toNat

theorem digits_digitsOf (b : UInt8) : Integer.Digits 16 b.toNat (digitsOf b) := by
  have h : Integer.Digits 16 (b.toNat % 16 ^ 2) (digitsOf b) :=
    Integer.digits_fixed (by decide) (by decide) 2 b.toNat
  rwa [Nat.mod_eq_of_lt (show b.toNat < 16 ^ 2 from b.toNat_lt)] at h

theorem readUInt8_digitsOf (b : UInt8) : Integer.readUInt8 16 (digitsOf b) = .ok b :=
  (digits_digitsOf b).readUInt8 (List.ne_nil_of_length_pos (by simp [digitsOf]))

/-- The columns of two digits with their labels. -/
def cells (r : Record) : List (List Char × UInt8) :=
  [(['A', ':'], r.a), (['X', ':'], r.x), (['Y', ':'], r.y), (['P', ':'], r.p),
    (['S', 'P', ':'], r.sp)]

/-- A column and the space behind it. -/
def cellText (cell : List Char × UInt8) : List Char := cell.1 ++ (digitsOf cell.2 ++ [' '])

/-- The cycles and their label. -/
def clockText (r : Record) : List Char := ['C', 'Y', 'C', ':'] ++ (toString r.cycles.toNat).toList

/-- The numbers of the beam's position, each in its column. -/
def positionText (r : Record) : List Char :=
  (Radix.padLeft 3 (toString r.scanline.toInt)).toList ++
    ',' :: ((Radix.padLeft 3 (toString r.dot.toNat)).toList ++ [' '])

theorem toList_byteHex (b : UInt8) : (Radix.byteHex b).toList = digitsOf b := String.toList_ofList

theorem toList_columns (r : Record) : r.columns.toList =
    (cells r).flatMap cellText ++ (['P', 'P', 'U', ':'] ++ (positionText r ++ clockText r)) := by
  unfold Record.columns
  repeat rw [String.toList_append]
  simp only [toList_byteHex, String.reduceToList, cells, cellText, positionText, clockText,
    List.flatMap_cons, List.flatMap_nil, List.append_assoc, List.cons_append, List.nil_append]

/-- Every column ends with a space, so another one can follow. -/
theorem boundary_cells (cells : List (List Char × UInt8)) :
    boundary true (cells.flatMap cellText) = true := by
  rcases List.eq_nil_or_concat cells with rfl | ⟨cells, cell, rfl⟩
  · rfl
  · simp [boundary, cellText]

/-- Besides digits and spaces there are only the labels. -/
theorem notMem_cells {c : Char} (hdigit : Integer.digitIn? 16 c = none) (hspace : c ≠ ' ')
    {cells : List (List Char × UInt8)} (h : ∀ label ∈ cells.map Prod.fst, c ∉ label) :
    c ∉ cells.flatMap cellText := by
  intro hmem
  obtain ⟨cell, hcell, hmem⟩ := List.mem_flatMap.mp hmem
  rcases List.mem_append.mp hmem with hlabel | hmem
  · exact h cell.1 (List.mem_map_of_mem hcell) hlabel
  · rcases List.mem_append.mp hmem with hdigits | hend
    · exact (digits_digitsOf cell.2).not_mem hdigit hdigits
    · exact hspace (List.mem_singleton.mp hend)

/-- A column is read behind its label, if the first character of that stands nowhere before. -/
theorem byteColumn?_cell {r : Record} {label : String} {first : Char} {tail : List Char} {b : UInt8}
    (before : List (List Char × UInt8)) {after : List (List Char × UInt8)}
    (hcells : cells r = before ++ (first :: tail, b) :: after)
    (hlabel : label.toList = first :: tail) (hspace : ' ' ∉ first :: tail)
    (hfirst : first ∉ before.flatMap cellText) : byteColumn? label r.columns.toList = some b := by
  obtain ⟨rest, hrest⟩ : ∃ rest, r.columns.toList =
      before.flatMap cellText ++ (first :: tail ++ (digitsOf b ++ rest)) := by
    rw [toList_columns, hcells, List.flatMap_append, List.flatMap_cons]
    exact ⟨_, by simp only [cellText, List.append_assoc]; rfl⟩
  have hcolumn : column? (first :: tail) r.columns.toList = some (digitsOf b ++ rest) := by
    rw [column?_eq_some_iff (List.cons_ne_nil _ _) hspace, hrest]
    exact leads_append hfirst (boundary_cells before)
  have hlength : (digitsOf b).length = 2 := Radix.length_fixed ..
  have htake : (digitsOf b ++ rest).take 2 = digitsOf b := hlength ▸ List.take_left
  have hlong : ¬ (digitsOf b ++ rest).length < 2 := by
    rw [List.length_append]
    omega
  rw [byteColumn?, hlabel, hcolumn]
  simp only [Option.bind_eq_bind, Option.bind_some, htake, readUInt8_digitsOf]
  rw [if_neg hlong]
  rfl

/-- Each byte is read from its column. -/
theorem byteColumn?_columns (r : Record) :
    byteColumn? "A:" r.columns.toList = some r.a ∧ byteColumn? "X:" r.columns.toList = some r.x ∧
      byteColumn? "Y:" r.columns.toList = some r.y ∧ byteColumn? "P:" r.columns.toList = some r.p ∧
        byteColumn? "SP:" r.columns.toList = some r.sp := by
  refine ⟨?_, ?_, ?_, ?_, ?_⟩
  · exact byteColumn?_cell [] rfl rfl (by decide) List.not_mem_nil
  · exact byteColumn?_cell ((cells r).take 1) rfl rfl (by decide)
      (notMem_cells rfl (by decide) (by simp [cells]))
  · exact byteColumn?_cell ((cells r).take 2) rfl rfl (by decide)
      (notMem_cells rfl (by decide) (by simp [cells]))
  · exact byteColumn?_cell ((cells r).take 3) rfl rfl (by decide)
      (notMem_cells rfl (by decide) (by simp [cells]))
  · exact byteColumn?_cell ((cells r).take 4) rfl rfl (by decide)
      (notMem_cells rfl (by decide) (by simp [cells]))

/-! ## Numbers of other columns -/

theorem toList_padLeft (width : Nat) (text : String) : (Radix.padLeft width text).toList =
    List.replicate (width - text.length) ' ' ++ text.toList := by
  rw [Radix.padLeft, String.toList_append, String.toList_ofList]

/-- The text behind the label of the position. -/
theorem position_found (r : Record) : Text.after? ['P', 'P', 'U', ':'] r.columns.toList =
    some (positionText r ++ clockText r) := by
  rw [toList_columns]
  refine Text.after?_append ⟨['P', 'P', 'U'], ':', rfl, by decide⟩ fun hheld => ?_
  exact notMem_cells rfl (by decide) (by simp [cells]) (hheld.subset (by decide : 'U' ∈ _))

theorem notMem_positionText {c : Char} (hdigit : Integer.digitIn? 10 c = none)
    (hother : c ∉ ['-', ',', ' ']) (r : Record) : c ∉ positionText r := by
  simp only [List.mem_cons, List.not_mem_nil, or_false, not_or] at hother
  have hscanline := Integer.notMem_toString hdigit hother.1 r.scanline.toInt
  have hdot := (Integer.digits_toString r.dot.toNat).not_mem hdigit
  simp only [positionText, toList_padLeft, List.mem_append, List.mem_cons, List.mem_replicate,
    List.not_mem_nil, hscanline, hdot, hother, and_false, or_false, not_false_eq_true]

/-- The text behind the label of the cycles. The label does not stand before: its second character
does so once, and behind a space. -/
theorem clock_found (r : Record) : Text.after? ['C', 'Y', 'C', ':'] r.columns.toList =
    some (toString r.cycles.toNat).toList := by
  have hcolumns : r.columns.toList = (cells r).flatMap cellText ++
      (['P', 'P', 'U', ':'] ++ positionText r) ++
        (['C', 'Y', 'C', ':'] ++ (toString r.cycles.toNat).toList) := by
    rw [toList_columns, clockText]
    simp only [List.append_assoc]
  rw [hcolumns]
  refine Text.after?_append ⟨['C', 'Y', 'C'], ':', rfl, by decide⟩ ?_
  rintro ⟨before, behind, heq⟩
  obtain ⟨later, hlater, hsplit⟩ : ∃ later, 'Y' ∉ later ∧ (cells r).flatMap cellText ++
      (['P', 'P', 'U', ':'] ++ positionText r) =
        ((cells r).take 2).flatMap cellText ++ 'Y' :: later := by
    refine ⟨':' :: (digitsOf r.y ++ ' ' :: (((cells r).drop 3).flatMap cellText ++
      (['P', 'P', 'U', ':'] ++ positionText r))), ?_, by simp [cells, cellText]⟩
    have hdigits := (digits_digitsOf r.y).not_mem (show Integer.digitIn? 16 'Y' = none from rfl)
    have hcells : 'Y' ∉ ((cells r).drop 3).flatMap cellText :=
      notMem_cells rfl (by decide) (by simp [cells])
    have hposition : 'Y' ∉ positionText r := notMem_positionText rfl (by decide) r
    simp [hdigits, hcells, hposition]
  have hfirst : 'Y' ∉ ((cells r).take 2).flatMap cellText :=
    notMem_cells rfl (by decide) (by simp [cells])
  have hsame : ((cells r).take 2).flatMap cellText ++ 'Y' :: later =
      (before ++ ['C']) ++ 'Y' :: ('C' :: ':' :: behind) := by
    rw [← hsplit, ← heq]
    simp
  obtain ⟨hbefore, -⟩ := (List.append_cons_inj_of_notMem hfirst hlater).mp hsame
  have hspace := boundary_cells ((cells r).take 2)
  rw [hbefore] at hspace
  simp [boundary] at hspace

/-- The first two words of the position are its numbers. -/
theorem position_words (r : Record) : ∃ later,
    Text.words (fun c => c == ',' || c == ' ') (positionText r ++ clockText r) =
      (toString r.scanline.toInt).toList :: (toString r.dot.toNat).toList :: later := by
  have hspaces (width : Nat) : ∀ c ∈ List.replicate width ' ', (c == ',' || c == ' ') = true := by
    intro c hc
    rw [List.eq_of_mem_replicate hc]
    rfl
  have hword {word : List Char} (hcomma : ',' ∉ word) (hspace : ' ' ∉ word) :
      ∀ c ∈ word, (c == ',' || c == ' ') = false := by
    intro c hc
    rw [Bool.or_eq_false_iff, beq_eq_false_iff_ne, beq_eq_false_iff_ne]
    exact ⟨fun h => hcomma (h ▸ hc), fun h => hspace (h ▸ hc)⟩
  have hdigits := Integer.digits_toString r.dot.toNat
  have hscanline := hword (Integer.notMem_toString rfl (by decide) r.scanline.toInt)
    (Integer.notMem_toString rfl (by decide) r.scanline.toInt)
  have hdot := hword (hdigits.not_mem rfl) (hdigits.not_mem rfl)
  refine ⟨Text.words (fun c => c == ',' || c == ' ') (clockText r), ?_⟩
  simp only [positionText, toList_padLeft, List.append_assoc, List.cons_append, List.nil_append]
  rw [Text.words_skip (hspaces _), Text.words_append (Integer.toString_int_ne_nil _) hscanline rfl,
    Text.words_skip (hspaces _), Text.words_append (Integer.toString_ne_nil _) hdot rfl]

/-! ## Lines -/

/-- The columns are where their first label is. What stands between the address and them begins with a
space and does not hold that label. -/
theorem columns_found (r : Record) {address text : List Char} (haddress : ':' ∉ address)
    (hspace : text.head? = some ' ') (hlabel : ¬ ['A', ':'] <:+: text) :
    Text.dropUntil? ['A', ':'] (address ++ (text ++ r.columns.toList)) =
      some r.columns.toList := by
  obtain ⟨rest, hcolumns⟩ : ∃ rest, r.columns.toList = ['A', ':'] ++ rest := by
    rw [toList_columns]
    exact ⟨_, rfl⟩
  rw [hcolumns, ← List.append_assoc]
  refine Text.dropUntil?_append ⟨['A'], ':', rfl, by decide⟩ ?_
  rintro ⟨before, behind, heq⟩
  obtain ⟨tail, rfl⟩ : ∃ tail, text = ' ' :: tail := by
    obtain ⟨tail, htail⟩ := List.head?_eq_some_iff.mp hspace
    exact ⟨tail, htail⟩
  rw [List.append_assoc] at heq
  rcases List.append_eq_append_iff.mp heq with ⟨middle, haddr, htext⟩ | ⟨middle, -, htext⟩
  · -- The label begins in the address: it has no colon there, nor does the text begin with one.
    rcases middle with _ | ⟨c, _ | ⟨c', middle⟩⟩
    · cases (List.cons.inj htext).1
    · cases (List.cons.inj (List.cons.inj htext).2).1
    · have hcolon : ':' = c' := (List.cons.inj (List.cons.inj htext).2).1
      exact haddress (by rw [haddr, hcolon]; simp)
  · exact hlabel ⟨middle, behind, by rw [htext]; simp⟩

/-- The digits of an address. -/
theorem digits_address (w : UInt16) :
    Integer.Digits 16 w.toNat (Radix.wordHex w).toList ∧ (Radix.wordHex w).toList.length = 4 := by
  have hdigits : Integer.Digits 16 (w.toNat % 16 ^ 4) (Radix.fixed 16 4 w.toNat) :=
    Integer.digits_fixed (by decide) (by decide) 4 w.toNat
  rw [Nat.mod_eq_of_lt (show w.toNat < 16 ^ 4 from w.toNat_lt)] at hdigits
  rw [Radix.wordHex, String.toList_ofList]
  exact ⟨hdigits, Radix.length_fixed ..⟩

/-- The last character of the columns is a digit. -/
theorem getLast?_columns (r : Record) :
    r.columns.toList.getLast? = (toString r.cycles.toNat).toList.getLast? := by
  rw [toList_columns, clockText, ← List.append_assoc, ← List.append_assoc, ← List.append_assoc,
    List.getLast?_append_of_ne_nil _ (Integer.toString_ne_nil _)]

/-- **A record is read back from its line**, whatever a log puts between the address and the columns,
and around the line. -/
theorem parse?_around (r : Record) {before text behind : List Char}
    (hbefore : ∀ c ∈ before, Text.isBlank c = true) (hbehind : ∀ c ∈ behind, Text.isBlank c = true)
    (hspace : text.head? = some ' ') (hlabel : ¬ ['A', ':'] <:+: text) :
    Record.parse? (before ++ ((Radix.wordHex r.pc).toList ++ (text ++ r.columns.toList) ++ behind)) =
      some r := by
  obtain ⟨hdigits, hlength⟩ := digits_address r.pc
  have hcycles := Integer.digits_toString r.cycles.toNat
  have hcyclesNe := Integer.toString_ne_nil r.cycles.toNat
  generalize haddress : (Radix.wordHex r.pc).toList = address at hdigits hlength ⊢
  have hne : address ≠ [] := List.ne_nil_of_length_pos (by omega)
  have htrim : Text.trim Text.isBlank (before ++ (address ++ (text ++ r.columns.toList) ++ behind)) =
      address ++ (text ++ r.columns.toList) := by
    refine Text.trim_append hbefore hbehind (fun c hc => ?_) (fun c hc => ?_)
    · rw [List.head?_append_of_ne_nil _ hne] at hc
      exact Integer.not_isBlank_of_digit (hdigits.isDigit c (List.mem_of_mem_head? hc))
    · have hcolumns : r.columns.toList ≠ [] := by rw [toList_columns]; exact List.cons_ne_nil _ _
      rw [← List.append_assoc, List.getLast?_append_of_ne_nil _ hcolumns, getLast?_columns] at hc
      exact Integer.not_isBlank_of_digit (hcycles.isDigit c (List.mem_of_mem_getLast? hc))
  have htake : (address ++ (text ++ r.columns.toList)).take 4 = address := hlength ▸ List.take_left
  have hpc := hdigits.readUInt16 hne
  have hcolumns := columns_found r (hdigits.not_mem rfl) hspace hlabel
  obtain ⟨later, hwords⟩ := position_words r
  have hdot := (Integer.digits_toString r.dot.toNat).readUInt16 (Integer.toString_ne_nil _)
  have hclock := Text.words_of_all hcyclesNe fun c hc =>
    Integer.not_isBlank_of_digit (hcycles.isDigit c hc)
  have hread := hcycles.readUInt64 hcyclesNe
  obtain ⟨ha, hx, hy, hp, hsp⟩ := byteColumn?_columns r
  have hlong : ¬ (address ++ (text ++ r.columns.toList)).length < 4 := by
    rw [List.length_append]
    omega
  have hlabels : "A:".toList = ['A', ':'] ∧ "PPU:".toList = ['P', 'P', 'U', ':'] ∧
      "CYC:".toList = ['C', 'Y', 'C', ':'] := ⟨rfl, rfl, rfl⟩
  unfold Record.parse?
  simp only [htrim, hlong, htake, hpc, hlabels, hcolumns, position_found, hwords, clock_found, hclock,
    hread, hdot, Integer.readInt16_toString, ha, hx, hy, hp, hsp, Except.toOption, List.head?_cons,
    List.getElem?_cons_zero, List.getElem?_cons_succ, Option.bind_eq_bind, Option.bind_some, if_false,
    Option.pure_def]

/-! ## Everything read -/

/-- A byte is read from the two characters behind the leftmost label behind a boundary. -/
theorem byteColumn?_eq_some_iff {label : String} (hne : label.toList ≠ [])
    (hspace : ' ' ∉ label.toList) {text : List Char} {b : UInt8} :
    byteColumn? label text = some b ↔ ∃ high low rest,
      Leads true label.toList text (high :: low :: rest) ∧
        Integer.readUInt8 16 [high, low] = .ok b := by
  have hread (pair : List Char) : (Integer.readUInt8 16 pair).toOption = some b ↔
      Integer.readUInt8 16 pair = .ok b := by
    cases Integer.readUInt8 16 pair <;> simp [Except.toOption]
  simp only [← column?_eq_some_iff hne hspace, byteColumn?, Option.bind_eq_bind,
    Option.bind_eq_some_iff]
  constructor
  · rintro ⟨rest, hcolumn, hbyte⟩
    split at hbyte
    · cases hbyte
    · rename_i hlength
      obtain ⟨high, low, rest, rfl⟩ : ∃ high low rest', rest = high :: low :: rest' := by
        match rest, hlength with
        | high :: low :: rest, _ => exact ⟨high, low, rest, rfl⟩
        | [_], h => exact absurd Nat.one_lt_two h
        | [], h => exact absurd Nat.two_pos h
      exact ⟨high, low, rest, hcolumn, (hread _).mp hbyte⟩
  · rintro ⟨high, low, rest, hcolumn, hbyte⟩
    refine ⟨_, hcolumn, ?_⟩
    rw [if_neg (by simp)]
    exact (hread _).mpr hbyte

/-- A label is not read from the end of a longer one. -/
theorem not_leads_within {longer : Char} (hlonger : longer ≠ ' ') :
    ¬ Leads true label (front ++ (longer :: label ++ rest)) rest := by
  rintro ⟨front', ⟨htext, hboundary⟩, -⟩
  have hfront : front ++ [longer] = front' := by
    have hsame : (front ++ [longer]) ++ (label ++ rest) = front' ++ (label ++ rest) := by
      rw [← htext]
      simp
    exact List.append_cancel_right hsame
  rw [← hfront] at hboundary
  simp [boundary, hlonger] at hboundary

/-- **Trace lines are read back.** A record is read from its line, and from that line with any text
between the address and the columns that begins with a space and does not hold the first label, white
space around it all. A column starts behind the leftmost of its labels that starts the text or follows
a space, and its byte is in two digits there; `P:` is never read from `SP:`. -/
theorem reads_back (r : Record) :
    Record.parse? r.line.toList = some r ∧
      (∀ before text behind : List Char, (∀ c ∈ before, Text.isBlank c = true) →
        (∀ c ∈ behind, Text.isBlank c = true) → text.head? = some ' ' → ¬ ['A', ':'] <:+: text →
          Record.parse? (before ++
            ((Radix.wordHex r.pc).toList ++ (text ++ r.columns.toList) ++ behind)) = some r) ∧
      (∀ (label : String) (text : List Char), label.toList ≠ [] → ' ' ∉ label.toList →
        (∀ rest, column? label.toList text = some rest ↔ Leads true label.toList text rest) ∧
          ∀ b, byteColumn? label text = some b ↔ ∃ high low rest,
            Leads true label.toList text (high :: low :: rest) ∧
              Integer.readUInt8 16 [high, low] = .ok b) ∧
      ∀ front rest : List Char,
        column? ['P', ':'] (front ++ (['S', 'P', ':'] ++ rest)) ≠ some rest := by
  refine ⟨?_, fun _ _ _ => parse?_around r, fun _ _ hne hspace =>
    ⟨fun _ => column?_eq_some_iff hne hspace, fun _ => byteColumn?_eq_some_iff hne hspace⟩,
    fun front rest hcolumn => ?_⟩
  · have hnone : ∀ c ∈ ([] : List Char), Text.isBlank c = true := by simp
    have hplain := parse?_around r hnone hnone (show [' '].head? = some ' ' from rfl) (by decide)
    have hline : r.line.toList = (Radix.wordHex r.pc).toList ++ ([' '] ++ r.columns.toList) := by
      rw [Record.line, String.toList_append, String.toList_append, List.append_assoc]
      rfl
    rw [hline]
    simpa only [List.nil_append, List.append_nil] using hplain
  · rw [column?_eq_some_iff (List.cons_ne_nil _ _) (by decide)] at hcolumn
    exact not_leads_within (by decide) hcolumn

/-- A line of a log, on the scanline before the first one. The text between could begin labels. -/
theorem reads_back_shift :
    let r : Record := ⟨0xC72A, 0, 0, 0, 0x6E, 0xFB, -1, 183, 3549⟩
    let text := [' ', ' ', '4', 'A', ' ', 'L', 'S', 'R', ' ', 'A', ' ', 'S', 'P', ':', 'A']
    text.head? = some ' ' ∧ ¬ ['A', ':'] <:+: text ∧
      Record.parse? (['\t'] ++
        ((Radix.wordHex r.pc).toList ++ (text ++ r.columns.toList) ++ ['\r', '\n'])) = some r := by
  intro r text
  have hspace : text.head? = some ' ' := by decide
  have hlabel : ¬ ['A', ':'] <:+: text := by decide
  exact ⟨hspace, hlabel,
    (reads_back r).2.1 ['\t'] text ['\r', '\n'] (List.all_eq_true.mp (by decide))
      (List.all_eq_true.mp (by decide)) hspace hlabel⟩

end NesMachine.Trace
