import Mathlib.Algebra.Group.Nat.Defs
import Roster.Proofs.Terminal.Cells
import Roster.Terminal.Table

/-!
# Tables of narrow descriptors

Where every character takes one cell, the cells of a text are its characters. If the positions
and the descriptors of a table are such texts and not too long, none of them is cut: each row
holds its position and its descriptor as they are, and all lines are equally wide.
-/

namespace Roster.Terminal

/-- The largest of some numbers is bounded if each of them is. -/
theorem foldl_max_le_iff {numbers : List Nat} {least bound : Nat} :
    numbers.foldl max least ≤ bound ↔ least ≤ bound ∧ ∀ number ∈ numbers, number ≤ bound := by
  induction numbers generalizing least with
  | nil => simp
  | cons first others inductionHypothesis =>
      rw [List.foldl_cons, inductionHypothesis, Nat.max_le, List.forall_mem_cons, and_assoc]

/-- A text whose characters take one cell each. -/
def IsNarrow (text : List Char) : Prop := ∀ c ∈ text, cellWidth c = 1

namespace IsNarrow

variable {text front behind : List Char} {c : Char}

theorem nil : IsNarrow [] := List.forall_mem_nil _

theorem cons (narrow : cellWidth c = 1) (others : IsNarrow text) : IsNarrow (c :: text) :=
  List.forall_mem_cons.2 ⟨narrow, others⟩

theorem append (first : IsNarrow front) (second : IsNarrow behind) : IsNarrow (front ++ behind) :=
  List.forall_mem_append.2 ⟨first, second⟩

theorem replicate (narrow : cellWidth c = 1) (count : Nat) :
    IsNarrow (List.replicate count c) := fun d member => by
  rw [List.eq_of_mem_replicate member, narrow]

theorem of_all (all : text.all (fun c => cellWidth c == 1) = true) : IsNarrow text :=
  fun c member => eq_of_beq (List.all_eq_true.1 all c member)

/-- Visible characters of ASCII are narrow. -/
theorem of_ascii (visible : ∀ c ∈ text, 0x20 ≤ c.toNat ∧ c.toNat ≤ 0x7E) : IsNarrow text := by
  intro c member
  obtain ⟨low, high⟩ := visible c member
  rw [cellWidth, if_neg (Nat.not_lt.2 low), if_pos (Nat.lt_succ_of_le high)]

/-- A narrow character is neither a joiner nor a selector. -/
theorem ne_joiner (narrow : cellWidth c = 1) : c ≠ joiner ∧ c ≠ selector := by
  constructor
  · rintro rfl
    revert narrow
    decide +kernel
  · rintro rfl
    revert narrow
    decide +kernel

/-- Each narrow character opens a cluster of one cell. -/
theorem totalWidth_clustersBehind (narrow : IsNarrow text) (current : Cluster)
    (measured : Option Char) :
    totalWidth (clustersBehind current measured false text) = current.width + text.length := by
  induction text generalizing current measured with
  | nil => rfl
  | cons c rest inductionHypothesis =>
      obtain ⟨one, others⟩ := List.forall_mem_cons.1 narrow
      obtain ⟨noJoiner, noSelector⟩ := ne_joiner one
      rw [clustersBehind, if_neg Bool.false_ne_true, if_neg noJoiner, if_neg noSelector,
        if_neg (by rw [one]; decide), totalWidth, inductionHypothesis others, Cluster.opened, one,
        List.length_cons, Nat.add_comm 1]

/-- The cells of a narrow text are its characters. -/
theorem cells_eq (narrow : IsNarrow text) : cells text = text.length := by
  cases text with
  | nil => rfl
  | cons c rest =>
      obtain ⟨one, others⟩ := List.forall_mem_cons.1 narrow
      have noJoiner : (c :: rest).head? ≠ some joiner := by simpa using (ne_joiner one).1
      rw [cells_eq_clusterCells noJoiner, clusterCells, clusters, totalWidth_clustersBehind others,
        Cluster.opened, one, List.length_cons, Nat.add_comm]

/-- A narrow text that is not longer than its column is not abridged. -/
theorem abridge_eq (narrow : IsNarrow text) {width : Nat} (fits : text.length ≤ width) :
    abridge width text = text := by
  rw [abridge, narrow.cells_eq, if_pos fits]

end IsNarrow

/-- A number of spaces. -/
def spaces (count : Nat) : List Char := List.replicate count ' '

/-- A line of a table that holds two texts as they are, the first at the right of its column and
the second at the left of its own. -/
inductive IsTableLine (columns : ColumnWidths) (bar : Char) (index descriptor : List Char) :
    List Char → Prop where
  | padded (left right : Nat) (fillsIndex : left + index.length = columns.index)
      (fillsDescriptor : descriptor.length + right = columns.descriptor) :
      IsTableLine columns bar index descriptor
        ([bar, ' '] ++ spaces left ++ index ++ [' ', bar, ' '] ++ descriptor ++ spaces right ++
          [' ', bar])

/-- The lines of a table with a header and rows. -/
def linesOfTable (columns : ColumnWidths) (header : List Char) (rows : List (List Char)) :
    List (List Char) :=
  [Border.top.render columns, header, Border.middle.render columns] ++ rows ++
    [Border.bottom.render columns]

/-- A table whose rows hold descriptors one by one, each behind its position. -/
structure IsTable (descriptors : List String) (columns : ColumnWidths) (header : List Char)
    (rows : List (List Char)) : Prop where
  isHeader : IsTableLine columns '┃' ['#'] "Descriptor".toList header
  count : rows.length = descriptors.length
  isRow : ∀ (index : Nat) (descriptor : String), descriptors[index]? = some descriptor →
    ∃ row, rows[index]? = some row ∧
      IsTableLine columns '│' (toString index).toList descriptor.toList row

section Line

variable {columns : ColumnWidths} {bar : Char} {index descriptor line : List Char}

/-- The characters of a line of narrow texts take one cell each. -/
theorem IsTableLine.isNarrow (isLine : IsTableLine columns bar index descriptor line)
    (narrowBar : cellWidth bar = 1) (narrowIndex : IsNarrow index)
    (narrowDescriptor : IsNarrow descriptor) : IsNarrow line := by
  obtain ⟨left, right, -, -⟩ := isLine
  have space : cellWidth ' ' = 1 := rfl
  have bars : IsNarrow [bar, ' '] := .cons narrowBar (.cons space .nil)
  have middle : IsNarrow [' ', bar, ' '] := .cons space bars
  have last : IsNarrow [' ', bar] := .cons space (.cons narrowBar .nil)
  exact (((((bars.append (.replicate space left)).append narrowIndex).append middle).append
    narrowDescriptor).append (.replicate space right)).append last

/-- A line is as long as its columns are wide. -/
theorem IsTableLine.length_eq (isLine : IsTableLine columns bar index descriptor line) :
    line.length = columns.total := by
  obtain ⟨left, right, fillsIndex, fillsDescriptor⟩ := isLine
  simp [spaces, ColumnWidths.total, ColumnWidths.frame]
  omega

/-- Narrow texts that are not longer than their columns are not changed in a line. -/
theorem isTableLine_tableLine (bar : Char) (narrowIndex : IsNarrow index)
    (narrowDescriptor : IsNarrow descriptor) (fitsIndex : index.length ≤ columns.index)
    (fitsDescriptor : descriptor.length ≤ columns.descriptor) :
    IsTableLine columns bar index descriptor (tableLine bar columns index descriptor) := by
  have line : tableLine bar columns index descriptor =
      [bar, ' '] ++ spaces (columns.index - index.length) ++ index ++ [' ', bar, ' '] ++
        descriptor ++ spaces (columns.descriptor - descriptor.length) ++ [' ', bar] := by
    rw [tableLine, padStart, padEnd, narrowDescriptor.abridge_eq fitsDescriptor,
      narrowIndex.cells_eq, narrowDescriptor.cells_eq]
    simp [spaces]
  rw [line]
  exact .padded _ _ (Nat.sub_add_cancel fitsIndex) (Nat.add_sub_of_le fitsDescriptor)

end Line

namespace Border

/-- The characters of a border take one cell each. -/
structure IsNarrow (border : Border) : Prop where
  left : cellWidth border.left = 1
  line : cellWidth border.line = 1
  crossing : cellWidth border.crossing = 1
  right : cellWidth border.right = 1

theorem length_render (border : Border) (columns : ColumnWidths) :
    (border.render columns).length = columns.total := by
  simp [render, ColumnWidths.total, ColumnWidths.frame]
  omega

theorem IsNarrow.render {border : Border} (narrow : border.IsNarrow) (columns : ColumnWidths) :
    Terminal.IsNarrow (border.render columns) :=
  (((Terminal.IsNarrow.cons narrow.left .nil |>.append (.replicate narrow.line _)).append
    (.cons narrow.crossing .nil)).append (.replicate narrow.line _)).append
    (.cons narrow.right .nil)

theorem isNarrow_top : top.IsNarrow := by
  constructor <;> decide +kernel

theorem isNarrow_middle : middle.IsNarrow := by
  constructor <;> decide +kernel

theorem isNarrow_bottom : bottom.IsNarrow := by
  constructor <;> decide +kernel

end Border

/-- An entry that needs no more room than there is: a position of at most ten digits and at most
sixty visible characters of ASCII. -/
structure FitsTable (entry : Entry) : Prop where
  few : entry.index < 10 ^ 10
  visible : ∀ c ∈ entry.descriptor.toList, 0x21 ≤ c.toNat ∧ c.toNat ≤ 0x7E
  short : entry.descriptor.toList.length ≤ 60

namespace FitsTable

variable {entry : Entry}

theorem shownDescriptor_eq (fits : FitsTable entry) :
    shownDescriptor entry = entry.descriptor.toList := by
  refine List.filter_eq_self.2 fun c member => ?_
  have low := (fits.visible c member).1
  simp only [isSuppressed, Bool.not_eq_true', Bool.or_eq_false_iff, Bool.and_eq_false_iff,
    decide_eq_false_iff_not, beq_eq_false_iff_ne]
  omega

theorem isNarrow_descriptor (fits : FitsTable entry) : IsNarrow (shownDescriptor entry) := by
  rw [fits.shownDescriptor_eq]
  exact .of_ascii fun c member =>
    ⟨Nat.le_trans (by decide) (fits.visible c member).1, (fits.visible c member).2⟩

theorem length_descriptor (fits : FitsTable entry) : (shownDescriptor entry).length ≤ 60 := by
  rw [fits.shownDescriptor_eq]
  exact fits.short

end FitsTable

theorem shownIndex_eq (entry : Entry) : shownIndex entry = Nat.toDigits 10 entry.index := by
  rw [shownIndex, Nat.toString_eq_repr, Nat.toList_repr]

theorem isNarrow_shownIndex (entry : Entry) : IsNarrow (shownIndex entry) := by
  refine .of_ascii fun c member => ?_
  rw [shownIndex_eq] at member
  have digit := Nat.isDigit_of_mem_toDigits (by decide) (by decide) member
  simp only [Char.isDigit, Bool.and_eq_true, decide_eq_true_eq, UInt32.le_iff_toNat_le] at digit
  exact ⟨Nat.le_trans (by decide) digit.1, Nat.le_trans digit.2 (by decide)⟩

theorem FitsTable.length_index {entry : Entry} (fits : FitsTable entry) :
    (shownIndex entry).length ≤ 10 := by
  rw [shownIndex_eq]
  exact (Nat.length_toDigits_le_iff (by decide) (by decide)).2 fits.few

/-- The width that a column needs for its heading and for what it shows of the entries. -/
def neededWidth (heading : List Char) (shown : Entry → List Char) (entries : List Entry) : Nat :=
  (entries.map fun entry => cells (shown entry)).foldl max (cells heading)

section Entries

variable {entries : List Entry} {heading : List Char} {shown : Entry → List Char}

/-- A column of narrow texts needs the length of the longest. -/
theorem neededWidth_le_iff (narrowHeading : IsNarrow heading)
    (narrow : ∀ entry ∈ entries, IsNarrow (shown entry)) (bound : Nat) :
    neededWidth heading shown entries ≤ bound ↔
      heading.length ≤ bound ∧ ∀ entry ∈ entries, (shown entry).length ≤ bound := by
  rw [neededWidth, foldl_max_le_iff, narrowHeading.cells_eq, List.forall_mem_map]
  exact and_congr_right fun _ => forall₂_congr fun entry member => by
    rw [(narrow entry member).cells_eq]

/-- The texts of a column have room in it. -/
structure HasRoom (heading : List Char) (shown : Entry → List Char) (entries : List Entry)
    (width : Nat) : Prop where
  heading : heading.length ≤ width
  shown : ∀ entry ∈ entries, (shown entry).length ≤ width

theorem hasRoom_neededWidth (narrowHeading : IsNarrow heading)
    (narrow : ∀ entry ∈ entries, IsNarrow (shown entry)) :
    HasRoom heading shown entries (neededWidth heading shown entries) :=
  have room := (neededWidth_le_iff narrowHeading narrow _).1 (Nat.le_refl _)
  ⟨room.1, room.2⟩

/-- Both columns have room for their headings and for all entries. -/
structure HaveRoom (columns : ColumnWidths) (entries : List Entry) : Prop where
  index : HasRoom indexHeading shownIndex entries columns.index
  descriptor : HasRoom descriptorHeading shownDescriptor entries columns.descriptor

theorem isNarrow_indexHeading : IsNarrow indexHeading := .of_all (by decide)

theorem isNarrow_descriptorHeading : IsNarrow descriptorHeading := .of_all (by decide)

/-- If all entries fit, the columns have room for them and for the headings on the screen. -/
theorem room_ofEntries (fit : ∀ entry ∈ entries, FitsTable entry) :
    (ColumnWidths.ofEntries entries).total ≤ screenWidth ∧
      HaveRoom (ColumnWidths.ofEntries entries) entries := by
  have narrow : ∀ entry ∈ entries, IsNarrow (shownDescriptor entry) := fun entry member =>
    (fit entry member).isNarrow_descriptor
  have indexWidth : neededWidth indexHeading shownIndex entries ≤ 10 :=
    (neededWidth_le_iff isNarrow_indexHeading (fun entry _ => isNarrow_shownIndex entry) 10).2
      ⟨by decide, fun entry member => (fit entry member).length_index⟩
  have descriptorWidth : neededWidth descriptorHeading shownDescriptor entries ≤ 60 :=
    (neededWidth_le_iff isNarrow_descriptorHeading narrow 60).2
      ⟨by decide, fun entry member => (fit entry member).length_descriptor⟩
  -- The screen leaves at least 63 cells for the descriptors, so it does not limit them.
  have columns : ColumnWidths.ofEntries entries =
      { index := neededWidth indexHeading shownIndex entries
        descriptor := neededWidth descriptorHeading shownDescriptor entries } := by
    have unlimited : neededWidth descriptorHeading shownDescriptor entries ≤
        screenWidth - ColumnWidths.frame - neededWidth indexHeading shownIndex entries := by
      rw [screenWidth, ColumnWidths.frame]
      omega
    exact congrArg (ColumnWidths.mk _) (Nat.min_eq_left unlimited)
  rw [columns]
  refine ⟨?_, hasRoom_neededWidth isNarrow_indexHeading fun entry _ => isNarrow_shownIndex entry,
    hasRoom_neededWidth isNarrow_descriptorHeading narrow⟩
  simp only [ColumnWidths.total, ColumnWidths.frame, screenWidth]
  omega

section Room

variable {columns : ColumnWidths}

/-- The row of an entry that fits holds its position and its descriptor. -/
theorem isTableLine_entryLine (room : HaveRoom columns entries) (entry : Entry)
    (member : entry ∈ entries) (fits : FitsTable entry) :
    IsTableLine columns '│' (toString entry.index).toList entry.descriptor.toList
      (entryLine columns entry) := by
  have isLine := isTableLine_tableLine '│' (isNarrow_shownIndex entry) fits.isNarrow_descriptor
    (room.index.shown entry member) (room.descriptor.shown entry member)
  rw [← fits.shownDescriptor_eq]
  exact isLine

/-- The header of a table with room for it. -/
theorem isTableLine_header (room : HaveRoom columns entries) :
    IsTableLine columns '┃' indexHeading descriptorHeading
      (tableLine '┃' columns indexHeading descriptorHeading) :=
  isTableLine_tableLine '┃' isNarrow_indexHeading isNarrow_descriptorHeading room.index.heading
    room.descriptor.heading

/-- Entries that fit, each at its position, make a table of their descriptors. -/
theorem isTable_entryLines {descriptors : List String}
    (fit : ∀ entry ∈ descriptors.mapIdx Entry.mk, FitsTable entry)
    (room : HaveRoom columns (descriptors.mapIdx Entry.mk)) :
    IsTable descriptors columns (tableLine '┃' columns indexHeading descriptorHeading)
      ((descriptors.mapIdx Entry.mk).map (entryLine columns)) := by
  refine ⟨isTableLine_header room, by simp, ?_⟩
  intro index descriptor found
  have isEntry : (descriptors.mapIdx Entry.mk)[index]? = some ⟨index, descriptor⟩ := by
    simp [found]
  have member := List.mem_of_getElem? isEntry
  have isLine := isTableLine_entryLine room ⟨index, descriptor⟩ member (fit _ member)
  exact ⟨_, by simp [found], isLine⟩

/-- All lines of such a table are as wide as its columns, in characters and in cells. -/
theorem width_of_mem_linesOfTable (fit : ∀ entry ∈ entries, FitsTable entry)
    (room : HaveRoom columns entries) :
    ∀ line ∈ linesOfTable columns (tableLine '┃' columns indexHeading descriptorHeading)
        (entries.map (entryLine columns)),
      cells line = columns.total ∧ line.length = columns.total := by
  have wide : ∀ {line}, IsNarrow line → line.length = columns.total →
      cells line = columns.total ∧ line.length = columns.total := fun narrow length =>
    ⟨narrow.cells_eq.trans length, length⟩
  have border : ∀ border : Border, border.IsNarrow →
      cells (border.render columns) = columns.total ∧
        (border.render columns).length = columns.total := fun border narrow =>
    wide (narrow.render columns) (border.length_render columns)
  have isHeader := isTableLine_header room
  have header := wide (isHeader.isNarrow (by decide +kernel) isNarrow_indexHeading
    isNarrow_descriptorHeading) isHeader.length_eq
  intro line member
  simp only [linesOfTable, List.mem_append, List.mem_cons, List.not_mem_nil, or_false] at member
  rcases member with ((rfl | rfl | rfl) | isRow) | rfl
  · exact border _ Border.isNarrow_top
  · exact header
  · exact border _ Border.isNarrow_middle
  · obtain ⟨entry, isEntry, rfl⟩ := List.mem_map.1 isRow
    have fits := fit entry isEntry
    have isLine := isTableLine_entryLine room entry isEntry fits
    have narrow := fits.isNarrow_descriptor
    rw [fits.shownDescriptor_eq] at narrow
    exact wide (isLine.isNarrow (by decide +kernel) (isNarrow_shownIndex entry) narrow)
      isLine.length_eq
  · exact border _ Border.isNarrow_bottom

end Room

/-- Descriptors whose entries fit are shown as a table on the screen. -/
theorem exists_isTable {descriptors : List String}
    (fit : ∀ entry ∈ descriptors.mapIdx Entry.mk, FitsTable entry) :
    ∃ columns header rows,
      tableLines (descriptors.mapIdx Entry.mk) = linesOfTable columns header rows ∧
      IsTable descriptors columns header rows ∧ columns.total ≤ screenWidth ∧
      ∀ line ∈ linesOfTable columns header rows,
        cells line = columns.total ∧ line.length = columns.total := by
  obtain ⟨onScreen, room⟩ := room_ofEntries fit
  exact ⟨_, _, _, rfl, isTable_entryLines fit room, onScreen, width_of_mem_linesOfTable fit room⟩

end Entries

end Roster.Terminal
