import GridGame.Code.Printout
import Mathlib.Data.List.Basic
import Mathlib.Data.List.Count
import Mathlib.Data.List.Nodup

/-!
# The layout of printouts

A board is printed line by line, and a line takes one statement for every column and one more that
ends it. All lines are equally long, so the place of a statement tells its line and its column.
Borders and rows take turns, from the top border to the bottom border, and the letters of the
columns come last.

Different items are printed by different statements (`render_injective`), so that statements can be
counted as items.
-/

namespace GridGame.Code

/-! ### Numbers in texts -/

lemma isDigit_of_mem_repr {n : Nat} {c : Char} (h : c ∈ n.repr.toList) : c.isDigit := by
  rw [Nat.toList_repr] at h
  exact Nat.isDigit_of_mem_toDigits (by decide) (by decide) h

/-- A number ends where its digits end. -/
lemma takeWhile_repr_append (n : Nat) {c : Char} (hc : c.isDigit = false) (rest : List Char) :
    (n.repr.toList ++ c :: rest).takeWhile Char.isDigit = n.repr.toList := by
  rw [List.takeWhile_append_of_pos fun d hd => isDigit_of_mem_repr hd, List.takeWhile_cons_of_neg]
  · rw [List.append_nil]
  · simp [hc]

/-- Equal texts that start with numbers start with the same number and go on in the same way. -/
lemma repr_append_inj {m n : Nat} {c d : Char} {rest rest' : List Char} (hc : c.isDigit = false)
    (hd : d.isDigit = false) (h : m.repr.toList ++ c :: rest = n.repr.toList ++ d :: rest') :
    m = n ∧ c :: rest = d :: rest' := by
  have hdigits := congrArg (List.takeWhile Char.isDigit) h
  rw [takeWhile_repr_append m hc, takeWhile_repr_append n hd] at hdigits
  have hvalue := congrArg (Nat.ofDigitChars 10 · 0) hdigits
  simp only [Nat.toList_repr, Nat.ofDigitChars_ten_toDigits] at hvalue
  rw [hdigits] at h
  exact ⟨hvalue, List.append_cancel_left h⟩

/-- A number starts with a digit. -/
lemma repr_append_ne {n : Nat} {c d : Char} {rest rest' : List Char} (hc : c.isDigit = false)
    (hd : d.isDigit = false) : n.repr.toList ++ c :: rest ≠ d :: rest' := by
  intro h
  have hdigits := congrArg (List.takeWhile Char.isDigit) h
  rw [takeWhile_repr_append n hc, List.takeWhile_cons_of_neg (by simp [hd])] at hdigits
  simp at hdigits

/-! ### Print statements -/

namespace PrintItem

/-- What the statement for a print item has between its parentheses. -/
def arguments (board : String) : PrintItem → List Char
  | .border corner => ['"', corner, '─', '─', '─', '"']
  | .borderEnd corner => ['"', corner, '\\', 'n', '"']
  | .square row column =>
    ['"', '│', ' ', '%', 'c', ' ', '"', ',', ' ', '*'] ++ board.toList ++ '[' :: row.repr.toList ++
      ']' :: '[' :: column.repr.toList ++ [']', '-', '>', 'n', 'a', 'm', 'e']
  | .rowLabel row => '"' :: '│' :: ' ' :: row.repr.toList ++ ['\\', 'n', '"']
  | .columnLabel letter => ['"', ' ', ' ', letter, ' ', '"']
  | .lineEnd => ['"', '\\', 'n', '"']

lemma toList_render (board : String) (item : PrintItem) :
    (item.render board).toList = "printf(".toList ++ item.arguments board ++ ");\n".toList := by
  -- the texts are written out here, as unfolding `render` takes long
  cases item with
  | border corner =>
    show ("printf(\"" ++ corner.toString ++ "───\");\n").toList = _
    simp [arguments]
  | borderEnd corner =>
    show ("printf(\"" ++ corner.toString ++ "\\n\");\n").toList = _
    simp [arguments]
  | square row column =>
    show ("printf(\"│ %c \", *" ++ board ++ "[" ++ row.repr ++ "][" ++ column.repr ++
      "]->name);\n").toList = _
    simp [arguments]
  | rowLabel row =>
    show ("printf(\"│ " ++ row.repr ++ "\\n\");\n").toList = _
    simp [arguments]
  | columnLabel letter =>
    show ("printf(\"  " ++ letter.toString ++ " \");\n").toList = _
    simp [arguments]
  | lineEnd =>
    show ("printf(\"\\n\");\n").toList = _
    simp [arguments]

lemma arguments_injective (board : String) : Function.Injective (arguments board) := by
  intro item other h
  cases item with
  | square row column =>
    cases other with
    | square row' column' =>
      simp only [arguments, List.append_assoc, List.append_cancel_left_eq, List.cons_append,
        List.cons.injEq, true_and] at h
      obtain ⟨rfl, hrest⟩ := repr_append_inj rfl rfl h
      simp only [List.cons.injEq, true_and] at hrest
      obtain ⟨rfl, -⟩ := repr_append_inj rfl rfl hrest
      rfl
    | rowLabel row' =>
      simp only [arguments, List.cons_append, List.cons.injEq, true_and] at h
      exact absurd h.symm (repr_append_ne rfl rfl)
    | _ => simp [arguments] at h
  | rowLabel row =>
    cases other with
    | square row' column' =>
      simp only [arguments, List.cons_append, List.cons.injEq, true_and] at h
      exact absurd h (repr_append_ne rfl rfl)
    | rowLabel row' =>
      simp only [arguments, List.cons_append, List.cons.injEq, true_and] at h
      rw [(repr_append_inj rfl rfl h).1]
    | _ => simp [arguments] at h
  | _ => cases other <;> simp_all [arguments]

lemma render_injective (board : String) : Function.Injective (render board) := by
  intro item other h
  have htext := congrArg String.toList h
  simp only [toList_render, List.append_cancel_left_eq, List.append_cancel_right_eq] at htext
  exact arguments_injective board htext

end PrintItem

/-! ### Lines -/

/-- Of lists with one length, put one after the other, the place of a member tells the list. -/
lemma getElem?_flatten_of_length {α : Type} {size : Nat} {lists : List (List α)}
    (hsize : ∀ l ∈ lists, l.length = size) (i : Nat) {j : Nat} (hj : j < size) :
    lists.flatten[size * i + j]? = lists[i]?.bind (·[j]?) := by
  induction lists generalizing i with
  | nil => simp
  | cons l lists ih =>
    obtain ⟨hl, hlists⟩ := List.forall_mem_cons.mp hsize
    cases i with
    | zero => simp [List.getElem?_append_left (hl ▸ hj)]
    | succ i =>
      have hplace : size * (i + 1) + j = l.length + (size * i + j) := by
        rw [hl, Nat.mul_succ, Nat.add_comm (size * i), Nat.add_assoc]
      rw [hplace, List.flatten_cons, List.getElem?_append_right (Nat.le_add_right ..),
        Nat.add_sub_cancel_left, ih hlists, List.getElem?_cons_succ]

namespace Printout

/-- A line that is printed: an item for every column, and one at the end. -/
def line (width : Nat) (item : Nat → PrintItem) (last : PrintItem) : List PrintItem :=
  (List.range width).map item ++ [last]

section Line

variable {width x : Nat} {item : Nat → PrintItem} {last : PrintItem}

@[simp]
lemma length_line : (line width item last).length = width + 1 := by
  simp [line]

lemma getElem?_line (hx : x < width) : (line width item last)[x]? = some (item x) := by
  rw [line, List.getElem?_append_left (by simpa using hx)]
  simp [hx]

lemma getElem?_line_last : (line width item last)[width]? = some last := by
  rw [line, List.getElem?_append_right (by simp)]
  simp

end Line

/-- The item of a border over a column. -/
def corner (left middle : Char) (x : Nat) : PrintItem := .border (if x = 0 then left else middle)

lemma border_eq_line {left middle right : Char} {width : Nat} (hwidth : 1 ≤ width) :
    border left middle right width = line width (corner left middle) (.borderEnd right) := by
  obtain ⟨width, rfl⟩ := Nat.exists_eq_add_of_le' hwidth
  rw [line, List.range_succ_eq_map]
  simp [border, corner, Function.comp_def]

def rowLine (width row : Nat) : List PrintItem := line width (.square row) (.rowLabel (row + 1))

/-- The border below a row. -/
def borderBelow (width row : Nat) : List PrintItem :=
  if row = 0 then border '└' '┴' '┘' width else border '├' '┼' '┤' width

/-- The line of the letters of the columns. -/
def letterLine (width : Nat) : List PrintItem :=
  line width (fun x => .columnLabel (columnLetter x)) .lineEnd

def lines (width height : Nat) : List (List PrintItem) :=
  border '┌' '┬' '┐' width ::
    ((List.range height).reverse.map fun r => [rowLine width r, borderBelow width r]).flatten ++
    [letterLine width]

variable {width height : Nat}

lemma row_eq_append (r : Nat) : row width r = rowLine width r ++ borderBelow width r := by
  simp [row, rowLine, line, borderBelow]

lemma items_eq_flatten : items width height = (lines width height).flatten := by
  have hrow : row width = fun row => [rowLine width row, borderBelow width row].flatten := by
    funext r
    simp [row_eq_append]
  simp [items, lines, letterLine, line, hrow, List.flatMap_def, List.flatten_flatten,
    Function.comp_def]

lemma length_of_mem_lines (hwidth : 1 ≤ width) :
    ∀ l ∈ lines width height, l.length = width + 1 := by
  have hborder (left middle right : Char) :
      (border left middle right width).length = width + 1 := by
    rw [border_eq_line hwidth, length_line]
  intro l hl
  simp only [lines, List.mem_append, List.mem_cons, List.mem_flatten, List.mem_map,
    List.not_mem_nil, or_false] at hl
  rcases hl with (rfl | ⟨_, ⟨row, -, rfl⟩, hl⟩) | rfl
  · exact hborder ..
  · simp only [List.mem_cons, List.not_mem_nil, or_false] at hl
    rcases hl with rfl | rfl
    · exact length_line
    · rw [borderBelow]
      split_ifs
      all_goals exact hborder ..
  · exact length_line

lemma length_lines : (lines width height).length = 2 * height + 2 := by
  simp [lines, Function.comp_def, Nat.mul_comm]

/-- After the top border come the rows from the highest on, each with the border below it. -/
lemma getElem?_lines_of_row (width : Nat) {row j : Nat} (hrow : row < height) (hj : j < 2) :
    (lines width height)[1 + (2 * (height - (row + 1)) + j)]? =
      [rowLine width row, borderBelow width row][j]? := by
  have hlength : 2 * (height - (row + 1)) + j < 2 * height := by omega
  have hrange : (List.range height).reverse[height - (row + 1)]? = some row := by
    rw [List.getElem?_reverse (by simp; omega), List.getElem?_range (by simp; omega)]
    simp
    omega
  rw [lines, List.cons_append, Nat.add_comm 1, List.getElem?_cons_succ,
    List.getElem?_append_left (by simpa [Function.comp_def, Nat.mul_comm] using hlength),
    getElem?_flatten_of_length (by simp) _ hj, List.getElem?_map, hrange]
  rfl

lemma getElem?_lines_row (width : Nat) {y : Nat} (hfirst : 1 ≤ y) (hlast : y ≤ height) :
    (lines width height)[1 + 2 * (height - y)]? =
      some (line width (.square (y - 1)) (.rowLabel y)) := by
  have hline := getElem?_lines_of_row width (Nat.sub_one_lt_of_le hfirst hlast) Nat.zero_lt_two
  rwa [rowLine, Nat.sub_add_cancel hfirst] at hline

lemma getElem?_lines_below (width : Nat) {y : Nat} (hfirst : 1 ≤ y) (hlast : y ≤ height) :
    (lines width height)[2 + 2 * (height - y)]? = some (borderBelow width (y - 1)) := by
  have hline := getElem?_lines_of_row width (Nat.sub_one_lt_of_le hfirst hlast) Nat.one_lt_two
  rwa [Nat.sub_add_cancel hfirst, Nat.add_comm _ 1, ← Nat.add_assoc] at hline

lemma getElem?_lines_last : (lines width height)[2 * height + 1]? = some (letterLine width) := by
  rw [lines, List.getElem?_append_right (by simp [Function.comp_def, Nat.mul_comm])]
  simp [Function.comp_def, Nat.mul_comm]

/-! ### Places of statements -/

def statements (board : String) (width height : Nat) : List String :=
  (items width height).map (PrintItem.render board)

section Places

variable {board : String} (hwidth : 1 ≤ width)
include hwidth

lemma length_statements :
    (statements board width height).length = (width + 1) * (2 * height + 2) := by
  rw [statements, List.length_map, items_eq_flatten, List.length_flatten,
    List.map_congr_left (length_of_mem_lines hwidth), List.map_const', List.sum_replicate_nat,
    length_lines, Nat.mul_comm]

/-- The statement at a place of a line. -/
lemma getElem?_statements {i x : Nat} {l : List PrintItem} {item : PrintItem}
    (hl : (lines width height)[i]? = some l) (hx : x ≤ width) (hitem : l[x]? = some item) :
    (statements board width height)[(width + 1) * i + x]? = some (item.render board) := by
  rw [statements, items_eq_flatten, List.getElem?_map,
    getElem?_flatten_of_length (length_of_mem_lines hwidth) i (Nat.lt_succ_of_le hx), hl,
    Option.bind_some, hitem, Option.map_some]

end Places

/-! ### Counting statements -/

lemma count_statements (board : String) (width height : Nat) (item : PrintItem) :
    (statements board width height).count (item.render board) = (items width height).count item :=
  List.count_map_of_injective _ _ (PrintItem.render_injective board) item

/-- An item that occurs at most once in a row, and is no letter, occurs once for every row with it
and as often as the top border has it. -/
lemma count_items {item : PrintItem} (p : Nat → Bool)
    (hrows : ∀ r, (row width r).count item = if p r then 1 else 0)
    (hletters : item ∉ letterLine width) :
    (items width height).count item =
      (border '┌' '┬' '┐' width).count item + (List.range height).countP p := by
  have hsplit : items width height = border '┌' '┬' '┐' width ++
      (List.range height).reverse.flatMap (row width) ++ letterLine width := by
    simp [items, letterLine, line]
  have hsum : ((List.range height).map fun r => (row width r).count item).sum =
      (List.range height).countP p := by
    induction height with
    | zero => rfl
    | succ height ih =>
      rw [List.range_succ, List.map_append, List.sum_append, List.countP_append, ih]
      · simp [hrows, List.countP_singleton]
      · simp [items, letterLine, line]
  rw [hsplit, List.count_append, List.count_append, List.count_eq_zero.mpr hletters, Nat.add_zero,
    List.count_flatMap, List.map_reverse, List.sum_reverse, ← hsum]
  rfl

lemma count_border (left middle right : Char) (item : PrintItem) :
    (border left middle right width).count item =
      (if item = .border left then 1 else 0) + (if item = .border middle then width - 1 else 0) +
        if item = .borderEnd right then 1 else 0 := by
  simp [border, List.count_cons, List.count_replicate, eq_comm (a := item)]
  omega

/-- Rows have corners in the borders below them only. -/
lemma count_row_border (r : Nat) (corner : Char) :
    (row width r).count (.border corner) = (borderBelow width r).count (.border corner) := by
  have hline : .border corner ∉ rowLine width r := by simp [rowLine, line]
  rw [row_eq_append, List.count_append, List.count_eq_zero.mpr hline, Nat.zero_add]

/-- What is no part of a border is in the line of a row. -/
lemma count_row_of_not_border (r : Nat) {item : PrintItem} (hborder : ∀ c, item ≠ .border c)
    (hend : ∀ c, item ≠ .borderEnd c) :
    (row width r).count item = (rowLine width r).count item := by
  have hbelow : (borderBelow width r).count item = 0 := by
    rw [borderBelow]
    split_ifs
    all_goals simp [count_border, hborder, hend]
  rw [row_eq_append, List.count_append, hbelow, Nat.add_zero]

lemma count_range_eq {row : Nat} (hrow : row < height) :
    (List.range height).countP (· == row) = 1 :=
  List.count_eq_one_of_mem List.nodup_range (List.mem_range.mpr hrow)

lemma count_square {row column : Nat} (hrow : row < height) (hcolumn : column < width) :
    (items width height).count (.square row column) = 1 := by
  rw [count_items (· == row), count_range_eq hrow]
  · simp [count_border]
  · intro r
    rw [count_row_of_not_border r (by simp) (by simp), rowLine, line, List.count_append]
    by_cases hr : r = row
    · rw [hr, List.count_map_of_injective _ _ fun _ _ h => (PrintItem.square.inj h).2]
      simp [List.count_eq_one_of_mem List.nodup_range (List.mem_range.mpr hcolumn)]
    · have hother : .square row column ∉ (List.range width).map (PrintItem.square r) := by simp [hr]
      simp [List.count_eq_zero.mpr hother, hr]
  · simp [letterLine, line]

lemma count_top_corner : (items width height).count (.border '┌') = 1 := by
  rw [count_items fun _ => false]
  · simp [count_border]
  · simp [count_row_border, borderBelow, apply_ite, count_border]
  · simp [letterLine, line]

lemma count_middle_corner : (items width height).count (.border '├') = height - 1 := by
  rw [count_items (· != 0)]
  · cases height with
    | zero => simp [count_border]
    | succ height => simp [count_border, List.range_succ_eq_map, List.countP_map, Function.comp_def]
  · intro r
    by_cases hr : r = 0
    · simp [count_row_border, borderBelow, count_border, hr]
    · simp [count_row_border, borderBelow, count_border, hr]
  · simp [letterLine, line]

lemma count_bottom_corner (hheight : 1 ≤ height) :
    (items width height).count (.border '└') = 1 := by
  rw [count_items (· == 0), count_range_eq hheight]
  · simp [count_border]
  · intro r
    by_cases hr : r = 0
    · simp [count_row_border, borderBelow, count_border, hr]
    · simp [count_row_border, borderBelow, count_border, hr]
  · simp [letterLine, line]

/-! ### The whole printout -/

/-- From a place on, statements print a border of `width` segments and the end of its line. -/
structure BorderFrom (l : List String) (place width : Nat) (left middle right : Char) : Prop where
  first : l[place]? = some s!"printf(\"{left}───\");\n"
  inner : ∀ x, 0 < x → x < width → l[place + x]? = some s!"printf(\"{middle}───\");\n"
  last : l[place + width]? = some s!"printf(\"{right}\\n\");\n"

lemma borderFrom {board : String} {i : Nat} {left middle right : Char} (hwidth : 1 ≤ width)
    (hl : (lines width height)[i]? = some (border left middle right width)) :
    BorderFrom (statements board width height) ((width + 1) * i) width left middle right := by
  rw [border_eq_line hwidth] at hl
  refine ⟨?_, ?_, ?_⟩
  · exact getElem?_statements hwidth hl (Nat.zero_le width) (getElem?_line hwidth)
  · intro x hx hlt
    have hitem : (line width (corner left middle) (.borderEnd right))[x]? =
        some (.border middle) := by
      rw [getElem?_line hlt, corner, if_neg (Nat.ne_of_gt hx)]
    exact getElem?_statements hwidth hl (Nat.le_of_lt hlt) hitem
  · exact getElem?_statements hwidth hl (Nat.le_refl width) getElem?_line_last

/-- Statements that print a board, each at its place. Rows are numbered from 1, as they are in the
printout. -/
structure LaidOut (board : String) (width height : Nat) (l : List String) : Prop where
  length : l.length = (width + 1) * (2 * height + 2)
  prints : ∀ s ∈ l, ∃ arguments, s = "printf(" ++ arguments ++ ");\n"
  squares : ∀ y x, 1 ≤ y → y ≤ height → x < width →
    l[(width + 1) * (1 + 2 * (height - y)) + x]? =
      some s!"printf(\"│ %c \", *{board}[{y - 1}][{x}]->name);\n"
  rowLabels : ∀ y, 1 ≤ y → y ≤ height →
    l[(width + 1) * (1 + 2 * (height - y)) + width]? = some s!"printf(\"│ {y}\\n\");\n"
  /-- No square is printed twice. -/
  squares_once : ∀ row < height, ∀ column < width,
    l.count s!"printf(\"│ %c \", *{board}[{row}][{column}]->name);\n" = 1
  topBorder : BorderFrom l 0 width '┌' '┬' '┐'
  /-- Every row but the lowest has a border between it and the next. -/
  middleBorders : ∀ y, 1 < y → y ≤ height →
    BorderFrom l ((width + 1) * (2 + 2 * (height - y))) width '├' '┼' '┤'
  bottomBorder : BorderFrom l ((width + 1) * (2 * height)) width '└' '┴' '┘'
  /-- Borders are counted by their left corners. -/
  corners : l.count "printf(\"┌───\");\n" = 1 ∧ l.count "printf(\"├───\");\n" = height - 1 ∧
    l.count "printf(\"└───\");\n" = 1
  columnLabels : ∀ x < width, l[(width + 1) * (2 * height + 1) + x]? =
    some s!"printf(\"  {columnLetter x} \");\n"
  lineEnd : l[(width + 1) * (2 * height + 1) + width]? = some "printf(\"\\n\");\n"

/-- A board with at least one square is printed by `(width + 1) * (2 * height + 2)` statements.
Below the top border its rows follow from the highest on, every square once and with the number of
the row at the end, and each row with a border below it. After the border of the lowest row come the
letters of the columns. -/
theorem render_laid_out (board : String) (width height : UInt32) (hwidth : 1 ≤ width.toNat)
    (hheight : 1 ≤ height.toNat) :
    ∃ l, render board width height = String.join l ∧
      LaidOut board width.toNat height.toNat l := by
  refine ⟨statements board width.toNat height.toNat, rfl, ?_⟩
  have hcount := count_statements board width.toNat height.toNat
  refine ⟨length_statements hwidth, ?_, ?_, ?_, ?_, ?_, ?_, ?_, ?_, ?_, ?_⟩
  · intro s hs
    obtain ⟨item, -, rfl⟩ := List.mem_map.mp hs
    refine ⟨String.ofList (item.arguments board), ?_⟩
    rw [← String.toList_inj, item.toList_render]
    simp
  · intro y x hfirst hlast hx
    exact getElem?_statements hwidth (getElem?_lines_row _ hfirst hlast) (Nat.le_of_lt hx)
      (getElem?_line hx)
  · intro y hfirst hlast
    exact getElem?_statements hwidth (getElem?_lines_row _ hfirst hlast) (Nat.le_refl _)
      getElem?_line_last
  · intro row hrow column hcolumn
    exact (hcount (.square row column)).trans (count_square hrow hcolumn)
  · have hline : (lines width.toNat height.toNat)[0]? = some (border '┌' '┬' '┐' width.toNat) := rfl
    exact borderFrom hwidth hline
  · intro y hy hlast
    have hline := getElem?_lines_below width.toNat (Nat.le_of_lt hy) hlast
    rw [borderBelow, if_neg (Nat.sub_ne_zero_of_lt hy)] at hline
    exact borderFrom hwidth hline
  · have hline := getElem?_lines_below width.toNat (Nat.le_refl 1) hheight
    have hplace : 2 + 2 * (height.toNat - 1) = 2 * height.toNat := by omega
    rw [hplace] at hline
    exact borderFrom hwidth hline
  · exact ⟨(hcount (.border '┌')).trans count_top_corner,
      (hcount (.border '├')).trans count_middle_corner,
      (hcount (.border '└')).trans (count_bottom_corner hheight)⟩
  · intro x hx
    exact getElem?_statements hwidth getElem?_lines_last (Nat.le_of_lt hx) (getElem?_line hx)
  · exact getElem?_statements hwidth getElem?_lines_last (Nat.le_refl _) getElem?_line_last

/-- Two columns and three rows. -/
theorem render_laid_out_twoByThree :
    ∃ l, render "b" 2 3 = String.join l ∧ l.length = 24 ∧
      l[3]? = some "printf(\"│ %c \", *b[2][0]->name);\n" ∧ l[11]? = some "printf(\"│ 2\\n\");\n" ∧
      l.count "printf(\"│ %c \", *b[0][1]->name);\n" = 1 ∧ l.count "printf(\"├───\");\n" = 2 ∧
      l[19]? = some "printf(\"┴───\");\n" ∧ l[22]? = some "printf(\"  B \");\n" := by
  obtain ⟨l, htext, hlaid⟩ := render_laid_out "b" 2 3 (by decide) (by decide)
  exact ⟨l, htext, hlaid.length, hlaid.squares 3 0 (by decide) (by decide) (by decide),
    hlaid.rowLabels 2 (by decide) (by decide), hlaid.squares_once 0 (by decide) 1 (by decide),
    hlaid.corners.2.1, hlaid.bottomBorder.inner 1 (by decide) (by decide),
    hlaid.columnLabels 1 (by decide)⟩

end Printout

end GridGame.Code
