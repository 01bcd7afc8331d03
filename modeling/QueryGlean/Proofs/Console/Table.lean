import Mathlib
import QueryGlean.Console.Table
import QueryGlean.Proofs.Console.Wrap

namespace QueryGlean.Console.Table

-- A line of a cell that a column makes room for: by its cells, and nothing in it ends a line when it is measured.
structure Stands (line : List Char) : Prop where
  fits    : Fits (width line) line
  unended : ∀ c ∈ line, isLineEnd c = false

variable {t : Table} {row cells : List (List Char)} {line cell : List Char} {alignments : List Alignment}
variable {a : Alignment} {widths : List ℕ} {i w : ℕ} {c : Column}

theorem infix_pad (a : Alignment) (size : ℕ) (line : List Char) : line <:+: pad a size line := by
  cases a
  case left  => exact (List.prefix_append _ _).isInfix
  case right => exact (List.suffix_append _ _).isInfix

theorem foldl_max_spec (ns : List ℕ) (m : ℕ) : m ≤ ns.foldl max m ∧ ∀ n ∈ ns, n ≤ ns.foldl max m := by
  induction ns generalizing m
  case nil => simp
  case cons n ns hi =>
    obtain ⟨hm, hn⟩ := hi (max m n)
    rw [List.foldl_cons, List.forall_mem_cons]
    exact ⟨(Nat.le_max_left m n).trans hm, (Nat.le_max_right m n).trans hm, hn⟩

theorem exists_mem_rowLines (bar : Char) (hc : cells[i]? = some cell) (hw : widths[i]? = some w)
    (ha : alignments[i]? = some a) (hl : line ∈ wrap w .ellipsis cell) :
    ∃ l ∈ rowLines bar alignments widths cells, line <:+: l := by
  obtain ⟨k, he⟩ := List.getElem?_of_mem hl
  let columns := (cells.zip widths).map fun p => wrap p.2 .ellipsis p.1
  have hz : (cells.zip widths)[i]? = some (cell, w) := List.getElem?_zip_eq_some.mpr ⟨hc, hw⟩
  have hcol : columns[i]? = some (wrap w .ellipsis cell) := by rw [List.getElem?_map, hz, Option.map_some]
  -- The row is as high as its highest cell.
  have hh : (wrap w .ellipsis cell).length ≤ (columns.map List.length).foldl max 1 :=
    (foldl_max_spec _ 1).right _ (List.mem_map_of_mem (List.mem_of_getElem? hcol))
  have hk : k < (columns.map List.length).foldl max 1 := (List.getElem?_eq_some_iff.mp he).fst.trans_le hh
  have ha : (alignments.zip widths)[i]? = some (a, w) := List.getElem?_zip_eq_some.mpr ⟨ha, hw⟩
  have hp : (columns.zip (alignments.zip widths))[i]? = some (wrap w .ellipsis cell, a, w) :=
    List.getElem?_zip_eq_some.mpr ⟨hcol, ha⟩
  refine ⟨_, List.mem_map_of_mem (List.mem_range.mpr hk), ?_⟩
  have hm := List.mem_map_of_mem (f := fun p => ' ' :: pad p.2.1 p.2.2 (p.1[k]?.getD []) ++ [' '])
    (List.mem_of_getElem? hp)
  dsimp only at hm
  rw [he, Option.getD_some] at hm
  have hi := (infix_pad a w line).trans (List.infix_append [' '] _ [' '])
  exact hi.trans <| (infix_intercalate [bar] hm).trans <| List.infix_append [bar] _ [bar]

theorem width_le_columnWidth (hr : row ∈ t.rows) (hc : row[i]? = some cell) (hl : line ∈ splitWhere isLineEnd cell) :
    width line ≤ t.columnWidth i c := by
  refine (foldl_max_spec _ 0).right _ (List.mem_map_of_mem (List.mem_flatMap.mpr ⟨cell, ?_, hl⟩))
  exact List.mem_cons_of_mem _ (List.mem_filterMap.mpr ⟨row, hr, hc⟩)

theorem Stands.exists_mem_lines (h : Stands line) (hr : row ∈ t.rows) (hc : row[i]? = some cell)
    (hi : t.columns[i]? = some c) (hl : line ∈ linesOf cell) : ∃ l ∈ t.lines, line <:+: l := by
  have hs : line ∈ splitWhere isLineEnd cell :=
    mem_splitWhere_of_imp hl (fun c hc => by simp_all [isLineEnd]) h.unended
  have hf : Fits (t.columnWidth i c) line := h.fits.mono (width_le_columnWidth hr hc hs)
  have hw : t.widths[i]? = some (t.columnWidth i c) := by rw [widths, List.getElem?_mapIdx, hi, Option.map_some]
  have ha : (t.columns.map (·.alignment))[i]? = some c.alignment := by rw [List.getElem?_map, hi, Option.map_some]
  obtain ⟨l, hm, hp⟩ := exists_mem_rowLines '│' hc hw ha (hf.mem_wrap .ellipsis hl)
  have hm : l ∈ t.rows.flatMap (rowLines '│' (t.columns.map (·.alignment)) t.widths) :=
    List.mem_flatMap.mpr ⟨row, hr, hm⟩
  exact ⟨l, List.mem_append_left _ (List.mem_append_right _ hm), hp⟩

end QueryGlean.Console.Table
