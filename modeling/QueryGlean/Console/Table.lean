import QueryGlean.Console.Wrap

namespace QueryGlean.Console

inductive Alignment
  | left
  | right
deriving DecidableEq, Repr, Inhabited

structure Column where
  heading : String
  alignment : Alignment := .left
deriving Repr, Inhabited

structure Table where
  title : String
  columns : List Column
  rows : List (List (List Char))

namespace Table

def blanks (n : Nat) : List Char :=
  List.replicate n ' '

def pad (a : Alignment) (size : Nat) (line : List Char) : List Char :=
  let gap := blanks (size - width line)
  match a with
  | .left => line ++ gap
  | .right => gap ++ line

def isLineEnd (c : Char) : Bool :=
  ['\n', '\r', '\x0b', '\x0c', '\x1c', '\x1d', '\x1e', '\u0085', '\u2028', '\u2029'].contains c

-- The width of a column, blanks on both sides apart. Tabs count for nothing here.
def columnWidth (t : Table) (i : Nat) (c : Column) : Nat :=
  let cells := c.heading.toList :: t.rows.filterMap (·[i]?)
  ((cells.flatMap (splitWhere isLineEnd)).map width).foldl max 0

def widths (t : Table) : List Nat :=
  t.columns.mapIdx t.columnWidth

def rule (left stroke cross right : Char) (widths : List Nat) : List Char :=
  left :: ([cross].intercalate (widths.map fun w => List.replicate (w + 2) stroke)) ++ [right]

def rowLines (bar : Char) (alignments : List Alignment) (widths : List Nat) (cells : List (List Char)) :
    List (List Char) :=
  let columns := (cells.zip widths).map fun (cell, w) => wrap w .ellipsis cell
  let height := (columns.map List.length).foldl max 1
  (List.range height).map fun i =>
    let shown := (columns.zip (alignments.zip widths)).map fun (lines, a, w) =>
      ' ' :: pad a w (lines[i]?.getD []) ++ [' ']
    bar :: [bar].intercalate shown ++ [bar]

def titleLine (t : Table) (total : Nat) : List Char :=
  let title := t.title.toList
  let left := (total - width title) / 2
  pad .left total (blanks left ++ title)

def lines (t : Table) : List (List Char) :=
  let widths := t.widths
  let alignments := t.columns.map (·.alignment)
  let total := widths.foldl (· + · + 3) 1
  [t.titleLine total, rule '┏' '━' '┳' '┓' widths] ++
    rowLines '┃' alignments widths (t.columns.map (·.heading.toList)) ++
    [rule '┡' '━' '╇' '┩' widths] ++
    t.rows.flatMap (rowLines '│' alignments widths) ++
    [rule '└' '─' '┴' '┘' widths]

end Table

end QueryGlean.Console
