import QueryGlean.Console.Width
import QueryGlean.Text.Blank

namespace QueryGlean.Console

inductive Overflow
  -- It goes on in the next line.
  | fold
  -- Its end is left out, which three dots show.
  | ellipsis
deriving DecidableEq, Repr

def expandTabs (part : List Char) : List Char → List Char
  | [] => part.reverse
  | c :: cs =>
    if c = '\t' then
      let shown := (' ' :: part).reverse
      shown ++ List.replicate ((8 - width shown % 8) % 8) ' ' ++ expandTabs [] cs
    else expandTabs (c :: part) cs

-- The words of a line, each with the blanks behind it; the first has the blanks before it too. Each
-- step passes at least one character, so the length of the line is enough fuel.
def words : Nat → List Char → List (List Char)
  | 0, _ => []
  | fuel + 1, cs =>
    let before := cs.takeWhile isBlank
    let rest := cs.dropWhile isBlank
    let body := rest.takeWhile (!isBlank ·)
    let rest := rest.dropWhile (!isBlank ·)
    let after := rest.takeWhile isBlank
    if body = [] then [] else (before ++ body ++ after) :: words fuel (rest.dropWhile isBlank)

def trimEnd (cs : List Char) : List Char :=
  (cs.reverse.dropWhile isBlank).reverse

def fill (limit : Nat) (o : Overflow) (line : List Char) (filled : Nat) :
    List (List Char) → List (List Char)
  | [] => [line]
  | w :: ws =>
    -- The blanks behind a word may hang over the edge.
    let size := width (trimEnd w)
    if filled + size ≤ limit then fill limit o (line ++ w) (filled + width w) ws
    else if limit < size then
      let begun := if line = [] then [] else [line]
      match o with
      | .fold =>
        -- The last piece of the word begins the next line.
        let pieces := Cluster.chop limit [] 0 (Cluster.ofList w)
        let last := pieces.getLast?.getD []
        begun ++ pieces.dropLast ++ fill limit o last (width last) ws
      | .ellipsis => begun ++ fill limit o w (width w) ws
    else if filled ≠ 0 then line :: fill limit o w (width w) ws
    else fill limit o (line ++ w) filled ws

-- Takes blanks off the end, but no more of them than the line is too long.
def cropBlanks (limit : Nat) (line : List Char) : List Char :=
  let blanks := (line.reverse.takeWhile isBlank).length
  line.take (line.length - min blanks (line.length - limit))

def crop (limit : Nat) (o : Overflow) (line : List Char) : List Char :=
  if width line ≤ limit then line
  else match o with
    | .fold => Cluster.fit limit (Cluster.ofList line)
    | .ellipsis => Cluster.fit (limit - 1) (Cluster.ofList line) ++ ['…']

def wrapLine (limit : Nat) (o : Overflow) (line : List Char) : List (List Char) :=
  let line := expandTabs [] line
  let ws := words (line.length + 1) line
  let lines := if ws = [] then [line] else fill limit o [] 0 ws
  lines.map fun l => crop limit o (cropBlanks limit l)

def splitWhere (isEnd : Char → Bool) : List Char → List (List Char)
  | [] => [[]]
  | c :: cs =>
    if isEnd c then [] :: splitWhere isEnd cs
    else match splitWhere isEnd cs with
      | [] => [[c]]
      | l :: ls => (c :: l) :: ls

def wrap (limit : Nat) (o : Overflow) (text : List Char) : List (List Char) :=
  (splitWhere (· = '\n') text).flatMap (wrapLine limit o)

end QueryGlean.Console
