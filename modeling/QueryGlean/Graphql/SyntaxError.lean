import QueryGlean.Graphql.BlockText

namespace QueryGlean.Graphql

inductive Fault
  | unexpectedCharacter (shown : String)
  | singleQuote
  | doubleDot
  | leadingDot (digits : String)
  | digitAfterZero (shown : String)
  | digitExpected (shown : String)
  | unterminatedString
  | badUnicodeEscape (spelling : String)
  | badEscape (spelling : String)
  | unexpected (found : String)
  | expected (wanted found : String)
  | reservedEnumValue (found : String)
  | constantVariable (name : String)
  | describedShorthand
  | describedOther
  | tooDeep
deriving DecidableEq, Repr, Inhabited

def Fault.message : Fault → String
  | unexpectedCharacter s => s!"Unexpected character: {s}."
  | singleQuote =>
    "Unexpected single quote character ('), did you mean to use a double quote (\")?"
  | doubleDot => "Unexpected '..', did you mean '...'?"
  | leadingDot digits =>
    s!"Invalid number, expected digit before '.', did you mean '0.{digits}'?"
  | digitAfterZero s => s!"Invalid number, unexpected digit after 0: {s}."
  | digitExpected s => s!"Invalid number, expected digit but got: {s}."
  | unterminatedString => "Unterminated string."
  | badUnicodeEscape s => s!"Invalid Unicode escape sequence: '{s}'."
  | badEscape s => s!"Invalid character escape sequence: '{s}'."
  | unexpected s => s!"Unexpected {s}."
  | expected w f => s!"Expected {w}, found {f}."
  | reservedEnumValue s => s!"{s} is reserved and cannot be used for an enum value."
  | constantVariable n => s!"Unexpected variable '${n}' in constant value."
  | describedShorthand =>
    "Unexpected description, descriptions are not supported on shorthand queries."
  | describedOther => "Unexpected description, only GraphQL definitions support descriptions."
  | tooDeep => "Document is nested too deeply. Parsing aborted."

structure SyntaxError where
  fault : Fault
  offset : Nat
deriving DecidableEq, Repr, Inhabited

namespace SyntaxError

-- The line and column of an offset, both from 1. A break that starts before the offset ends a
-- line, also when the offset stands within it.
def position (offset : Nat) (body : List Char) : Nat × Int :=
  go 1 0 0 body
where
  go (line lineStart i : Nat) : List Char → Nat × Int
    | [] => (line, (offset : Int) - lineStart + 1)
    | '\r' :: '\n' :: cs =>
      if i < offset then go (line + 1) (i + 2) (i + 2) cs else (line, (offset : Int) - lineStart + 1)
    | c :: cs =>
      if c = '\r' ∨ c = '\n' then
        if i < offset then go (line + 1) (i + 1) (i + 1) cs
        else (line, (offset : Int) - lineStart + 1)
      else go line lineStart (i + 1) cs

def padLeft (width : Nat) (s : String) : String :=
  String.ofList (List.replicate (width - s.length) ' ') ++ s

def labelled (rows : List (String × String)) : String :=
  let width := (rows.map (·.1.length)).foldl max 0
  "\n".intercalate (rows.map fun (label, line) =>
    padLeft width label ++ if line.isEmpty then "" else " " ++ line)

def pieces : Nat → List Char → List (List Char)
  | 0, _ => []
  | _, [] => []
  | fuel + 1, cs => cs.take 80 :: pieces fuel (cs.drop 80)

def excerpt (offset : Nat) (body : String) : String :=
  let (line, column) := position offset body.toList
  let column := column.toNat
  let ls := BlockText.lines body.toList
  let shown (i : Nat) : Option String := ls[i]?.map String.ofList
  let here := ls.getD (line - 1) []
  let caret (n : Nat) : String := padLeft n "^"
  let rows : List (String × String) :=
    -- Of a very long line the pieces up to the one behind the place are shown. The place behind the line
    -- belongs to its last piece.
    if 120 < here.length then
      let parts := (pieces here.length here).map String.ofList
      let index := min ((column - 1) / 80) (parts.length - 1)
      (s!"{line} |", parts.headD "") ::
        ((parts.drop 1).take index).map (("|", ·)) ++
        [("|", caret (column - 80 * index))] ++
        (parts[index + 1]?.map (("|", ·))).toList
    else
      (if 2 ≤ line then (shown (line - 2)).map ((s!"{line - 1} |", ·)) else none).toList ++
        [(s!"{line} |", String.ofList here), ("|", caret column)] ++
        ((shown line).map ((s!"{line + 1} |", ·))).toList
  s!"GraphQL request:{line}:{column}\n" ++ labelled rows

def message (e : SyntaxError) (body : String) : String :=
  "Syntax Error: " ++ e.fault.message ++ "\n\n" ++ excerpt e.offset body

end SyntaxError

end QueryGlean.Graphql
