
namespace QueryGlean.Graphql.BlockText

def isIndent (c : Char) : Bool :=
  c == ' ' || c == '\t'

def isEmptyLine (line : List Char) : Bool :=
  line.all isIndent

def lines : List Char → List (List Char)
  | [] => [[]]
  | '\r' :: '\n' :: cs => [] :: lines cs
  | c :: cs =>
    if c = '\r' ∨ c = '\n' then [] :: lines cs
    else match lines cs with
      | [] => [[c]]
      | l :: ls => (c :: l) :: ls

def commonIndent (ls : List (List Char)) : Option Nat :=
  ((ls.filter fun l => !isEmptyLine l).map fun l => (l.takeWhile isIndent).length).min?

-- Takes the common indentation from all lines but the first, and the empty lines from both
-- ends.
def dedent : List (List Char) → List (List Char)
  | [] => []
  | first :: rest =>
    let stripped := match commonIndent rest with
      | some n => rest.map (·.drop n)
      | none => rest.map fun _ => []
    trimEnd ((first :: stripped).dropWhile isEmptyLine)
where
  trimEnd (ls : List (List Char)) : List (List Char) :=
    (ls.reverse.dropWhile isEmptyLine).reverse

def unescape : List Char → List Char
  | [] => []
  | '\\' :: '"' :: '"' :: '"' :: cs => '"' :: '"' :: '"' :: unescape cs
  | c :: cs => c :: unescape cs

def escape : List Char → List Char
  | [] => []
  | '"' :: '"' :: '"' :: cs => '\\' :: '"' :: '"' :: '"' :: escape cs
  | c :: cs => c :: escape cs

def value (inside : List Char) : String :=
  String.ofList ("\n".toList.intercalate (dedent ((lines inside).map unescape)))

def endsWith (cs tail : List Char) : Bool :=
  tail.reverse.isPrefixOf cs.reverse

def print (text : String) (minimize : Bool) : String :=
  let cs := text.toList
  let escaped := escape cs
  let ls := lines escaped
  -- Indentation of the first line would be lost, and that of the others taken for shared.
  let leadingBreak := 1 < ls.length && (ls.drop 1).all fun l => l.head?.all isIndent
  let trailingTriple := endsWith escaped "\\\"\"\"".toList
  -- A quote or backslash at the end would run into the closing quotes.
  let trailingBreak := (endsWith cs ['"'] && !trailingTriple) || endsWith cs ['\\']
  let spread := !minimize &&
    (1 < ls.length || 70 < cs.length || trailingBreak || leadingBreak || trailingTriple)
  let keepsFirst := ls.length == 1 && cs.head?.any isIndent
  let opening := if (spread && !keepsFirst) || leadingBreak then "\n" else ""
  let closing := if spread || trailingBreak then "\n" else ""
  "\"\"\"" ++ opening ++ String.ofList escaped ++ closing ++ "\"\"\""

end QueryGlean.Graphql.BlockText
