import QueryGlean.Text.Digit
import QueryGlean.Digest

namespace QueryGlean.Name

def word? (cs : List Char) : Option (List Char × List Char) :=
  let caps := cs.takeWhile Char.isUpper
  let rest := cs.dropWhile Char.isUpper
  let small := rest.takeWhile Char.isLower
  let digits := cs.takeWhile isDecimalDigit
  -- The last capital of a run before a small letter begins the next word.
  if small ≠ [] then
    if caps.length ≤ 1 then some (caps ++ small, rest.dropWhile Char.isLower)
    else some (caps.dropLast, cs.drop (caps.length - 1))
  else if caps ≠ [] then some (caps, rest)
  else if digits ≠ [] then some (digits, cs.dropWhile isDecimalDigit)
  else none

-- The words of a text. The measure `fuel` bounds the steps; the length of the text is enough, for
-- each step passes at least one character.
def wordsWithin : Nat → List Char → List (List Char)
  | 0, _ => []
  | _, [] => []
  | fuel + 1, c :: cs =>
    match word? (c :: cs) with
    | some (w, rest) => w :: wordsWithin fuel rest
    | none => wordsWithin fuel cs

def words (s : String) : List (List Char) :=
  wordsWithin s.length s.toList

def capitalize : List Char → List Char
  | [] => []
  | c :: cs => c.toUpper :: cs.map Char.toLower

-- `src/pages/blog-post.js` becomes `srcPagesBlogPostJs`.
def camelCase (s : String) : String :=
  match words s with
  | [] => ""
  | w :: ws => String.ofList (w.map Char.toLower ++ ws.flatMap capitalize)

def generate (path hash : String) : String :=
  camelCase path ++ hash

def contentHash (text : String) : String :=
  toString (Digest.ofText text).a.toNat

end QueryGlean.Name
