import QueryGlean.Console.Literal
import QueryGlean.Console.Style
import QueryGlean.Text.Word

namespace QueryGlean.Markup

inductive Piece
  | text (cs : List Char)
  | tag (content : List Char)
deriving DecidableEq, Repr

inductive Error
  | notOpen (name : String)
  | nothingOpen
  | badParameters (parameters : String)
  -- The share of a colour is left out.
  | missingNumber
deriving DecidableEq, Repr

def Error.message : Error → String
  | notOpen name => s!"closing tag '[/{name}]' doesn't match any open tag"
  | nothingOpen => "closing tag '[/]' has nothing to close"
  | badParameters parameters => s!"error parsing '{parameters}'"
  | missingNumber => "a share of a colour is left out"

def startsTag (c : Char) : Bool :=
  c.isLower || c == '#' || c == '/' || c == '@'

def tag? : List Char → Option (List Char × List Char)
  | [] => none
  | c :: cs =>
    let content := cs.takeWhile fun d => d != ']' && d != '['
    match cs.drop content.length with
    | ']' :: rest => if startsTag c then some (c :: content, rest) else none
    | _ => none

-- Cuts a text into tags and the text between; the text since the last cut, latest character first,
-- is in `acc`. Half of the backslashes before a tag are shown, and an odd one makes the tag text. Each
-- step spends fuel; the length of the text is enough.
def cut (acc : List Char) : Nat → List Char → List Piece
  | 0, _ => [.text acc.reverse]
  | _, [] => [.text acc.reverse]
  | fuel + 1, c :: cs =>
    if c = '[' ∨ c = '\\' then
      let slashes := (c :: cs).takeWhile (· = '\\')
      let behind := (c :: cs).dropWhile (· = '\\')
      match behind with
      | '[' :: inner =>
        match tag? inner with
        | some (content, rest) =>
          -- Two backslashes show one, and one that is left over takes the tag's meaning away.
          let shown := List.replicate (slashes.length / 2) '\\'
          if slashes.length % 2 = 1 then
            .text acc.reverse :: .text shown :: .text ('[' :: content ++ [']']) :: cut [] fuel rest
          else .text acc.reverse :: .text shown :: .tag content :: cut [] fuel rest
        | none => cut ('[' :: (slashes.reverse ++ acc)) fuel inner
      | _ => cut (slashes.reverse ++ acc) fuel behind
    else cut (c :: acc) fuel cs

def unescape : List Char → List Char
  | '\\' :: '[' :: cs => '[' :: unescape cs
  | c :: cs => c :: unescape cs
  | [] => []

def isControl (c : Char) : Bool :=
  ['\x07', '\x08', '\x0b', '\x0c', '\r'].contains c

def visible (cs : List Char) : List Char :=
  cs.filter fun c => !isControl c

structure OpenTag where
  style : String
  parameters : Option (List Char) := none
deriving DecidableEq, Repr

def spelling (name : List Char) : Except Error String :=
  match Console.styleSpelling name with
  | .ok s => .ok s
  | .error _ => .error .missingNumber

def splitTag (content : List Char) : List Char × Option (List Char) :=
  let name := content.takeWhile (· ≠ '=')
  (name, (content.drop name.length).tail?)

def OpenTag.ofContent (content : List Char) : Except Error OpenTag := do
  let (name, parameters) := splitTag content
  return ⟨← spelling name, parameters⟩

def close (style : String) : List OpenTag → Option (OpenTag × List OpenTag)
  | [] => none
  | t :: open' =>
    if t.style = style then some (t, open')
    else (close style open').map fun (u, open') => (u, t :: open')

def literalOf (parameters : List Char) : List Char :=
  let trimmed := trimBlank parameters
  match trimmed.dropWhile fun c => isWordChar c || c == '.' with
  | [] => ['(', ')']
  | '(' :: rest =>
    if rest.getLast? = some ')' && !rest.contains '\n' then '(' :: rest else trimmed
  | _ => trimmed

def OpenTag.check (t : OpenTag) : Except Error Unit :=
  match t.parameters with
  | none | some [] => .ok ()
  | some parameters =>
    if t.style.startsWith "@" && !Literal.isLiteral (literalOf parameters) then
      .error (.badParameters (String.ofList parameters))
    else .ok ()

-- Styles are looked up with their parameters, and a colour among those must be whole too.
def OpenTag.lookUp (t : OpenTag) : Except Error Unit :=
  match t.parameters with
  | none => .ok ()
  | some parameters => (spelling (t.style.toList ++ ' ' :: parameters)).map fun _ => ()

-- The text that is shown; `open'` holds the open tags, latest first.
def shown (open' : List OpenTag) : List Piece → Except Error (List Char)
  | [] => .ok []
  | .text cs :: rest => (shown open' rest).map (visible (unescape cs) ++ ·)
  | .tag ('/' :: content) :: rest => do
    -- Without a name the latest tag is closed.
    match trimBlank (splitTag content).1, open' with
    | [], [] => .error .nothingOpen
    | [], t :: open' => do t.check; shown open' rest
    | name, open' =>
      match close (← spelling name) open' with
      | some (t, open') => do t.check; shown open' rest
      | none => .error (.notOpen (String.ofList name))
  | .tag content :: rest => do
    let t ← OpenTag.ofContent content
    let cs ← shown (t :: open') rest
    t.lookUp
    return cs

-- Left out are texts with the name of an emoji between colons, which is left as it is here.
def render (s : String) : Except Error (List Char) :=
  let cs := s.toList
  shown [] (cut [] (cs.length + 1) cs)

end QueryGlean.Markup
