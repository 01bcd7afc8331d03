import QueryGlean.Text.Blank
import QueryGlean.Value

namespace QueryGlean

inductive Misfit
  | missing
  | notText
  | notInteger
  | unreadableInteger
  | integerTooLarge
  | fraction
  | notSwitch
  | unreadableSwitch
  | notOneOf
  | notConstant
  | tooShort
  | notDefinition
  | notDocument
deriving DecidableEq, Repr, Inhabited

structure FieldFault where
  field : String
  misfit : Misfit
deriving DecidableEq, Repr

abbrev Checked (α : Type) := Except (List FieldFault) α

namespace Checked

def of (a : α) : Checked α :=
  .ok a

def and (f : Checked (α → β)) (a : Checked α) : Checked β :=
  match f, a with
  | .ok f, .ok a => .ok (f a)
  | .ok _, .error e => .error e
  | .error e, .ok _ => .error e
  | .error e, .error e' => .error (e ++ e')

end Checked

namespace Value

abbrev Reader (α : Type) := Value → Except Misfit α

def readText : Reader String
  | text s => .ok s
  | _ => .error .notText

def readOptional (read : Reader α) : Reader (Option α)
  | null => .ok none
  | v => (read v).map some

def isPadding (c : Char) : Bool :=
  isBlank c && !(0x1C ≤ c.toNat && c.toNat ≤ 0x1F)

def trimPadding (cs : List Char) : List Char :=
  ((cs.dropWhile isPadding).reverse.dropWhile isPadding).reverse

-- Takes zeros and underscores off the front of a number that starts with a zero, unless nothing
-- else is left; `last` is the character before. What is left may have a sign.
def dropZeros (last : Char) : List Char → Option (List Char)
  | [] => some [last]
  | '.' :: cs => some (last :: '.' :: cs)
  | c :: cs =>
    if c = '0' ∨ c = '_' then dropZeros c cs
    else if c = '-' ∨ ('1' ≤ c ∧ c ≤ '9') then some (c :: cs)
    else none

def dropFraction (cs : List Char) : List Char :=
  let whole := cs.takeWhile (· ≠ '.')
  let zeros := (cs.drop whole.length).drop 1
  if !zeros.isEmpty && zeros.all (· = '0') then whole else cs

def dropUnderscores (cs : List Char) : List Char :=
  let doubled := (cs.zip (cs.drop 1)).any fun (a, b) => a = '_' && b = '_'
  if cs.head? = some '_' ∨ cs.getLast? = some '_' ∨ doubled then cs else cs.filter (· ≠ '_')

def plainDigits? (cs : List Char) : Option (List Char) := do
  let cs ← match cs with
    | [] => none
    | '0' :: cs => dropZeros '0' cs
    | c :: _ => if '1' ≤ c ∧ c ≤ '9' then some cs else none
  return dropUnderscores (dropFraction cs)

def plainInteger? (s : String) : Option (List Char) :=
  match trimPadding s.toList with
  | '+' :: '-' :: _ => none
  | '+' :: cs => plainDigits? cs
  | '-' :: cs => (plainDigits? cs).map ('-' :: ·)
  | cs => plainDigits? cs

def digitsValue? (cs : List Char) : Option Nat :=
  if cs ≠ [] ∧ cs.all Char.isDigit then
    some (cs.foldl (fun n c => 10 * n + (c.toNat - 48)) 0)
  else none

def longestInteger : Nat := 4300

def integerOfText (s : String) : Except Misfit Int :=
  match plainInteger? s with
  | none => .error .unreadableInteger
  | some cs =>
    if longestInteger < cs.length then .error .integerTooLarge
    else
      let value := match cs with
        | '-' :: cs => (digitsValue? cs).map fun n => -(n : Int)
        | cs => (digitsValue? cs).map fun n => (n : Int)
      match value with
      | some n => .ok n
      | none => .error .unreadableInteger

def isWord (n : Int) : Bool :=
  -0x8000000000000000 ≤ n && n < 0x8000000000000000

def integerOfDecimal (mantissa : Int) (places : Nat) : Except Misfit Int :=
  if mantissa % Int.pow 10 places ≠ 0 then .error .fraction
  else
    let n := mantissa / Int.pow 10 places
    -- The least integer of 64 bits counts as too large: it may be a smaller one, rounded.
    if n.natAbs < 0x8000000000000000 then .ok n else .error .integerTooLarge

def readInteger : Reader Int
  | integer n => .ok n
  | bool b => .ok (if b then 1 else 0)
  | decimal m p => integerOfDecimal m p
  | text s => integerOfText s
  | _ => .error .notInteger

def switchOfInteger (n : Int) : Except Misfit Bool :=
  if n = 0 then .ok false else if n = 1 then .ok true else .error .unreadableSwitch

def switchOfText (s : String) : Except Misfit Bool :=
  let word := String.ofList (s.toList.map Char.toLower)
  if ["0", "off", "f", "false", "n", "no"].contains word then .ok false
  else if ["1", "on", "t", "true", "y", "yes"].contains word then .ok true
  else .error .unreadableSwitch

def readSwitch : Reader Bool
  | bool b => .ok b
  | text s => switchOfText s
  | integer n => if isWord n then switchOfInteger n else .error .notSwitch
  | decimal m p =>
    match integerOfDecimal m p with
    | .ok n => switchOfInteger n
    | .error _ => .error .notSwitch
  | _ => .error .notSwitch

def readName (ofName? : String → Option α) : Reader α
  | text s => (ofName? s).elim (.error .notOneOf) .ok
  | _ => .error .notOneOf

def readConstant (s : String) : Reader Unit
  | text s' => if s' = s then .ok () else .error .notConstant
  | _ => .error .notConstant

end Value

def Checked.required (fields : List (String × Value)) (name : String) (read : Value.Reader α) :
    Checked α :=
  match fields.lookup name with
  | none => .error [⟨name, .missing⟩]
  | some v => (read v).mapError fun m => [⟨name, m⟩]

def Checked.optional (fields : List (String × Value)) (name : String) (default : α)
    (read : Value.Reader α) : Checked α :=
  match fields.lookup name with
  | none => .ok default
  | some v => (read v).mapError fun m => [⟨name, m⟩]

end QueryGlean
