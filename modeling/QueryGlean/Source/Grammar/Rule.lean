import QueryGlean.Source.Grammar.Part
import QueryGlean.Source.Token

namespace QueryGlean

-- Strengths that are told apart by name. Which of two is the greater is said by the orders of a
-- grammar, and not for every pair.
inductive Bond
  | member | templateCall | call | new | unaryVoid | power | product | sum | shift | comparison
  | relation | equality | bitAnd | bitXor | bitOr | logicalAnd | logicalOr | conditional | assign
  | declare | literal | object | extending | instantiation | unary | binary
deriving DecidableEq, Hashable, Repr

inductive Strength
  | level (n : Int)
  | bond (b : Bond)
deriving DecidableEq, Hashable, Repr

inductive Side
  | left
  | right
deriving DecidableEq, Hashable, Repr

inductive Ranked
  | bond (b : Bond)
  | part (p : Part)
deriving DecidableEq, Repr

inductive Rule
  | empty
  | token (t : Token)
  -- A name, also one that is spelled like a reserved word.
  | anyWord
  | part (p : Part)
  | seq (first second : Rule)
  | alt (first second : Rule)
  -- One or more.
  | many (r : Rule)
  | bind (strength : Strength) (side : Option Side) (r : Rule)
  -- What is read counts for so much where a text can be read in two ways.
  | weigh (weight : Int) (r : Rule)
  -- The nodes are of this kind, whatever they would be else.
  | kind (kind : Kind) (r : Rule)
  | role (role : Role) (r : Rule)
deriving DecidableEq, Hashable, Repr, Inhabited

instance : Coe Token Rule := ⟨.token⟩
instance : Coe Part Rule := ⟨.part⟩
instance : Coe String Rule := ⟨fun s => .token (.literal s)⟩
instance : Coe Bond Strength := ⟨.bond⟩
instance : Coe Bond Ranked := ⟨.bond⟩
instance : Coe Part Ranked := ⟨.part⟩

namespace Rule

def all : List Rule → Rule
  | [] => empty
  | [r] => r
  | r :: rs => seq r (all rs)

def choice : List Rule → Rule
  | [] => empty
  | [r] => r
  | r :: rs => alt r (choice rs)

def allOf (groups : List (List Rule)) : Rule :=
  all groups.flatten

def choiceOf (groups : List (List Rule)) : Rule :=
  choice groups.flatten

def opt (r : Rule) : Rule :=
  alt r empty

def any (r : Rule) : Rule :=
  opt (many r)

def separatedBy (sep r : Rule) : Rule :=
  seq r (any (seq sep r))

def separated (r : Rule) : Rule :=
  separatedBy "," r

def sparse (r : Rule) : Rule :=
  opt (separated (opt r))

def strong (s : Strength) (r : Rule) : Rule :=
  bind s none r

def leftward (s : Strength) (r : Rule) : Rule :=
  bind s (some .left) r

def rightward (s : Strength) (r : Rule) : Rule :=
  bind s (some .right) r

end Rule

def Strength.plain : Strength :=
  .level 0

structure Grammar where
  rules : List (Part × Rule)
  orders : List (List Ranked)
  reserved : List String

end QueryGlean
