import Std.Data.HashMap
import QueryGlean.Source.Grammar.Rule

namespace QueryGlean

inductive Symbol
  | token (t : Token)
  | part (p : Part)
  | many (r : Rule)
deriving DecidableEq, Hashable, Repr, Inhabited

structure Label where
  kind : Option Kind := none
  role : Option Role := none
deriving DecidableEq, Repr, Inhabited

structure Step where
  symbol : Nat
  anyWord : Bool
  strength : Option Strength
  side : Option Side
  label : Label
deriving DecidableEq, Repr, Inhabited

abbrev Production := List Step × Int

structure Setting where
  strength : Option Strength := none
  side : Option Side := none
  label : Label := {}

-- Of two weights the one that counts for more; of equal ones the first.
def heavier (m n : Int) : Int :=
  if m.natAbs < n.natAbs then n else m

namespace Rule

def tokens : Rule → List Token
  | empty | part _ | anyWord => []
  | token t => [t]
  | seq a b | alt a b => tokens a ++ tokens b
  | many r | bind _ _ r | weigh _ r | kind _ r | role _ r => tokens r

def repeated : Rule → List Rule
  | empty | part _ | anyWord | token _ => []
  | seq a b | alt a b => repeated a ++ repeated b
  | many r => repeated r ++ [r]
  | bind _ _ r | weigh _ r | kind _ r | role _ r => repeated r

variable (number : Symbol → Nat)

def step (s : Setting) (symbol : Symbol) (anyWord : Bool) : Production :=
  ([⟨number symbol, anyWord, s.strength, s.side, s.label⟩], 0)

def loosen (s : Setting) (steps : List Step) : List Step :=
  match steps.getLast? with
  | some last => steps.dropLast ++ [{ last with strength := s.strength, side := s.side }]
  | none => steps

-- The productions of a rule. `last` tells whether nothing of the rule around it follows: a strength
-- belongs to what stands between the steps of its rule, and to what follows only at the end.
def productions (s : Setting) (last : Bool) : Rule → List Production
  | empty => [([], 0)]
  | token t => [step number s (.token t) false]
  | anyWord => [step number s (.token .name) true]
  | part p => [step number s (.part p) false]
  | many r => [step number s (.many r) false]
  | seq a b =>
    let behind := productions s last b
    (productions s false a).flatMap fun (xs, m) => behind.map fun (ys, n) => (xs ++ ys, heavier m n)
  | alt a b => productions s last a ++ productions s last b
  | bind strength side r =>
    let inner := { s with strength := some strength, side := side.or s.side }
    (productions inner last r).map fun (xs, n) => (if last then xs else loosen s xs, n)
  | weigh n r => (productions s last r).map fun (xs, m) => (xs, heavier n m)
  | kind k r => productions { s with label := { s.label with kind := some k } } last r
  | role k r => productions { s with label := { s.label with role := some k } } last r

-- A repetition is a symbol of its own, made of itself twice or of what is repeated.
def repetition (r : Rule) : List Production :=
  let again := (step number {} (.many r) false).1
  (again ++ again, 0) :: productions number {} true r

end Rule

structure Numbering where
  tokens : Array Token
  parts : Array Part
  repetitions : Array Rule
  numbers : Std.HashMap Symbol Nat
deriving Inhabited

namespace Numbering

def distinct [BEq α] [Hashable α] (xs : List α) : Array α :=
  (xs.foldl (fun (seen, acc) x => if seen.contains x then (seen, acc) else (seen.insert x (), acc.push x))
    ((∅ : Std.HashMap α Unit), #[])).2

def ofGrammar (g : Grammar) : Numbering :=
  let rules := g.rules.map (·.2)
  -- Comments stand everywhere, and no rule names them.
  let tokens := distinct ([Token.finish, .name] ++ rules.flatMap Rule.tokens ++ [.comment, .markupComment])
  let parts := (g.rules.map (·.1)).toArray
  let repetitions := distinct (rules.flatMap Rule.repeated)
  let symbols := tokens.map Symbol.token ++ parts.map Symbol.part ++ repetitions.map Symbol.many
  let number (i : Nat) : Nat := if i < tokens.size then i else i + 1
  { tokens, parts, repetitions
    numbers := Std.HashMap.ofList (symbols.toList.zipIdx.map fun (s, i) => (s, number i)) }

variable (n : Numbering)

-- The number of a symbol; what the grammar does not know has the number of no symbol.
def number (s : Symbol) : Nat :=
  n.numbers[s]?.getD (n.tokens.size + 1 + n.parts.size + n.repetitions.size)

def token (t : Token) : Nat :=
  n.number (.token t)

def firstPart : Nat :=
  n.tokens.size + 1

def isToken (i : Nat) : Bool :=
  i < n.tokens.size

def isRepetition (i : Nat) : Bool :=
  n.firstPart + n.parts.size ≤ i

def part? (i : Nat) : Option Part :=
  if i < n.firstPart then none else n.parts[i - n.firstPart]?

def productions (g : Grammar) : List (List Production) :=
  g.rules.map (fun (_, r) => r.productions n.number {} true) ++
    n.repetitions.toList.map (Rule.repetition n.number)

end Numbering

end QueryGlean
