import QueryGlean.Source.Automaton.Action

namespace QueryGlean

structure Automaton where
  states : Array Automaton.State
  numbers : Std.HashMap (Array Automaton.Item) Nat
  targets : Std.HashMap (Nat × Nat) (Option Nat)
  decisions : Std.HashMap (Nat × Nat) (List Automaton.Action)
deriving Inhabited

namespace Automaton

variable (p : Productions)

def enter (kernel : Array Item) : StateM Automaton Nat := do
  match (← get).numbers[kernel]? with
  | some i => return i
  | none =>
    modifyGet fun m =>
      let i := m.states.size
      (i, { m with states := m.states.push (p.state kernel), numbers := m.numbers.insert kernel i })

def initial : Automaton :=
  let begin' : Array Item := #[⟨p.opening, TokenSet.single (p.numbering.token .finish)⟩]
  ((enter p begin').run ⟨#[], ∅, ∅, ∅⟩).2

def state (i : Nat) : StateM Automaton State :=
  return (← get).states[i]?.getD default

def target (i symbol : Nat) : StateM Automaton (Option Nat) := do
  match (← get).targets[(i, symbol)]? with
  | some t => return t
  | none =>
    let kernel := p.kernelAfter (← state i) symbol
    let t ← if kernel.isEmpty then pure none else some <$> enter p kernel
    modify fun m => { m with targets := m.targets.insert (i, symbol) t }
    return t

def actions (i token : Nat) : StateM Automaton (List Action) := do
  match (← get).decisions[(i, token)]? with
  | some as => return as
  | none =>
    let as := p.actions (← state i) token (← target p i token)
    modify fun m => { m with decisions := m.decisions.insert (i, token) as }
    return as

def alike (i j : Nat) : StateM Automaton Bool := do
  if i = j then return true
  else return (← state i).outline == (← state j).outline

def join (i j : Nat) : StateM Automaton Nat := do
  if i = j then return i
  else
    let a ← state i
    let b ← state j
    enter p (Array.zipWith (fun x y => ⟨x.point, x.follow ∪ y.follow⟩) a.kernel b.kernel)

end Automaton

end QueryGlean
