import QueryGlean.Source.Scan
import QueryGlean.Source.Parse.Stacks

namespace QueryGlean

structure Reader where
  productions : Productions
  lexicon : Lexicon
  -- The kinds of the nodes of parts, by number from the first part.
  kinds : Array (Option Kind)
  initial : Automaton
deriving Inhabited

namespace Reader

def ofLanguage (l : Language) : Reader :=
  let productions := Productions.ofGrammar l.grammar
  { productions
    lexicon := Lexicon.ofProductions l.isTyped productions
    kinds := productions.numbering.parts.map Part.kind?
    initial := Automaton.initial productions }

variable (r : Reader) (cs : Array Char)

def fuelFor (size : Nat) : Nat :=
  1000 * (size + 2)

def headLimit : Nat := 6

open Reading Automaton

def setStuck (v : Nat) : Reading Unit :=
  setProgress v .stuck

def combine (d : Reduction) (place : Nat) (trees : List Subtree) : Subtree × List Subtree :=
  let latestFirst := trees.reverse
  let behind := latestFirst.takeWhile (·.isComment)
  let children := (latestFirst.dropWhile (·.isComment)).reverse
  let kind? := (r.kinds[r.productions.root d.part]?).join
  let labels := (r.productions.point d.point).labels.reverse
  (.ofChildren d.part kind? labels place children, behind.reverse)

def best (d : Reduction) (place : Nat) : List (List Subtree) → Subtree × List Subtree
  | [] => default
  | w :: ws => ws.foldl (fun kept w =>
      let other := r.combine d place w
      if kept.1.isBetter other.1 then other else kept) (r.combine d place w)

def mergeDown (fuel own v : Nat) : List Nat → Reading Bool
  | [] => return false
  | j :: js => do
    if j ≠ own then
      if ← merge r.productions fuel j v then return true
    mergeDown fuel own v js

def land (fuel own : Nat) (d : Reduction) (halted : Nat) : Nat → List Landing → Reading Unit
  | _, [] => return
  | removed, l :: ls => do
    let v := l.head - removed
    if headLimit + 4 + halted < v then
      dropHead v
      land fuel own d halted (removed + 1) ls
    else
      let under ← headPlace v
      let (tree, behind) := r.best d under.offset l.ways
      let tree := { tree with weight := tree.weight + d.weight }
      match ← Automaton.target r.productions under.state d.part with
      | none => setStuck v; land fuel own d halted removed ls
      | some state =>
        push v tree state
        for c in behind do push v c state
        let isMerged ← r.mergeDown fuel own v (List.range v)
        land fuel own d halted (if isMerged then removed + 1 else removed) ls

def reduce (fuel v : Nat) (d : Reduction) : Reading (Option Nat) := do
  let before ← headCount
  let halted := ((← get).heads.filter (·.progress = .finished)).size
  let landings ← pop fuel v d.depth
  r.land fuel v d halted 0 landings
  return if before < (← headCount) then some before else none

def whole (way : List Subtree) : Option Subtree :=
  let behind := way.takeWhile (·.isComment)
  match way.dropWhile (·.isComment) with
  | [] => none
  | t :: before =>
    let comments (ts : List Subtree) : List Tree := ts.flatMap (Subtree.trees {})
    some { t with
      start := (before.getLast?.map (·.start)).getD t.start
      stop := (behind.head?.map (·.stop)).getD t.stop
      size := t.size + way.length
      children := before.reverse ++ t.children ++ behind.reverse
      inside := comments behind ++ t.inside ++ comments before }

def accept (fuel v : Nat) : Reading Unit := do
  for way in ← waysDown fuel (← head v).place do
    match whole way with
    | none => pure ()
    | some t =>
      modify fun s => { s with result :=
        match s.result with
        | some old => if old.isBetter t then some t else some old
        | none => some t }
  setProgress v .finished

inductive Outcome
  | advanced
  | reduced (v : Nat)
  | refused
deriving Inhabited

def shift (v : Nat) (x : Lexeme) (isComment : Bool) (state : Nat) : Reading Unit := do
  let offset := (← headPlace v).offset
  let token := (r.productions.numbering.tokens[x.token]?).getD default
  push v (.ofToken x.token token offset x.start x.stop isComment) state

def act (fuel v : Nat) (x : Lexeme) : Outcome → List Action → Reading Outcome
  | done, [] => return done
  | _, .shift i :: _ => do r.shift v x false i; return .advanced
  | _, .pass :: _ => do r.shift v x true (← headPlace v).state; return .advanced
  | _, .accept :: _ => do accept fuel v; return .advanced
  | done, .reduce d :: rest => do
    match ← r.reduce fuel v d with
    | some w => act fuel v x (.reduced w) rest
    | none => act fuel v x done rest

-- Lets a reading take a token, after all that it makes of what was read before. A keyword that cannot
-- come is tried as a name.
def take (fuel v : Nat) : Nat → Lexeme → Reading Unit
  | 0, _ => setStuck v
  | steps + 1, x => do
    let i := (← headPlace v).state
    match ← r.act fuel v x .refused (← Automaton.actions r.productions i x.token) with
    | .advanced => return
    | .reduced w =>
      setHead v (← head w)
      dropHead w
      take fuel v steps x
    | .refused =>
      let name := r.productions.numbering.token .name
      let state ← Automaton.state i
      let mayBeName := x.isKeyword && x.token ≠ name && !r.lexicon.forbids state.expected x.token
      if mayBeName && !(← Automaton.actions r.productions i name).isEmpty then
        take fuel v steps { x with token := name }
      else setStuck v

def advance (fuel v : Nat) : Reading Unit := do
  let here ← headPlace v
  let state ← Automaton.state here.state
  match r.lexicon.scan state.expected cs here.offset with
  | some x => r.take fuel v fuel x
  | none => setStuck v

def advanceBeyond (fuel v : Nat) : Nat → Nat → Reading Nat
  | 0, last => return last
  | steps + 1, last => do
    if (← head v).progress = .active then
      r.advance cs fuel v
      let offset := (← headPlace v).offset
      if last < offset || (0 < v && offset = last) then return offset
      else advanceBeyond fuel v steps last
    else return last

def advanceAll (fuel : Nat) : Nat → Nat → Nat → Reading Nat
  | 0, _, last => return last
  | steps + 1, v, last => do
    if v < (← headCount) then
      let last ← r.advanceBeyond cs fuel v fuel last
      advanceAll fuel steps (v + 1) last
    else return last

inductive Preference
  | onlyFirst
  | first
  | second
  | onlySecond
deriving DecidableEq, Repr

def prefer (v w : Nat) : Reading Preference := do
  let a ← head v
  let b ← head w
  if a.progress ≠ .stuck && b.progress = .stuck then return .onlyFirst
  else if a.progress = .stuck && b.progress ≠ .stuck then return .onlySecond
  else if (← place a.place).weight < (← place b.place).weight then return .second
  else return .first

def swapHeads (v w : Nat) : Reading Unit := do
  let a ← head v
  let b ← head w
  setHead v b
  setHead w a

def weigh (fuel : Nat) : Nat → Nat → Nat → Reading Nat
  | 0, _, v => return v + 1
  | steps + 1, j, v => do
    if j < v then
      match ← prefer j v with
      | .onlyFirst => dropHead v; return v
      | .first => if ← merge r.productions fuel j v then return v else weigh fuel steps (j + 1) v
      | .second =>
        if ← merge r.productions fuel j v then return v
        else
          swapHeads j v
          weigh fuel steps (j + 1) v
      | .onlySecond => dropHead j; weigh fuel steps j (v - 1)
    else return v + 1

-- Readings at the same points become one, and of those that got stuck none is kept while another goes on.
def condense (fuel : Nat) : Nat → Nat → Reading Unit
  | 0, _ => return
  | steps + 1, v => do
    if v < (← headCount) then
      if (← head v).progress = .finished then
        dropHead v
        condense fuel steps v
      else condense fuel steps (← r.weigh fuel fuel 0 v)
    else modify fun s => { s with heads := s.heads.extract 0 headLimit }

def rounds (fuel : Nat) : Nat → Nat → Reading Unit
  | 0, _ => return
  | steps + 1, last => do
    let last ← r.advanceAll cs fuel fuel 0 last
    r.condense fuel fuel 0
    if (← get).heads.any (·.progress = .active) then rounds fuel steps last

def read (cs : Array Char) : Option Tree :=
  let start : Stacks := ⟨#[⟨0, 0, 0, #[]⟩], #[⟨0, .active⟩], none⟩
  let fuel := fuelFor cs.size
  let (out, _) := ((r.rounds cs fuel fuel 0).run start).run r.initial
  match out.2.result with
  | some t => (t.trees {}).head?
  | none => none

end Reader

end QueryGlean
