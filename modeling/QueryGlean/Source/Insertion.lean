import QueryGlean.Source.Lexical

namespace QueryGlean.Insertion

open Character Lexical

structure Search where
  stop : Nat
  sawComment : Bool
deriving Repr, Inhabited

inductive Gap
  | token (s : Search)
  | comment (s : Search) (isBroken : Bool)
  | slash (s : Search)
deriving Repr, Inhabited

def starComment (cs : Array Char) (isBroken : Bool) : Nat → Nat → Option Nat × Nat × Bool
  | 0, i => (none, i, isBroken)
  | fuel + 1, i =>
    if ended cs i then (none, i, isBroken)
    else if is cs i '*' && is cs (i + 1) '/' then (some (i + 2), i + 2, isBroken)
    else starComment cs (isBroken || sat cs i isStatementBreak) fuel (i + 1)

def gap (pauses : Bool) (cs : Array Char) (isBroken : Bool) (s : Search) : Nat → Gap
  | 0 => .token s
  | fuel + 1 =>
    let j := skipAll isBreakingSpace cs s.stop
    if !is cs j '/' then .token { s with stop := j }
    else if is cs (j + 1) '/' then
      let k := skipAll (fun c => !isStatementBreak c && c != '\x00') cs (j + 2)
      gap pauses cs isBroken ⟨k, true⟩ fuel
    else if is cs (j + 1) '*' then
      match starComment cs isBroken (cs.size - j) (j + 2) with
      | (some k, _, isBroken) =>
        if pauses && !is cs k '/' then .comment ⟨k, true⟩ isBroken
        else gap pauses cs isBroken ⟨k, true⟩ fuel
      | (none, k, isBroken) => gap pauses cs isBroken { s with stop := k } fuel
    else .slash { s with stop := j + 1 }

abbrev Verdict := Bool × Search

def Search.at' (s : Search) (i : Nat) : Search :=
  { s with stop := i }

def alongInstanceof (cs : Array Char) : List Char → Nat → Option Nat
  | [], i => some i
  | c :: rest, i => if is cs i c then alongInstanceof cs rest (i + 1) else none

-- Whether the line that starts at a place opens a statement of its own, when no bracket or operator
-- says otherwise. A doubled sign belongs to the next line, a single one to both; the words `in` and
-- `instanceof` are operators.
def opensStatement (cs : Array Char) (s : Search) : Verdict :=
  let i := s.stop
  match cs[i]? with
  | some '+' => (is cs (i + 1) '+', s.at' (i + 1))
  | some '-' => (is cs (i + 1) '-', s.at' (i + 1))
  | some '!' => (!is cs (i + 1) '=', s.at' (i + 1))
  | some 'i' =>
    if !is cs (i + 1) 'n' then (true, s)
    else if !sat cs (i + 2) isLetter then (false, s.at' (i + 2))
    else match alongInstanceof cs "stanceof".toList (i + 2) with
      | some j => (sat cs j isLetter, s.at' j)
      | none => (true, s)
  | _ => (true, s)

def isOneOf (chars : List Char) (cs : Array Char) (i : Nat) : Bool :=
  sat cs i chars.contains

def opensUntyped (cs : Array Char) (s : Search) : Verdict :=
  if isOneOf ['\x60', ',', ':', ';', '*', '%', '>', '<', '=', '[', '(', '?', '^', '|', '&', '/'] cs s.stop then
    (false, s)
  else if is cs s.stop '.' then (sat cs (s.stop + 1) Char.isDigit, s.at' (s.stop + 1))
  else opensStatement cs s

def endsUntyped (operator : Bool) (cs : Array Char) (s : Search) : Nat → Verdict
  | 0 => (false, s)
  | fuel + 1 =>
    if ended cs s.stop then (true, s)
    else
      -- Where no operator could come, a comment that ends its line ends the statement.
      let looked : Bool × Verdict :=
        if is cs s.stop '/' then
          let readsOn (s : Search) : Bool := isOneOf [',', '='] cs s.stop
          match gap true cs false s fuel with
          | .slash s => (true, false, s)
          | .token s => (!operator && !readsOn s, true, s)
          | .comment s isBroken => (isBroken && !operator && !readsOn s, true, s)
        else (false, false, s)
      if looked.1 then looked.2
      else
        let s := looked.2.2
        if is cs s.stop '}' then (true, s)
        else if sat cs s.stop isStatementBreak then
          match gap false cs false (s.at' (s.stop + 1)) fuel with
          | .slash s => (false, s)
          | .token s | .comment s _ => opensUntyped cs s
        else if sat cs s.stop isBreakingSpace then endsUntyped operator cs (s.at' (s.stop + 1)) fuel
        else (false, s)

-- Passes space and comments of a typed language; only a comment of one line counts.
def typedGap (cs : Array Char) (s : Search) : Nat → Gap
  | 0 => .token s
  | fuel + 1 =>
    let j := skipAll isBreakingSpace cs s.stop
    if !is cs j '/' then .token (s.at' j)
    else if is cs (j + 1) '/' then
      let k := skipAll (fun c => c != '\n' && c != '\x00') cs (j + 2)
      typedGap cs ⟨k, true⟩ fuel
    else if is cs (j + 1) '*' then
      let (_, k, _) := starComment cs false (cs.size - j) (j + 2)
      typedGap cs (s.at' k) fuel
    else .slash (s.at' (j + 1))

def opensTyped (operator omittedBody : Bool) (cs : Array Char) (s : Search) : Verdict :=
  if isOneOf ['\x60', ',', '.', ';', '*', '%', '>', '<', '=', '?', '^', '|', '&', '/', ':'] cs s.stop then
    (false, s)
  else if is cs s.stop '{' && omittedBody then (false, s)
  else if isOneOf ['(', '['] cs s.stop && operator then (false, s)
  else opensStatement cs s

def endsTyped (operator omittedBody : Bool) (cs : Array Char) (s : Search) : Nat → Verdict
  | 0 => (false, s)
  | fuel + 1 =>
    if ended cs s.stop then (true, s)
    else if is cs s.stop '}' then
      let k := skipAll isBreakingSpace cs (s.stop + 1)
      -- A colon behind the brace makes what the brace ends a pattern.
      (!is cs k ':' || operator, s.at' k)
    else if is cs s.stop '\n' then
      match typedGap cs (s.at' (s.stop + 1)) fuel with
      | .slash s => (false, s)
      | .token s | .comment s _ => opensTyped operator omittedBody cs s
    else if sat cs s.stop isBreakingSpace then
      endsTyped operator omittedBody cs (s.at' (s.stop + 1)) fuel
    else (false, s)

def ends (typed operator omittedBody : Bool) (cs : Array Char) (i : Nat) : Verdict :=
  let fuel := cs.size - i + 2
  if typed then endsTyped operator omittedBody cs ⟨i, false⟩ fuel
  else endsUntyped operator cs ⟨i, false⟩ fuel

end QueryGlean.Insertion
