import QueryGlean.Text.Hex
import QueryGlean.Text.Printable

namespace QueryGlean

namespace Quoted

def escapeChar (quote c : Char) : List Char :=
  let n := c.toNat
  if c = quote ∨ c = '\\' then ['\\', c]
  else if c = '\n' then ['\\', 'n']
  else if c = '\r' then ['\\', 'r']
  else if c = '\t' then ['\\', 't']
  else if isPrintable c then [c]
  else if n < 0x100 then '\\' :: 'x' :: hexDigits n 2
  else if n < 0x10000 then '\\' :: 'u' :: hexDigits n 4
  else '\\' :: 'U' :: hexDigits n 8

def quoteFor (cs : List Char) : Char :=
  if cs.contains '\'' && !cs.contains '"' then '"' else '\''

end Quoted

def quoted (s : String) : String :=
  let cs := s.toList
  let q := Quoted.quoteFor cs
  String.ofList (q :: cs.flatMap (Quoted.escapeChar q) ++ [q])

end QueryGlean
