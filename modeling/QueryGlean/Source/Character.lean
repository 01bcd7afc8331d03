
namespace QueryGlean.Character

def isSpaceSeparator (n : Nat) : Bool :=
  n == 0x20 || n == 0xA0 || n == 0x1680 || (0x2000 ≤ n && n ≤ 0x200A) || n == 0x202F || n == 0x205F ||
    n == 0x3000

def isSpace (c : Char) : Bool :=
  let n := c.toNat
  (0x09 ≤ n && n ≤ 0x0D) || isSpaceSeparator n || n == 0x2028 || n == 0x2029 || n == 0xFEFF ||
    n == 0x2060 || n == 0x200B

def isBreakingSpace (c : Char) : Bool :=
  let n := c.toNat
  (0x09 ≤ n && n ≤ 0x0D) || n == 0x20 || n == 0x1680 || (0x2000 ≤ n && n ≤ 0x200A && n != 0x2007) ||
    n == 0x2028 || n == 0x2029 || n == 0x205F || n == 0x3000

def isStatementBreak (c : Char) : Bool :=
  c == '\n' || c == '\u2028' || c == '\u2029'

def isLineBreak (c : Char) : Bool :=
  isStatementBreak c || c == '\r'

def punctuation : List Char :=
  [':', ';', '\x60', '"', '\'', '@', '#', '.', ',', '|', '^', '&', '<', '=', '>', '+', '-', '*', '/', '\\',
    '%', '?', '!', '~', '(', ')', '[', ']', '{', '}']

def isNamePart (c : Char) : Bool :=
  if c.isAlphanum || c == '_' || c == '$' then true
  else 0x1F < c.toNat && !isSpace c && !punctuation.contains c

def isNameStart (c : Char) : Bool :=
  isNamePart c && !c.isDigit

-- Letters; beyond ASCII whatever a name may hold counts as one.
def isLetter (c : Char) : Bool :=
  c.isAlpha || (0x7F < c.toNat && isNamePart c)

def isHexDigit (c : Char) : Bool :=
  c.isDigit || ('a' ≤ c && c ≤ 'f') || ('A' ≤ c && c ≤ 'F')

def isOctalDigit (c : Char) : Bool :=
  '0' ≤ c && c ≤ '7'

def isBinaryDigit (c : Char) : Bool :=
  c == '0' || c == '1'

end QueryGlean.Character
