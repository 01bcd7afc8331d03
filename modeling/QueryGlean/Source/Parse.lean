import QueryGlean.Source.Parse.Reader
import QueryGlean.Source.Text

namespace QueryGlean

namespace Reader

def javascript : Reader := ofLanguage .javascript
def typescript : Reader := ofLanguage .typescript
def tsx : Reader := ofLanguage .tsx

end Reader

def Language.reader : Language → Reader
  | javascript => Reader.javascript
  | typescript => Reader.typescript
  | tsx => Reader.tsx

structure Parsed where
  language : Language
  source : Source
  root : Tree
deriving Inhabited

-- The tree of a text, if all of it can be read. What is proved of it holds of any reader, so it stays
-- folded.
@[irreducible] def parseIn (l : Language) (src : Source) : Option Tree :=
  l.reader.read src.chars

def Parsed.first? (src : Source) : List Language → Option Parsed
  | [] => none
  | l :: ls =>
    match parseIn l src with
    | some root => some ⟨l, src, root⟩
    | none => first? src ls

end QueryGlean
