import QueryGlean.Graphql.Lexer

namespace QueryGlean.Graphql

def Lexeme.compact (l : Lexeme) : String :=
  if l.kind = .blockString then BlockText.print l.value true else l.spelling

-- A blank stands between two lexemes that are no punctuators, and before a spread that follows
-- one.
def compactLexemes (ls : List Lexeme) : String :=
  go false ls
where
  go (afterWord : Bool) : List Lexeme → String
    | [] => ""
    | l :: ls =>
      let word := !l.kind.isPunctuator
      let gap := if afterWord && (word || l.kind == .spread) then " " else ""
      gap ++ l.compact ++ go word ls

def compact (text : String) : String :=
  compactLexemes ((TokenStream.ofString text).tokens.map (·.toLexeme))

end QueryGlean.Graphql
