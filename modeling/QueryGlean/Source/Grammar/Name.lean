import QueryGlean.Source.Grammar.Rule
import QueryGlean.Language

namespace QueryGlean.Grammar

open Rule QueryGlean.Part

variable (l : Language)

def typed (rs : List α) : List α :=
  if l.isTyped then rs else []

def untyped (rs : List α) : List α :=
  if l.isTyped then [] else rs

def identifier : Rule :=
  Token.name

def word (r : Rule) : Rule :=
  .kind .word r

def keyword (s : String) : Rule :=
  word s

def softKeyword : Rule :=
  choiceOf [
    typed l ["declare", "namespace", "type", "public", "private", "protected", "override", "readonly",
      "module", "any", "number", "boolean", "string", "symbol", "export", "object", "new"],
    ["get", "set", "async"],
    untyped l ["await"],
    ["static", "export", "let"]]

def nameAs (k : Kind) : Rule :=
  .kind k (choice [identifier, softKeyword l])

def nameWord : Rule :=
  word identifier

def semicolon : Rule :=
  choice [Token.omittedSemicolon, ";"]

def bound : Rule :=
  choice [identifier, destructuring]

def undefinedOrName : Rule :=
  choice [keyword "undefined", identifier]

def assignable : Rule :=
  choiceOf [
    [member, subscript, undefinedOrName, .kind .identifier (softKeyword l), destructuring],
    typed l [nonNull]]

def inBraces (r : Rule) : Rule :=
  all ["\x7b", r, "\x7d"]

def inParentheses (r : Rule) : Rule :=
  all ["(", r, ")"]

def inBrackets (r : Rule) : Rule :=
  all ["[", r, "]"]

def listed (r : Rule) : Rule :=
  all [separated r, opt ","]

def heading : Rule :=
  if l.isTyped then signature else parameters

def dotted : List (Part × Rule) := [
  (dottedName, strong Bond.member (all [
    .role .object (choice [identifier, .kind .member dottedName]), ".", .role .property nameWord]))]

def endOfDeclaration : Rule :=
  opt Token.omittedSemicolon

def reservedWords : List String :=
  untyped l ["break", "case", "catch", "class", "const", "continue", "debugger", "default", "delete", "do",
    "else", "export", "extends", "false", "finally", "for", "function", "if", "import", "in", "instanceof",
    "new", "null", "return", "super", "switch", "this", "throw", "true", "try", "typeof", "var", "void",
    "while", "with"]

end QueryGlean.Grammar
