import QueryGlean.Source.Grammar.Expression

namespace QueryGlean.Grammar

open Rule QueryGlean.Part

variable (l : Language)

def markupName : Rule :=
  choice [.kind .identifier Token.hyphenatedName, identifier]

def elementName : Rule :=
  choice [markupName, .kind .member dottedName, namespacedName]

def tagStart (attributes : Rule) : Rule :=
  if l.isTyped then
    all ["<", opt (all [
      choice [
        .role .name (choice [markupName, namespacedName]),
        all [.role .name (choice [identifier, .kind .member dottedName]), opt typeArguments]],
      attributes])]
  else all ["<", opt (all [.role .name elementName, attributes])]

def attributes : Rule :=
  any (choice [markupAttribute, markupBraces])

def selfClosingRule : Rule :=
  if l.isTyped then .weigh (-1) (all [tagStart l attributes, "/>"])
  else all ["<", .role .name elementName, attributes, "/>"]

def quotedMarkup (quote : String) (text : Token) : Rule :=
  all [quote, any (choice [text, Token.characterReference]), quote]

def attributeRule : Rule :=
  let name : Rule := choice [word markupName, namespacedName]
  let value : Rule := choice [.kind .string markupString, markupBraces, choice (markup l)]
  all [name, opt (all ["=", value])]

def markups : List (Part × Rule) := [
  (element, all [
    .role .openingTag openingTag,
    any (choice [Token.markupText, Token.characterReference, choice (markup l), markupBraces]),
    closingTag]),
  (openingTag, .weigh (-1) (all [tagStart l attributes, ">"])),
  (closingTag, all ["</", opt elementName, ">"]),
  (selfClosingElement, selfClosingRule l),
  (markupBraces, inBraces (opt (choice [expression, sequence, spread]))),
  (namespacedName, all [markupName, ":", markupName]),
  (markupAttribute, attributeRule l),
  (markupString, choice [
    quotedMarkup "\"" .doubleQuotedMarkup,
    quotedMarkup "'" .singleQuotedMarkup])]

end QueryGlean.Grammar
