import QueryGlean.Source.Grammar.Name

namespace QueryGlean.Grammar

open Rule QueryGlean.Part

variable (l : Language)

def expressions : Rule :=
  choice [expression, sequence]

def markup : List Rule :=
  if l.hasMarkup then [element, selfClosingElement] else []

def expressionRule : Rule :=
  choiceOf [
    typed l [asExpression, satisfiesExpression, instantiation, namespaceDeclaration],
    if l.isTyped && !l.hasMarkup then [typeAssertion] else [],
    [primary],
    markup l,
    [assignment, operatorAssignment, awaitExpression, unary, binary, conditional, update, newExpression,
      yieldExpression]]

def primaryRule : Rule :=
  choiceOf [
    [subscript, member, parenthesized, undefinedOrName, .kind .identifier (softKeyword l),
      keyword "this", keyword "super", Token.number, string, template, regex,
      keyword "true", keyword "false", keyword "null", object, array, functionExpression, arrowFunction,
      generatorExpression, classExpression, metaProperty, call],
    typed l [nonNull]]

def chain : Rule :=
  if l.isTyped then chainMark else "?."

def callRule : Rule :=
  let given : Rule := allOf [typed l [opt typeArguments], [.role .arguments arguments]]
  choice [
    strong Bond.call (all [.role .callee (choice [expression, importKeyword]), given]),
    strong Bond.templateCall
      (all [.role .callee (choice [primary, newExpression]), .role .arguments template]),
    strong Bond.member (all [.role .callee primary, "?.", given])]

def newRule : Rule :=
  if l.isTyped then rightward Bond.new (all ["new", primary, opt typeArguments, opt arguments])
  else rightward Bond.new (all ["new", choice [primary, newExpression], opt (.weigh 1 arguments)])

def memberRule : Rule :=
  strong Bond.member (all [
    .role .object (choice [expression, primary, importKeyword]),
    choice [".", chain l],
    .role .property (choice [Token.privateName, word anyWord])])

def operatorMarks : Rule :=
  choice ["+=", "-=", "*=", "/=", "%=", "^=", "&=", "|=", ">>=", ">>>=", "<<=", "**=", "&&=", "||=", "??="]

def binaryRule : Rule :=
  let operation (bond : Bond) (marks : List Rule) : Rule :=
    leftward bond (all [expression, choice marks, expression])
  choice [
    operation .logicalAnd ["&&"],
    operation .logicalOr ["||"],
    operation .shift [">>", ">>>", "<<"],
    operation .bitAnd ["&"],
    operation .bitXor ["^"],
    operation .bitOr ["|"],
    operation .sum ["+", "-"],
    operation .product ["*", "/", "%"],
    rightward Bond.power (all [expression, "**", expression]),
    operation .relation ["<", "<="],
    operation .equality ["==", "===", "!=", "!=="],
    operation .relation [">=", ">"],
    operation .conditional ["??"],
    operation .relation ["instanceof"],
    leftward Bond.relation (all [choice [expression, Token.privateName], "in", expression])]

def updateRule : Rule :=
  let mark : Rule := choice ["++", "--"]
  leftward .plain (choice [all [expression, mark], all [mark, expression]])

def parenthesizedRule : Rule :=
  if l.isTyped then inParentheses (choice [all [expression, opt ascription], sequence])
  else inParentheses expressions

def arrowRule : Rule :=
  all [opt "async", choice [choice [.kind .identifier (softKeyword l), identifier], heading l], "=>",
    choice [expression, block]]

def operations : List (Part × Rule) := [
  (expression, expressionRule l),
  (primary, primaryRule l),
  (parenthesized, parenthesizedRule l),
  (call, callRule l),
  (newExpression, newRule l),
  (member, memberRule l),
  (subscript, rightward Bond.member
    (all [choice [expression, primary], opt (chain l), "[", expressions, "]"])),
  (assignment, rightward Bond.assign (allOf [
    typed l [opt "using"], [choice [parenthesized, assignable l], "=", expression]])),
  (operatorTarget, choiceOf [
    [member, subscript, .kind .identifier (softKeyword l), identifier, parenthesized], typed l [nonNull]]),
  (operatorAssignment, rightward Bond.assign (all [operatorTarget, operatorMarks, expression])),
  (awaitExpression, strong Bond.unaryVoid (all ["await", expression])),
  (unary, leftward Bond.unaryVoid
    (all [choice ["!", "~", "-", "+", "typeof", "void", "delete"], expression])),
  (binary, binaryRule),
  (conditional, rightward Bond.conditional
    (all [expression, Token.conditionalMark, expression, ":", expression])),
  (update, updateRule),
  (sequence, rightward .plain (separated expression)),
  (yieldExpression, rightward .plain (all ["yield", choice [all ["*", expression], opt expression]])),
  (arrowFunction, arrowRule l),
  (spread, all ["...", expression]),
  (arguments, inParentheses (sparse (choice [expression, spread]))),
  (metaProperty, choice [all ["new", ".", "target"], all ["import", ".", "meta"]])]

def typedOperations : List (Part × Rule) := [
  (chainMark, "?."),
  (nonNull, leftward Bond.unary (all [expression, "!"])),
  (typeAssertion, leftward Bond.unary (all [typeArguments, expression])),
  (asExpression, leftward Bond.binary (all [expression, "as", choice ["const", type]])),
  (satisfiesExpression, leftward Bond.binary (all [expression, "satisfies", type])),
  (instantiation, strong Bond.instantiation (all [expression, typeArguments]))]

def quoted (quote : String) (text : Token) : Rule :=
  all [quote, any (choice [text, Token.escape]), quote]

def propertyNameRule : Rule :=
  choice [word (choice [anyWord, softKeyword l]), Token.privateName, string, Token.number, computedName]

def literals : List (Part × Rule) := [
  (string, choice [quoted "\"" .doubleQuotedText, quoted "'" .singleQuotedText]),
  (template, all ["\x60", any (choice [Token.templateText, Token.escape, substitution]), "\x60"]),
  (substitution, all ["$\x7b", expressions, "\x7d"]),
  (regex, all ["/", Token.regexBody, Token.regexEnd, opt Token.regexFlags]),
  (array, inBrackets (sparse (choice [expression, spread]))),
  (object, strong Bond.object
    (inBraces (sparse (choice [pair, spread, method, nameAs l .word])))),
  (pair, all [propertyName, ":", expression]),
  (propertyName, propertyNameRule l),
  (computedName, inBrackets expression)]

end QueryGlean.Grammar
