import QueryGlean.Source.Grammar.Name

namespace QueryGlean.Grammar

open Rule QueryGlean.Part

variable (l : Language)

def patterns : List (Part × Rule) := [
  (pattern, .weigh (-1) (choice [assignable l, restPattern])),
  (restPattern, rightward .plain (all ["...", assignable l])),
  (destructuring, choice [objectPattern, arrayPattern]),
  (objectPattern, strong Bond.object (inBraces
    (sparse (choice [pairPattern, restPattern, defaultedShorthand, nameAs l .shorthandPattern])))),
  (pairPattern, all [.role .key propertyName, ":", .role .value (choice [pattern, defaultedPattern])]),
  (defaultedShorthand, all [choice [nameAs l .shorthandPattern, destructuring], "=", expression]),
  (arrayPattern, inBrackets (sparse (choice [pattern, defaultedPattern]))),
  (defaultedPattern, all [pattern, "=", expression])]

def parameterRule : Rule :=
  if l.isTyped then parameter else choice [pattern, defaultedPattern]

def namedFunction (mark : List Rule) : Rule :=
  rightward Bond.declare (allOf [[opt "async", "function"], mark,
    [.role .name identifier, heading l, block, endOfDeclaration]])

def functionOperand (mark : List Rule) : Rule :=
  strong Bond.literal (allOf [[opt "async", "function"], mark, [opt identifier, heading l, block]])

def functions : List (Part × Rule) := [
  (functionDeclaration, namedFunction l []),
  (generatorDeclaration, namedFunction l ["*"]),
  (functionExpression, functionOperand l []),
  (generatorExpression, functionOperand l ["*"]),
  (parameters, inParentheses (opt (listed (parameterRule l))))]

def typedFunctions : List (Part × Rule) := [
  (functionSignature, all [opt "async", "function", .role .name identifier, signature,
    choice [semicolon, Token.omittedBody]]),
  (signature, all [opt typeParameters, parameters,
    opt (choice [ascription, assertionAscription, predicateAscription])]),
  (parameter, choice [requiredParameter, optionalParameter]),
  (requiredParameter, all [parameterName, opt ascription, opt initializer]),
  (optionalParameter, all [parameterName, "?", opt ascription, opt initializer]),
  (parameterName, all [any decorator, opt accessibility, opt overrideModifier, opt "readonly",
    choice [pattern, keyword "this"]])]

end QueryGlean.Grammar
