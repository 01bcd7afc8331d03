import QueryGlean.Source.Grammar.Name

namespace QueryGlean.Grammar

open Rule QueryGlean.Part

variable (l : Language)

def className : Rule :=
  if l.isTyped then nameWord else identifier

def classHead : List Rule :=
  [any decorator, "class"]

def classTail : List Rule :=
  typed l [opt typeParameters] ++ [opt heritage, classBody]

def namedClass : Rule :=
  allOf [classHead, [.role .name (className l)], classTail l, [endOfDeclaration]]

def decoratorTarget : Rule :=
  choice [identifier, .kind .member decoratorMember]

def decorated : Rule :=
  choice [identifier, .kind .member decoratorMember, .kind .call decoratorCall]

def methodKind : Rule :=
  opt (choice ["get", "set", "*"])

def classes : List (Part × Rule) := [
  (classExpression, strong Bond.literal (allOf [classHead, [opt (className l)], classTail l])),
  (classDeclaration,
    if l.isTyped then leftward Bond.declare (namedClass l) else strong Bond.declare (namedClass l)),
  (decorator, all ["@", choiceOf [[decorated], typed l [decoratorParenthesized]]]),
  (decoratorMember, strong Bond.member (all [.role .object decoratorTarget, ".", .role .property nameWord])),
  (decoratorCall, strong Bond.call (allOf [
    [.role .callee decoratorTarget], typed l [opt typeArguments], [.role .arguments arguments]])),
  (staticBlock, all ["static", block])]

def untypedClasses : List (Part × Rule) := [
  (heritage, all ["extends", expression]),
  (classBody, inBraces (any (choice [
    all [method, opt ";"],
    all [field, semicolon],
    staticBlock,
    ";"]))),
  (field, all [any decorator, opt "static", propertyName, opt initializer]),
  (method, all [any decorator, opt (choice ["static", Token.staticGetter]), opt "async", methodKind,
    propertyName, parameters, block])]

def methodModifiers : List Rule :=
  [opt accessibility, opt "static", opt overrideModifier, opt "readonly", opt "async", methodKind]

def fieldModifiers : List Rule := [
  any decorator,
  opt (choice [all ["declare", opt accessibility], all [accessibility, opt "declare"]]),
  choice [
    all [opt "static", opt overrideModifier, opt "readonly"],
    all [opt "abstract", opt "readonly"],
    all [opt "readonly", opt "abstract"],
    opt "accessor"]]

def typedClasses : List (Part × Rule) := [
  (heritage, choice [all [extendsClause, opt implementsClause], implementsClause]),
  (extendsClause, all ["extends", separated extended]),
  (extended, strong Bond.extending (all [expression, opt typeArguments])),
  (implementsClause, all ["implements", separated type]),
  (abstractClass, strong Bond.declare
    (allOf [[any decorator, "abstract", "class", className .typescript], classTail .typescript])),
  (decoratorParenthesized, inParentheses decorated),
  (classBody, inBraces (any (choice [
    all [any decorator, method, opt semicolon],
    all [methodSignature, choice [Token.omittedBody, ","]],
    staticBlock,
    all [choice [abstractMethod, indexSignature, methodSignature, typedField], choice [semicolon, ","]],
    ";"]))),
  (typedField, allOf [fieldModifiers, [propertyName, opt (choice ["?", "!"]), opt ascription,
    opt initializer]]),
  (method, leftward .plain (allOf [methodModifiers, [propertyName, opt "?", signature, block]])),
  (methodSignature, allOf [methodModifiers, [propertyName, opt "?", signature]]),
  (abstractMethod, all [opt accessibility, "abstract", opt overrideModifier, methodKind, propertyName,
    opt "?", signature]),
  (accessibility, choice ["public", "private", "protected"]),
  (overrideModifier, "override")]

end QueryGlean.Grammar
