import QueryGlean.Source.Grammar.Statement
import QueryGlean.Source.Grammar.Pattern
import QueryGlean.Source.Grammar.Class
import QueryGlean.Source.Grammar.Markup
import QueryGlean.Source.Grammar.Type

namespace QueryGlean.Grammar

open QueryGlean.Part Bond

def strengthOrders : List (List Ranked) := [
  [Bond.member, templateCall, Bond.call, update, unaryVoid, power, product, sum, shift, comparison, relation,
    equality, bitAnd, bitXor, bitOr, logicalAnd, logicalOr, Bond.conditional, sequence, arrowFunction],
  [assign, primary],
  [Bond.member, templateCall, new, Bond.call, expression],
  [declare, literal],
  [primary, block, Bond.object],
  [metaProperty, importKeyword],
  [importStatement, importKeyword],
  [exportStatement, primary],
  [lexicalDeclaration, primary]]

def typedOrders : List (List Ranked) := [
  [Bond.call, Bond.instantiation, Bond.unary, Bond.binary, awaitExpression, arrowFunction],
  [extending, Bond.instantiation],
  [intersectionType, unionType, conditionalType, functionType, Bond.binary, predicate, readonlyType],
  [mappedType, primary],
  [accessibility, primary],
  [unaryVoid, expression],
  [extendsClause, primary],
  [Bond.unary, assign],
  [declare, expression],
  [predefinedType, Part.unary],
  [type, maybeType],
  [tupleType, arrayType, pattern, type],
  [readonlyType, pattern],
  [readonlyType, primary],
  [literalType, pattern],
  [predefinedType, pattern],
  [newExpression, primary],
  [metaProperty, primary],
  [overrideModifier, primary],
  [decoratorCall, decorator],
  [constructSignature, propertyName],
  [qualifiedType, genericType, primaryType, lookupType, keyQuery, type],
  [asExpression, satisfiesExpression, primaryType]]

def queryOrders : List (List Ranked) := [
  [typeQuery, subscript, expression],
  [typeQuery, queriedSubscript],
  [queriedMember, Part.member],
  [Part.member, ascribedMember],
  [queriedMember, primary],
  [queriedSubscript, subscript],
  [queriedSubscript, primary],
  [queriedCall, primary],
  [queriedInstantiation, primary],
  [typeQuery, primary],
  [Part.call, queriedCall],
  [Part.call, ascribedCall]]

def rulesOf (l : Language) : List (Part × Rule) :=
  List.flatten [
    statements l, modules l, declarations l, controlFlow l, operations l, literals l, patterns l, functions l,
    classes l, dotted,
    untyped l (List.flatten [untypedDeclarations, untypedClasses]),
    typed l (List.flatten [typedModules, typedOperations, typedFunctions, typedClasses, typedDeclarations,
      ascriptions, queries, tuples, objectTypes, types]),
    if l.hasMarkup then markups l else []]

end QueryGlean.Grammar

namespace QueryGlean

def Language.grammar (l : Language) : Grammar where
  rules := (Grammar.rulesOf l).mergeSort fun a b => a.1.rank ≤ b.1.rank
  orders := if l.isTyped then Grammar.strengthOrders ++ Grammar.typedOrders ++ Grammar.queryOrders else Grammar.strengthOrders
  reserved := Grammar.reservedWords l

end QueryGlean
