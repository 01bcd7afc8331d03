import QueryGlean.Source.Grammar.Expression

namespace QueryGlean.Grammar

open Rule QueryGlean.Part

def typedDeclarations : List (Part × Rule) := [
  (ambientDeclaration, all ["declare", choice [
    declaration,
    all ["global", block],
    all ["module", ".", nameWord, ":", type, semicolon]]]),
  (moduleDeclaration, all ["module", moduleBody]),
  (namespaceDeclaration, all ["namespace", moduleBody]),
  (moduleBody, rightward .plain (all [choice [string, identifier, dottedName], opt block])),
  (interfaceDeclaration, all ["interface", nameWord, opt typeParameters, opt interfaceHeritage, objectType]),
  (interfaceHeritage, all ["extends", separated (choice [nameWord, qualifiedType, genericType])]),
  (enumDeclaration, all [opt "const", "enum", identifier, enumBody]),
  (enumBody, inBraces (opt (listed (choice [propertyName, enumAssignment])))),
  (enumAssignment, all [propertyName, initializer]),
  (typeAlias, all ["type", nameWord, opt typeParameters, "=", type, semicolon])]

def ascriptions : List (Part × Rule) :=
  let named : Rule := .kind .member ascribedMember
  let called : Rule := .kind .call ascribedCall
  [(ascription, all [":", choice [type, named, called]]),
   (omittingAscription, all ["-?:", type]),
   (addingAscription, all ["+?:", type]),
   (optingAscription, all ["?:", type]),
   (ascribedMember, all [.role .object (choice [importKeyword, named, called]), ".",
    .role .property (choice [Token.privateName, nameWord])]),
   (ascribedCall, all [.role .callee (choice [importKeyword, named]), .role .arguments arguments]),
   (assertion, all ["asserts", choice [predicate, identifier, keyword "this"]]),
   (assertionAscription, all [":", assertion]),
   (predicate, all [choice [identifier, keyword "this", .kind .identifier predefinedType], "is", type]),
   (predicateAscription, all [":", predicate])]

def queries : List (Part × Rule) :=
  let indexed : Rule := .kind .phrase queriedSubscript
  let named : Rule := .kind .member queriedMember
  let called : Rule := .kind .call queriedCall
  let operand : Rule := choice [identifier, keyword "this", indexed, named, called]
  let target : Rule := choice [importKeyword, identifier, named, indexed]
  [(typeQuery, rightward .plain (all ["typeof",
    choice [indexed, named, called, .kind .phrase queriedInstantiation, identifier, keyword "this"]])),
   (queriedMember, all [.role .object operand, choice [".", "?."],
    .role .property (choice [Token.privateName, nameWord])]),
   (queriedSubscript, all [operand, opt "?.", "[", choice [predefinedType, string, Token.number], "]"]),
   (queriedCall, all [.role .callee target, .role .arguments arguments]),
   (queriedInstantiation, all [target, typeArguments]),
   (keyQuery, all ["keyof", primaryType])]

def primaryTypeRule : Rule :=
  choice [parenthesizedType, predefinedType, nameWord, qualifiedType, genericType, objectType, arrayType,
    tupleType, maybeType, typeQuery, keyQuery, keyword "this", existentialType, literalType, lookupType,
    conditionalType, templateType, intersectionType, unionType, "const"]

def typeRule : Rule :=
  choice [primaryType, functionType, readonlyType, constructorType, inferType,
    strong (.level (-1)) (.kind .member ascribedMember),
    strong (.level (-1)) (.kind .call ascribedCall)]

def tuples : List (Part × Rule) := [
  (tupleType, inBrackets (all [opt (separated tupleMember), opt ","])),
  (tupleMember, choice [tupleParameter, optionalTupleParameter, optionalType, restType, type]),
  (tupleParameter, all [choice [identifier, restPattern], ascription]),
  (optionalTupleParameter, all [identifier, "?", ascription]),
  (optionalType, all [type, "?"]),
  (restType, all ["...", type])]

def objectTypeRule : Rule :=
  let mark : Rule := choice [",", semicolon]
  let item : Rule := choice [exportStatement, propertySignature, callSignature, constructSignature,
    indexSignature, methodSignature]
  all [choice ["\x7b", "\x7b|"],
    opt (all [opt (choice [",", ";"]), separatedBy mark item, opt mark]),
    choice ["\x7d", "|\x7d"]]

def indexSignatureRule : Rule :=
  all [opt (all [opt (choice ["-", "+"]), "readonly"]),
    inBrackets (choice [
      all [choice [identifier, .kind .identifier (softKeyword .typescript)], ":", type],
      mappedType]),
    choice [ascription, omittingAscription, addingAscription, optingAscription]]

def objectTypes : List (Part × Rule) := [
  (objectType, objectTypeRule),
  (callSignature, signature),
  (propertySignature, all [opt accessibility, opt "static", opt overrideModifier, opt "readonly",
    propertyName, opt "?", opt ascription]),
  (constructSignature, all [opt "abstract", "new", opt typeParameters, parameters, opt ascription]),
  (indexSignature, indexSignatureRule),
  (mappedType, all [nameWord, "in", type, opt (all ["as", type])])]

def types : List (Part × Rule) := [
  (type, typeRule),
  (primaryType, primaryTypeRule),
  (qualifiedType, strong Bond.member (all [choice [identifier, dottedName], ".", nameWord])),
  (constructorType, leftward .plain
    (all [opt "abstract", "new", opt typeParameters, parameters, "=>", type])),
  (functionType, leftward .plain
    (all [opt typeParameters, parameters, "=>", choice [type, assertion, predicate]])),
  (templateType, all ["\x60", any (choice [Token.templateText, templateTypePart]), "\x60"]),
  (templateTypePart, all ["$\x7b", choice [primaryType, inferType], "\x7d"]),
  (inferType, rightward .plain (all ["infer", nameWord, opt (all ["extends", type])])),
  (conditionalType, rightward .plain (all [type, "extends", type, "?", type, ":", type])),
  (genericType, strong Bond.call (all [choice [nameWord, qualifiedType], typeArguments])),
  (lookupType, all [primaryType, "[", type, "]"]),
  (literalType, choice [.kind .phrase signedNumber, Token.number, string, keyword "true", keyword "false",
    keyword "null", keyword "undefined"]),
  (signedNumber, leftward (.level 1) (all [choice ["-", "+"], Token.number])),
  (existentialType, "*"),
  (maybeType, rightward .plain (all ["?", primaryType])),
  (parenthesizedType, inParentheses type),
  (predefinedType, choice ["any", "number", "boolean", "string", "symbol", all ["unique", "symbol"], "void",
    "unknown", "never", "object"]),
  (typeArguments, all ["<", listed type, ">"]),
  (typeParameters, all ["<", listed typeParameter, ">"]),
  (typeParameter, all [opt "const", nameWord, opt constraint, opt defaultType]),
  (defaultType, all ["=", type]),
  (constraint, all [choice ["extends", ":"], type]),
  (arrayType, all [primaryType, "[", "]"]),
  (readonlyType, all ["readonly", type]),
  (unionType, leftward .plain (all [opt type, "|", type])),
  (intersectionType, leftward .plain (all [opt type, "&", type]))]

end QueryGlean.Grammar
