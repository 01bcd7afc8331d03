import QueryGlean.Source.Tree

namespace QueryGlean

inductive Part
  | program | exportStatement | namespaceExport | exportClause | exportSpecifier | exportName
  | declaration | importKeyword | importStatement | importClause | fromClause | namespaceImport
  | namedImports | importSpecifier | importAttribute
  | statement | expressionStatement | variableDeclaration | lexicalDeclaration | usingDeclaration
  | declarator | block | elseClause | ifStatement | switchStatement | forStatement | forEachStatement
  | forEachHeader | whileStatement | doStatement | tryStatement | withStatement | breakStatement
  | continueStatement | debuggerStatement | returnStatement | throwStatement | emptyStatement
  | labeledStatement | switchBody | switchCase | switchDefault | catchClause | finallyClause
  | parenthesized | expression | primary | yieldExpression | object | objectPattern
  | defaultedPattern | defaultedShorthand | array | arrayPattern
  | element | markupBraces | openingTag | dottedName | namespacedName | closingTag
  | selfClosingElement | markupAttribute | markupString
  | classExpression | classDeclaration | heritage | functionExpression | functionDeclaration
  | generatorExpression | generatorDeclaration | call | arrowFunction | signature | parameter
  | chainMark | newExpression | awaitExpression | member | subscript | assignment
  | operatorTarget | operatorAssignment | initializer | destructuring | spread | conditional
  | binary | unary | update | sequence | string | template | substitution | regex
  | metaProperty | arguments | decorator | decoratorMember | decoratorCall | classBody
  | field | parameters | staticBlock | pattern | restPattern | method | pair | pairPattern
  | propertyName | computedName
  | typedField | importName | nonNull | methodSignature | abstractMethod | functionSignature
  | decoratorParenthesized | typeAssertion | asExpression | satisfiesExpression | instantiation
  | importRequire | extendsClause | extended | implementsClause | ambientDeclaration | abstractClass
  | moduleDeclaration | namespaceDeclaration | moduleBody | importAlias | qualifiedType
  | interfaceDeclaration | interfaceHeritage | enumDeclaration | enumBody | enumAssignment
  | typeAlias | accessibility | overrideModifier | requiredParameter | optionalParameter
  | parameterName | omittingAscription | addingAscription | optingAscription | ascription
  | ascribedMember | ascribedCall | assertion | assertionAscription | type | tupleParameter
  | optionalTupleParameter | optionalType | restType | tupleMember | constructorType | primaryType
  | templateTypePart | templateType | inferType | conditionalType | genericType | predicate
  | predicateAscription | queriedMember | queriedSubscript | queriedCall | queriedInstantiation
  | typeQuery | keyQuery | lookupType | mappedType | literalType | signedNumber | existentialType
  | maybeType | parenthesizedType | predefinedType | typeArguments | objectType | callSignature
  | propertySignature | typeParameters | typeParameter | defaultType | constraint
  | constructSignature | indexSignature | arrayType | tupleType | readonlyType | unionType
  | intersectionType | functionType
deriving DecidableEq, Hashable, Repr, Inhabited

namespace Part

-- The kind of the nodes of a part. A part without one lends its children to what it is part of.
def kind? : Part → Option Kind
  | exportName | declaration | fromClause | statement | forEachHeader | expression | primary
  | markupString | operatorTarget | initializer | destructuring | pattern | propertyName | signature
  | parameter | importName | extended | moduleBody | parameterName | ascribedMember | ascribedCall
  | type | tupleMember | primaryType | queriedMember | queriedSubscript | queriedCall
  | queriedInstantiation | signedNumber => none
  | importKeyword | chainMark | overrideModifier | existentialType => some .word
  | exportStatement => some .exportStatement
  | importStatement => some .importStatement
  | importClause => some .importClause
  | namespaceImport => some .namespaceImport
  | namedImports => some .namedImports
  | importSpecifier => some .importSpecifier
  | declarator => some .declarator
  | functionDeclaration => some .functionDeclaration
  | classDeclaration => some .classDeclaration
  | objectPattern => some .objectPattern
  | pairPattern => some .pairPattern
  | element => some .element
  | selfClosingElement => some .selfClosingElement
  | openingTag => some .openingTag
  | markupAttribute => some .attribute
  | call => some .call
  | arguments => some .arguments
  | member => some .member
  | string => some .string
  | template => some .template
  | substitution => some .substitution
  | _ => some .phrase

-- Where a text can be read in two ways that nothing else decides between, the earlier part is taken.
def rank (p : Part) : Nat :=
  p.ctorIdx

end Part

end QueryGlean
