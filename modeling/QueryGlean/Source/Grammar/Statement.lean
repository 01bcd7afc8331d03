import QueryGlean.Source.Grammar.Expression

namespace QueryGlean.Grammar

open Rule QueryGlean.Part

variable (l : Language)

def exportForms : List Rule := [
  all ["export", choice [
    all ["*", fromClause],
    all [namespaceExport, fromClause],
    all [exportClause, fromClause],
    exportClause], semicolon],
  all [any decorator, "export", choice [
    declaration,
    all ["default", choice [declaration, all [expression, semicolon]]]]]]

def typedExportForms : List Rule := [
  all ["export", "type", exportClause, opt fromClause, semicolon],
  all ["export", "import", importAlias],
  all ["export", "=", expression, semicolon],
  all ["export", "as", "namespace", identifier, semicolon]]

def typeMark : List Rule :=
  typed l [opt (choice ["type", "typeof"])]

def ownName : Rule :=
  if l.isTyped then importName else identifier

def importClauseRule : Rule :=
  choice [
    namespaceImport,
    namedImports,
    all [ownName l, opt (all [",", choice [namespaceImport, namedImports]])]]

def importSpecifierRule : Rule :=
  let imported : Rule := choiceOf [[exportName], typed l [.kind .identifier "type"]]
  allOf [typeMark l, [choice [
    .role .name (ownName l),
    all [.role .name imported, "as", .role .alias' (ownName l)]]]]

def modules : List (Part × Rule) := [
  (exportStatement, choiceOf [exportForms, typed l typedExportForms]),
  (namespaceExport, all ["*", "as", exportName]),
  (exportClause, inBraces (all [opt (separated exportSpecifier), opt ","])),
  (exportSpecifier, allOf [typeMark l,
    [.role .name exportName, opt (all ["as", .role .alias' exportName])]]),
  (exportName, choiceOf [[identifier, string], untyped l ["default"]]),
  (importKeyword, "import"),
  (importStatement, allOf [["import"], typeMark l, [
    choiceOf [[all [importClause, fromClause]], typed l [importRequire], [.role .source string]],
    opt importAttribute, semicolon]]),
  (importClause, importClauseRule l),
  (fromClause, all ["from", .role .source string]),
  (namespaceImport, all ["*", "as", identifier]),
  (namedImports, inBraces (all [opt (separated importSpecifier), opt ","])),
  (importSpecifier, importSpecifierRule l),
  (importAttribute, all [choiceOf [["with"], typed l ["assert"]], object])]

def typedModules : List (Part × Rule) := [
  (importName, choice [identifier, .kind .identifier "type"]),
  (importRequire, all [identifier, "=", "require", "(", .role .source string, ")"]),
  (importAlias, all ["import", identifier, "=", choice [identifier, dottedName], semicolon])]

def declarationRule : Rule :=
  choiceOf [
    [functionDeclaration, generatorDeclaration, classDeclaration, lexicalDeclaration, variableDeclaration],
    untyped l [usingDeclaration],
    typed l [functionSignature, abstractClass, moduleDeclaration, strong Bond.declare namespaceDeclaration,
      typeAlias, enumDeclaration, interfaceDeclaration, importAlias, ambientDeclaration]]

def declaratorRule : Rule :=
  choiceOf [
    [allOf [[.role .name bound], typed l [opt ascription], [opt initializer]]],
    typed l [strong Bond.declare (all [.role .name identifier, "!", ascription])]]

def declarations : List (Part × Rule) := [
  (declaration, declarationRule l),
  (variableDeclaration, all ["var", separated declarator, semicolon]),
  (lexicalDeclaration, all [choice ["let", "const"], separated declarator, semicolon]),
  (declarator, declaratorRule l),
  (initializer, all ["=", .role .value expression])]

def untypedDeclarations : List (Part × Rule) := [
  (usingDeclaration, all [choice ["using", all ["await", "using"]], separated declarator, semicolon])]

def forHead : Rule :=
  choice [
    choice [lexicalDeclaration, variableDeclaration],
    all [expressions, ";"],
    emptyStatement]

def forEachHead : Rule :=
  inParentheses (all [
    choice [
      choice [assignable l, parenthesized],
      all ["var", bound, opt initializer],
      all [choice ["let", "const"], bound, opt Token.omittedSemicolon]],
    choice ["in", "of"],
    expressions])

def caughtValue : Rule :=
  inParentheses (allOf [[bound], typed l [opt ascription]])

def controlFlow : List (Part × Rule) := [
  (ifStatement, rightward .plain (all ["if", parenthesized, statement, opt elseClause])),
  (elseClause, all ["else", statement]),
  (switchStatement, all ["switch", parenthesized, switchBody]),
  (switchBody, inBraces (any (choice [switchCase, switchDefault]))),
  (switchCase, all ["case", expressions, ":", any statement]),
  (switchDefault, all ["default", ":", any statement]),
  (forStatement, all ["for", "(", forHead, choice [all [expressions, ";"], emptyStatement], opt expressions,
    ")", statement]),
  (forEachStatement, all ["for", opt "await", forEachHeader, statement]),
  (forEachHeader, forEachHead l),
  (whileStatement, all ["while", parenthesized, statement]),
  (doStatement, rightward .plain (all ["do", statement, "while", parenthesized, opt semicolon])),
  (tryStatement, all ["try", block, opt catchClause, opt finallyClause]),
  (catchClause, all ["catch", opt (caughtValue l), block]),
  (finallyClause, all ["finally", block]),
  (withStatement, all ["with", parenthesized, statement]),
  (breakStatement, all ["break", opt nameWord, semicolon]),
  (continueStatement, all ["continue", opt nameWord, semicolon]),
  (returnStatement, all ["return", opt expressions, semicolon]),
  (throwStatement, all ["throw", expressions, semicolon])]

def statements : List (Part × Rule) := [
  (program, all [opt Token.interpreterLine, any statement]),
  (statement, choice [exportStatement, importStatement, debuggerStatement, expressionStatement, declaration,
    block, ifStatement, switchStatement, forStatement, forEachStatement, whileStatement, doStatement,
    tryStatement, withStatement, breakStatement, continueStatement, returnStatement, throwStatement,
    emptyStatement, labeledStatement]),
  (expressionStatement, all [expressions, semicolon]),
  (block, rightward .plain (all [inBraces (any statement), endOfDeclaration])),
  (debuggerStatement, all ["debugger", semicolon]),
  (emptyStatement, ";"),
  (labeledStatement, .weigh (-1) (all [nameAs l .word, ":", statement]))]

end QueryGlean.Grammar
