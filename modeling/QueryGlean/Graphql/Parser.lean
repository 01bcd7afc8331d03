import QueryGlean.Graphql.Lexer
import QueryGlean.Graphql.Document

namespace QueryGlean.Graphql

namespace Grammar

inductive Stop
  | unreadable
  | fault (left : Nat) (fault : Fault)
deriving DecidableEq, Repr

-- The lexemes still to read, whether an unreadable token follows them in place of the end, and
-- how many brackets are open.
structure Cursor where
  rest : List Lexeme
  broken : Bool
  depth : Nat
deriving Repr

def Reader (α : Type) := Cursor → Except Stop (α × Cursor)

namespace Reader

protected def pure (a : α) : Reader α :=
  fun c => .ok (a, c)

protected def bind (r : Reader α) (f : α → Reader β) : Reader β := fun c =>
  match r c with
  | .ok (a, c') => f a c'
  | .error e => .error e

instance : Monad Reader where
  pure := Reader.pure
  bind := Reader.bind

end Reader

def maxDepth : Nat := 200

def describe : List Lexeme → String
  | [] => "<EOF>"
  | l :: _ => l.label

def failAt (left : Nat) (f : Fault) : Reader α :=
  fun _ => .error (.fault left f)

def lexemes : Reader (List Lexeme) :=
  fun c => .ok (c.rest, c)

def unexpected : Reader α :=
  fun c => .error (.fault c.rest.length (.unexpected (describe c.rest)))

def advance : Reader Unit := fun c =>
  match c.rest with
  | [] => .ok ((), c)
  | _ :: rest =>
    -- What is behind the last readable lexeme is looked at as soon as that one is passed.
    if rest.isEmpty && c.broken then .error .unreadable else .ok ((), { c with rest })

def lookahead : Reader (List Lexeme) := fun c =>
  let ahead := c.rest.drop 1
  if ahead.isEmpty && c.broken then .error .unreadable else .ok (ahead, c)

def peekIs (k : TokenKind) : Reader Bool :=
  fun c => .ok (c.rest.head?.any (·.kind == k), c)

def expect (k : TokenKind) : Reader Lexeme := do
  match ← lexemes with
  | l :: rest =>
    if l.kind = k then advance; return l
    else failAt (rest.length + 1) (.expected k.label l.label)
  | [] => failAt 0 (.expected k.label (describe []))

def optional (k : TokenKind) : Reader Bool := do
  if ← peekIs k then advance; return true else return false

def isKeyword (word : String) (l : Lexeme) : Bool :=
  l.kind == .name && l.spelling == word

def standsFor (words : List String) (l : Lexeme) : Bool :=
  !l.kind.isPunctuator && words.contains l.value

def optionalKeyword (word : String) : Reader Bool := do
  if (← lexemes).head?.any (isKeyword word) then advance; return true else return false

def expectKeyword (word : String) : Reader Unit := do
  unless ← optionalKeyword word do
    let rest ← lexemes
    failAt rest.length (.expected s!"'{word}'" (describe rest))

def name : Reader String := do
  return (← expect .name).spelling

def itemsUntil (closing : TokenKind) (item : Reader α) : Nat → Reader (List α)
  | 0 => unexpected
  | fuel + 1 => do
    if ← optional closing then return []
    let a ← item
    return a :: (← itemsUntil closing item fuel)

def any (fuel : Nat) (opening closing : TokenKind) (item : Reader α) : Reader (List α) := do
  let _ ← expect opening
  itemsUntil closing item fuel

def many (fuel : Nat) (opening closing : TokenKind) (item : Reader α) : Reader (List α) := do
  let _ ← expect opening
  let a ← item
  return a :: (← itemsUntil closing item fuel)

def optionalMany (fuel : Nat) (opening closing : TokenKind) (item : Reader α) : Reader (List α) := do
  if ← peekIs opening then many fuel opening closing item else return []

def separated (mark : TokenKind) (item : Reader α) (fuel : Nat) : Reader (List α) := do
  let _ ← optional mark
  go fuel
where
  go : Nat → Reader (List α)
    | 0 => unexpected
    | fuel + 1 => do
      let a ← item
      if ← optional mark then return a :: (← go fuel) else return [a]

def nested (r : Reader α) : Reader α := fun c =>
  if maxDepth ≤ c.depth then .error (.fault c.rest.length .tooDeep)
  else match r { c with depth := c.depth + 1 } with
    | .ok (a, c') => .ok (a, { c' with depth := c.depth })
    | .error e => .error e

def variable' : Reader String := do
  let _ ← expect .dollar
  name

def value (constant : Bool) : Nat → Reader Value
  | 0 => unexpected
  | fuel + 1 => do
    let here ← lexemes
    match here with
    | [] => unexpected
    | l :: _ =>
      match l.kind with
      | .bracketL =>
        return .list (← nested (any fuel .bracketL .bracketR (value constant fuel)))
      | .braceL =>
        return .object (← nested (any fuel .braceL .braceR do
          let key ← name
          let _ ← expect .colon
          return (key, ← value constant fuel)))
      | .int => advance; return .int l.spelling
      | .float => advance; return .float l.spelling
      | .string => advance; return .string l.value false
      | .blockString => advance; return .string l.value true
      | .name =>
        advance
        return match l.spelling with
          | "true" => .boolean true
          | "false" => .boolean false
          | "null" => .null
          | word => .enum word
      | .dollar =>
        -- The message names the variable, so it is read before it is refused.
        if constant then
          advance
          match (← lexemes) with
          | n :: _ =>
            if n.kind = .name then failAt here.length (.constantVariable n.spelling)
            else failAt here.length (.unexpected l.label)
          | [] => failAt here.length (.unexpected l.label)
        else return .variable (← variable')
      | _ => unexpected

def arguments (constant : Bool) (fuel : Nat) : Reader (List Argument) :=
  optionalMany fuel .parenL .parenR do
    let n ← name
    let _ ← expect .colon
    return ⟨n, ← value constant fuel⟩

def directives (constant : Bool) (fuel : Nat) : Nat → Reader (List Directive)
  | 0 => unexpected
  | n + 1 => do
    if ← optional .at' then
      let d : Directive := ⟨← name, ← arguments constant fuel⟩
      return d :: (← directives constant fuel n)
    else return []

def typeReference : Nat → Reader TypeReference
  | 0 => unexpected
  | fuel + 1 => do
    let t ← if ← optional .bracketL then
        let item ← nested (typeReference fuel)
        let _ ← expect .bracketR
        pure (.list item)
      else pure (.named (← name))
    if ← optional .bang then return .nonNull t else return t

def fragmentName : Reader String := do
  if (← lexemes).head?.any (standsFor ["on"]) then unexpected
  name

mutual

def selection : Nat → Reader Selection
  | 0 => unexpected
  | fuel + 1 => do
    if ← optional .spread then
      let conditional ← optionalKeyword "on"
      -- A spread names a fragment, unless "on" or no name follows.
      if !conditional && (← peekIs .name) then
        let n ← fragmentName
        return .spread n (← directives false fuel fuel)
      let condition ← if conditional then pure (some (← name)) else pure none
      let ds ← directives false fuel fuel
      return .inline condition ds (← selections fuel)
    let first ← name
    let (label, n) ← if ← optional .colon then pure (some first, ← name) else pure (none, first)
    let as ← arguments false fuel
    let ds ← directives false fuel fuel
    let inner ← if ← peekIs .braceL then pure (some (← selections fuel)) else pure none
    return .field label n as ds inner

def selections : Nat → Reader (List Selection)
  | 0 => unexpected
  | fuel + 1 => nested (any fuel .braceL .braceR (selection fuel))

end

def description : Reader (Option Description) := do
  match (← lexemes) with
  | l :: _ =>
    if l.kind = .string ∨ l.kind = .blockString then
      advance
      return some ⟨l.value, l.kind == .blockString⟩
    else return none
  | [] => return none

def operationKind : Reader OperationKind := do
  let here ← lexemes
  let l ← expect .name
  match OperationKind.ofName? l.spelling with
  | some k => return k
  | none => failAt here.length (.unexpected l.label)

def defaultValue (fuel : Nat) : Reader (Option Value) := do
  if ← optional .equals then return some (← value true fuel) else return none

def variableDefinition (fuel : Nat) : Reader VariableDefinition := do
  let d ← description
  let n ← variable'
  let _ ← expect .colon
  let t ← typeReference fuel
  let v ← defaultValue fuel
  return ⟨d, n, t, v, ← directives true fuel fuel⟩

def operation (fuel : Nat) : Reader Definition := do
  if ← peekIs .braceL then
    return .operation none .query none [] [] (← selections fuel)
  let d ← description
  let k ← operationKind
  let n ← if ← peekIs .name then pure (some (← name)) else pure none
  let vs ← optionalMany fuel .parenL .parenR (variableDefinition fuel)
  let ds ← directives false fuel fuel
  return .operation d k n vs ds (← selections fuel)

def fragment (fuel : Nat) : Reader Definition := do
  let d ← description
  expectKeyword "fragment"
  let n ← fragmentName
  expectKeyword "on"
  let condition ← name
  let ds ← directives false fuel fuel
  return .fragment d n condition ds (← selections fuel)

def inputDefinition (fuel : Nat) : Reader InputDefinition := do
  let d ← description
  let n ← name
  let _ ← expect .colon
  let t ← typeReference fuel
  let v ← defaultValue fuel
  return ⟨d, n, t, v, ← directives true fuel fuel⟩

def fieldDefinition (fuel : Nat) : Reader FieldDefinition := do
  let d ← description
  let n ← name
  let as ← optionalMany fuel .parenL .parenR (inputDefinition fuel)
  let _ ← expect .colon
  let t ← typeReference fuel
  return ⟨d, n, as, t, ← directives true fuel fuel⟩

def enumValueDefinition (fuel : Nat) : Reader EnumValueDefinition := do
  let d ← description
  let here ← lexemes
  if here.head?.any (standsFor ["true", "false", "null"]) then
    failAt here.length (.reservedEnumValue (describe here))
  let n ← name
  return ⟨d, n, ← directives true fuel fuel⟩

def rootOperation : Reader RootOperation := do
  let k ← operationKind
  let _ ← expect .colon
  return ⟨k, ← name⟩

def interfaces (fuel : Nat) : Reader (List String) := do
  if ← optionalKeyword "implements" then separated .amp name fuel else return []

def typeBody (fuel : Nat) (keyword : String) : Reader (List Directive × TypeBody) := do
  match keyword with
  | "type" | "interface" =>
    let is ← interfaces fuel
    let ds ← directives true fuel fuel
    let fs ← optionalMany fuel .braceL .braceR (fieldDefinition fuel)
    return (ds, if keyword = "type" then .object is fs else .interface is fs)
  | "union" =>
    let ds ← directives true fuel fuel
    let ms ← if ← optional .equals then separated .pipe name fuel else pure []
    return (ds, .union ms)
  | "enum" =>
    let ds ← directives true fuel fuel
    return (ds, .enum (← optionalMany fuel .braceL .braceR (enumValueDefinition fuel)))
  | "input" =>
    let ds ← directives true fuel fuel
    return (ds, .input (← optionalMany fuel .braceL .braceR (inputDefinition fuel)))
  | _ => return (← directives true fuel fuel, .scalar)

def typeKeywords : List String := ["scalar", "type", "interface", "union", "enum", "input"]

def typeDefinition (fuel : Nat) (keyword : String) : Reader Definition := do
  let d ← description
  expectKeyword keyword
  let n ← name
  let (ds, body) ← typeBody fuel keyword
  return .type d n ds body

def schema (fuel : Nat) : Reader Definition := do
  let d ← description
  expectKeyword "schema"
  let ds ← directives true fuel fuel
  return .schema d ds (← many fuel .braceL .braceR rootOperation)

def directiveLocations : List String := [
  "QUERY", "MUTATION", "SUBSCRIPTION", "FIELD", "FRAGMENT_DEFINITION", "FRAGMENT_SPREAD",
  "INLINE_FRAGMENT", "VARIABLE_DEFINITION", "FRAGMENT_VARIABLE_DEFINITION", "SCHEMA", "SCALAR",
  "OBJECT", "FIELD_DEFINITION", "ARGUMENT_DEFINITION", "INTERFACE", "UNION", "ENUM", "ENUM_VALUE",
  "INPUT_OBJECT", "INPUT_FIELD_DEFINITION", "DIRECTIVE_DEFINITION"]

def directiveLocation : Reader String := do
  let here ← lexemes
  let n ← name
  if directiveLocations.contains n then return n
  else failAt here.length (.unexpected (describe here))

def directive (fuel : Nat) : Reader Definition := do
  let d ← description
  expectKeyword "directive"
  let _ ← expect .at'
  let n ← name
  let as ← optionalMany fuel .parenL .parenR (inputDefinition fuel)
  let ds ← directives true fuel fuel
  let repeatable ← optionalKeyword "repeatable"
  expectKeyword "on"
  return .directive d n as ds repeatable (← separated .pipe directiveLocation fuel)

def extension (fuel : Nat) : Reader Definition := do
  let ahead ← lookahead
  match ahead.head? with
  | none => failAt 0 (.unexpected (describe []))
  | some l =>
    if isKeyword "schema" l then
      advance
      advance
      let ds ← directives true fuel fuel
      let roots ← optionalMany fuel .braceL .braceR rootOperation
      if ds.isEmpty && roots.isEmpty then unexpected
      return .extendSchema ds roots
    else if isKeyword "directive" l then
      advance
      advance
      let _ ← expect .at'
      let n ← name
      let ds ← directives true fuel fuel
      if ds.isEmpty then unexpected
      return .extendDirective n ds
    else if l.kind = .name ∧ typeKeywords.contains l.spelling then
      advance
      advance
      let n ← name
      let (ds, body) ← typeBody fuel l.spelling
      if ds.isEmpty && body.isEmpty then unexpected
      return .extendType n ds body
    else failAt ahead.length (.unexpected l.label)

def definition (fuel : Nat) : Reader Definition := do
  let here ← lexemes
  -- The keyword stands behind the description.
  let described := here.head?.any fun l => l.kind == .string || l.kind == .blockString
  let ahead ← if described then lookahead else pure here
  match ahead.head? with
  | none => failAt 0 (.unexpected (describe []))
  | some l =>
    if l.kind = .braceL then
      if described then failAt here.length .describedShorthand else operation fuel
    else if l.kind = .name then
      if l.spelling = "schema" then schema fuel
      else if typeKeywords.contains l.spelling then typeDefinition fuel l.spelling
      else if l.spelling = "directive" then directive fuel
      else if (OperationKind.ofName? l.spelling).isSome then operation fuel
      else if l.spelling = "fragment" then fragment fuel
      else if described then failAt here.length .describedOther
      else if l.spelling = "extend" then extension fuel
      else failAt ahead.length (.unexpected l.label)
    else failAt ahead.length (.unexpected l.label)

def document (fuel : Nat) : Nat → Reader (List (Definition × Nat))
  | 0 => unexpected
  | n + 1 => do
    let here ← lexemes
    let d ← definition fuel
    if (← lexemes).isEmpty then return [(d, here.length)]
    return (d, here.length) :: (← document fuel n)

end Grammar

-- Places are counted in lexemes left, so texts with the same lexemes give the same definitions.
def definitionsOf (ls : List Lexeme) (broken : Bool) :
    Except Grammar.Stop (List (Definition × Nat)) :=
  if ls.isEmpty && broken then .error .unreadable
  else match Grammar.document (2 * ls.length + 2) (ls.length + 1) ⟨ls, broken, 0⟩ with
    | .ok (ds, _) => .ok ds
    | .error e => .error e

def TokenStream.offset (s : TokenStream) (textLength left : Nat) : Nat :=
  match s.tokens[s.tokens.length - left]? with
  | some t => t.start
  | none => textLength

def parse (text : String) : Except SyntaxError (List Placed) :=
  let stream := TokenStream.ofString text
  match definitionsOf (stream.tokens.map (·.toLexeme)) stream.failure.isSome with
  | .ok ds => .ok (ds.map fun (d, left) => ⟨d, stream.offset text.length left⟩)
  | .error .unreadable => .error (stream.failure.getD ⟨.unterminatedString, text.length⟩)
  | .error (.fault left fault) => .error ⟨fault, stream.offset text.length left⟩

end QueryGlean.Graphql
