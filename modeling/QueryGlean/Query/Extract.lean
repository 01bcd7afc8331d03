import QueryGlean.Query.Tag
import QueryGlean.Fragment.Name
import QueryGlean.Graphql.Parser
import QueryGlean.Graphql.Compact

namespace QueryGlean

inductive QueryError.Cause
  | interpolation
  | empty
  | invalid (text : String) (error : Graphql.SyntaxError)
deriving DecidableEq, Repr

structure QueryError where
  cause : QueryError.Cause
  path : String
  offset : Nat
deriving DecidableEq, Repr

namespace QueryError

def Cause.message : Cause → String
  | interpolation =>
    "String interpolations are not allowed in graphql fragments. Included fragments should be " ++
      "referenced as `...MyModule_foo`."
  | empty => "Unexpected empty graphql tag."
  | invalid text error =>
    s!"GraphQL syntax error in query:\n\n{text}\n\nmessage:\n\n{error.message text}"

def message (e : QueryError) : String :=
  e.cause.message

end QueryError

structure Query where
  definitions : List Graphql.Placed
  rawText : String
  text : String
  hash : String
  isGlobal : Bool
deriving Repr, Inhabited

def QueryError.read (rawText : String) : Except QueryError.Cause (List Graphql.Placed) :=
  if isBlankText rawText then .error .empty
  else match Graphql.parse rawText with
    | .error e => .error (.invalid rawText e)
    | .ok [] => .error .empty
    | .ok ds => .ok ds

-- Reads the query of a template. The offset of an error counts bytes.
def Matcher.extract (m : Matcher) (src : Source) (path : String) (t : TaggedTemplate) :
    Except QueryError Query :=
  let raw := t.rawText src
  let read := if t.hasSubstitutions then .error .interpolation else QueryError.read raw
  match read with
  | .error cause => .error ⟨cause, path, src.byteOffset t.start⟩
  | .ok definitions =>
    let text := Graphql.compact raw
    .ok ⟨definitions, raw, text, Name.contentHash text, m.isGlobal src t⟩

end QueryGlean
