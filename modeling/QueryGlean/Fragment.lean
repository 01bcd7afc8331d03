import QueryGlean.Query.Locate
import QueryGlean.Query.Extract

namespace QueryGlean

structure Fragment where
  name : String
  sourceText : String
  contentHash : String
  kind : FragmentKind
  locationKey : String
  filePath : String
  line : Int
  column : Int
  definition : Graphql.Definition
deriving Repr, Inhabited, BEq

def locationKey (enclosing definition : Int) : String :=
  s!"{enclosing}-{definition}"

namespace Fragment

def isStaticQuery (f : Fragment) : Bool :=
  f.kind = .componentQuery || f.kind = .hookQuery

def isHook (f : Fragment) : Bool :=
  f.kind = .hookQuery

def dedupe (fs : List Fragment) : List Fragment :=
  go [] fs
where
  go (seen : List String) : List Fragment → List Fragment
    | [] => []
    | f :: fs => if seen.contains f.locationKey then go seen fs else f :: go (f.locationKey :: seen) fs

end Fragment

inductive UnfitDefinition
  | unnamable (definition : Graphql.Definition)
  | undefining (definition : Graphql.Definition)
deriving Repr, BEq

namespace UnfitDefinition

def typeName : Graphql.Definition → String
  | .extendSchema .. => "SchemaExtensionNode"
  | .extendDirective .. => "DirectiveExtensionNode"
  | _ => "SchemaDefinitionNode"

def message : UnfitDefinition → String
  | unnamable d => s!"{typeName d}.__init__() got an unexpected keyword argument 'name'"
  | undefining d =>
    "1 validation error for Fragment\ndefinition\n  Input should be a dictionary or an instance of " ++
      s!"DefinitionNode [type=dataclass_type, input_type={typeName d}]"

end UnfitDefinition

inductive ExtractionError
  | query (error : QueryError)
  | unfit (definition : UnfitDefinition)
deriving Repr, BEq

def ExtractionError.message : ExtractionError → String
  | query e => e.message
  | unfit u => u.message

def named (path hash : String) (d : Graphql.Definition) :
    Except ExtractionError (String × Graphql.Definition) :=
  match d.name? with
  | some n => .ok (n, d)
  | none =>
    let n := Name.generate path hash
    match d.named? n with
    | some d => .ok (n, d)
    | none => .error (.unfit (.unnamable d))

namespace Find

variable (src : Source) (path : String)

def fragment (f : Find) (q : Query) (p : Graphql.Placed) : Except ExtractionError Fragment := do
  let (name, definition) ← named path q.hash p.definition
  if definition.isDefining then
    return {
      name
      sourceText := q.rawText
      contentHash := q.hash
      kind := f.kind
      locationKey := locationKey (src.byteOffset f.template.start) p.start
      filePath := path
      line := src.line f.template.start
      column := src.column f.template.start
      definition }
  else throw (.unfit (.undefining definition))

def fragments (f : Find) (q : Query) : Except ExtractionError (List Fragment) :=
  q.definitions.mapM (f.fragment src path q)

end Find

end QueryGlean
