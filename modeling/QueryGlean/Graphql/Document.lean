
namespace QueryGlean.Graphql

inductive Value
  | variable (name : String)
  | int (spelling : String)
  | float (spelling : String)
  | string (text : String) (block : Bool)
  | boolean (b : Bool)
  | null
  | enum (name : String)
  | list (items : List Value)
  | object (fields : List (String × Value))
deriving Repr, Inhabited, BEq

structure Argument where
  name : String
  value : Value
deriving Repr, Inhabited, BEq

structure Directive where
  name : String
  arguments : List Argument
deriving Repr, Inhabited, BEq

inductive TypeReference
  | named (name : String)
  | list (item : TypeReference)
  | nonNull (type : TypeReference)
deriving Repr, Inhabited, BEq

inductive Selection
  | field (label : Option String) (name : String) (arguments : List Argument)
      (directives : List Directive) (selections : Option (List Selection))
  | spread (name : String) (directives : List Directive)
  | inline (condition : Option String) (directives : List Directive) (selections : List Selection)
deriving Repr, Inhabited, BEq

structure Description where
  text : String
  block : Bool
deriving Repr, Inhabited, BEq

inductive OperationKind
  | query
  | mutation
  | subscription
deriving DecidableEq, Repr, Inhabited

namespace OperationKind

def name : OperationKind → String
  | query => "query"
  | mutation => "mutation"
  | subscription => "subscription"

def ofName? : String → Option OperationKind
  | "query" => some query
  | "mutation" => some mutation
  | "subscription" => some subscription
  | _ => none

theorem ofName?_name (k : OperationKind) : ofName? k.name = some k := by
  cases k <;> rfl

end OperationKind

structure VariableDefinition where
  description : Option Description
  name : String
  type : TypeReference
  default : Option Value
  directives : List Directive
deriving Repr, Inhabited, BEq

structure InputDefinition where
  description : Option Description
  name : String
  type : TypeReference
  default : Option Value
  directives : List Directive
deriving Repr, Inhabited, BEq

structure FieldDefinition where
  description : Option Description
  name : String
  arguments : List InputDefinition
  type : TypeReference
  directives : List Directive
deriving Repr, Inhabited, BEq

structure EnumValueDefinition where
  description : Option Description
  name : String
  directives : List Directive
deriving Repr, Inhabited, BEq

structure RootOperation where
  operation : OperationKind
  type : String
deriving Repr, Inhabited, BEq

inductive TypeBody
  | scalar
  | object (interfaces : List String) (fields : List FieldDefinition)
  | interface (interfaces : List String) (fields : List FieldDefinition)
  | union (members : List String)
  | enum (values : List EnumValueDefinition)
  | input (fields : List InputDefinition)
deriving Repr, Inhabited, BEq

namespace TypeBody

def keyword : TypeBody → String
  | scalar => "scalar"
  | object .. => "type"
  | interface .. => "interface"
  | union .. => "union"
  | enum .. => "enum"
  | input .. => "input"

def isEmpty : TypeBody → Bool
  | scalar => true
  | object is fs => is.isEmpty && fs.isEmpty
  | interface is fs => is.isEmpty && fs.isEmpty
  | union ms => ms.isEmpty
  | enum vs => vs.isEmpty
  | input fs => fs.isEmpty

end TypeBody

inductive Definition
  | operation (description : Option Description) (kind : OperationKind) (name : Option String)
      (parameters : List VariableDefinition) (directives : List Directive)
      (selections : List Selection)
  | fragment (description : Option Description) (name : String) (condition : String)
      (directives : List Directive) (selections : List Selection)
  | schema (description : Option Description) (directives : List Directive)
      (roots : List RootOperation)
  | type (description : Option Description) (name : String) (directives : List Directive)
      (body : TypeBody)
  | directive (description : Option Description) (name : String) (arguments : List InputDefinition)
      (directives : List Directive) (repeatable : Bool) (locations : List String)
  | extendSchema (directives : List Directive) (roots : List RootOperation)
  | extendType (name : String) (directives : List Directive) (body : TypeBody)
  | extendDirective (name : String) (directives : List Directive)
deriving Repr, Inhabited, BEq

namespace Definition

def name? : Definition → Option String
  | operation _ _ n .. => n
  | fragment _ n .. => some n
  | type _ n .. => some n
  | directive _ n .. => some n
  | extendType n .. => some n
  | extendDirective n .. => some n
  | schema .. | extendSchema .. => none

def named? (n : String) : Definition → Option Definition
  | operation d k _ vs ds ss => some (operation d k (some n) vs ds ss)
  | fragment d _ c ds ss => some (fragment d n c ds ss)
  | type d _ ds b => some (type d n ds b)
  | directive d _ as ds r ls => some (directive d n as ds r ls)
  | extendType _ ds b => some (extendType n ds b)
  | extendDirective _ ds => some (extendDirective n ds)
  | schema .. | extendSchema .. => none

def isDefining : Definition → Bool
  | extendDirective .. => false
  | _ => true

def TypeBody.kindName : TypeBody → String
  | .scalar => "scalar"
  | .object .. => "object"
  | .interface .. => "interface"
  | .union .. => "union"
  | .enum .. => "enum"
  | .input .. => "input_object"

def kindName : Definition → String
  | operation .. => "operation_definition"
  | fragment .. => "fragment_definition"
  | schema .. => "schema_definition"
  | type _ _ _ b => TypeBody.kindName b ++ "_type_definition"
  | directive .. => "directive_definition"
  | extendSchema .. => "schema_extension"
  | extendType _ _ b => TypeBody.kindName b ++ "_type_extension"
  | extendDirective .. => "directive_extension"

end Definition

structure Placed where
  definition : Definition
  start : Nat
deriving Repr, Inhabited, BEq

end QueryGlean.Graphql
