import QueryGlean.Graphql.Document
import QueryGlean.Graphql.BlockText
import QueryGlean.Graphql.Quoted

namespace QueryGlean.Graphql.Print

def maxLine : Nat := 80

def wrap (before s after : String) : String :=
  if s.isEmpty then "" else before ++ s ++ after

def join (sep : String) (ss : List String) : String :=
  sep.intercalate (ss.filter (! ·.isEmpty))

def indent (s : String) : String :=
  wrap "  " (String.ofList (s.toList.flatMap fun c => if c = '\n' then ['\n', ' ', ' '] else [c])) ""

def block (ss : List String) : String :=
  wrap "\x7b\n" (indent (join "\n" ss)) "\n\x7d"

def selectionBlock (ss : List String) : String :=
  if ss.isEmpty then "\x7b\x7d" else block ss

def isMultiline (s : String) : Bool :=
  s.toList.contains '\n'

def parenthesized (items : List String) (indented : Bool) : String :=
  if items.any isMultiline then
    let body := join "\n" items
    wrap "(\n" (if indented then indent body else body) "\n)"
  else wrap "(" (join ", " items) ")"

mutual

def value : Value → String
  | .variable n => "$" ++ n
  | .int s => s
  | .float s => s
  | .string t true => BlockText.print t false
  | .string t false => Quoted.print t
  | .boolean b => if b then "true" else "false"
  | .null => "null"
  | .enum n => n
  | .list vs =>
    let items := values vs
    let line := "[" ++ join ", " items ++ "]"
    if maxLine < line.length then "[\n" ++ indent (join "\n" items) ++ "\n]" else line
  | .object fs =>
    let items := fields fs
    let line := "\x7b " ++ join ", " items ++ " \x7d"
    if maxLine < line.length then "\x7b\n" ++ indent (join "\n" items) ++ "\n\x7d" else line

def values : List Value → List String
  | [] => []
  | v :: vs => value v :: values vs

def fields : List (String × Value) → List String
  | [] => []
  | (k, v) :: fs => (k ++ ": " ++ value v) :: fields fs

end

def argument (a : Argument) : String :=
  a.name ++ ": " ++ value a.value

def directive (d : Directive) : String :=
  "@" ++ d.name ++ wrap "(" (join ", " (d.arguments.map argument)) ")"

def directives (ds : List Directive) : String :=
  join " " (ds.map directive)

def typeReference : TypeReference → String
  | .named n => n
  | .list t => "[" ++ typeReference t ++ "]"
  | .nonNull t => typeReference t ++ "!"

mutual

def selection : Selection → String
  | .field label n as ds inner =>
    let head := wrap "" (label.getD "") ": " ++ n
    let args := as.map argument
    let line := head ++ wrap "(" (join ", " args) ")"
    let called :=
      if maxLine < line.length then head ++ wrap "(\n" (indent (join "\n" args)) "\n)" else line
    join " " [called, directives ds, match inner with
      | none => ""
      | some ss => selectionBlock (selections ss)]
  | .spread n ds => "..." ++ n ++ wrap " " (directives ds) ""
  | .inline c ds ss => join " " ["...", wrap "on " (c.getD "") "", directives ds, selectionBlock (selections ss)]

def selections : List Selection → List String
  | [] => []
  | s :: ss => selection s :: selections ss

end

def description : Option Description → String
  | none => ""
  | some d => (if d.block then BlockText.print d.text false else Quoted.print d.text) ++ "\n"

def default (v : Option Value) : String :=
  match v with
  | none => ""
  | some v => "= " ++ value v

def variableDefinition (v : VariableDefinition) : String :=
  description v.description ++
    join " " ["$" ++ v.name ++ ": " ++ typeReference v.type, default v.default, directives v.directives]

def inputDefinition (d : InputDefinition) : String :=
  description d.description ++
    join " " [d.name ++ ": " ++ typeReference d.type, default d.default, directives d.directives]

def fieldDefinition (d : FieldDefinition) : String :=
  description d.description ++ d.name ++ parenthesized (d.arguments.map inputDefinition) true ++ ": " ++
    typeReference d.type ++ wrap " " (directives d.directives) ""

def enumValueDefinition (d : EnumValueDefinition) : String :=
  description d.description ++ join " " [d.name, directives d.directives]

def rootOperation (r : RootOperation) : String :=
  r.operation.name ++ ": " ++ r.type

def type (name : String) (ds : List Directive) (body : TypeBody) : String :=
  let implemented (is : List String) := wrap "implements " (join " & " is) ""
  match body with
  | .scalar => join " " [name, directives ds]
  | .object is fs | .interface is fs =>
    join " " [name, implemented is, directives ds, block (fs.map fieldDefinition)]
  | .union ms => join " " [name, directives ds, wrap "= " (join " | " ms) ""]
  | .enum vs => join " " [name, directives ds, block (vs.map enumValueDefinition)]
  | .input fs => join " " [name, directives ds, block (fs.map inputDefinition)]

def definition : Definition → String
  | .operation d k n vs ds ss =>
    let head := description d ++ join " " [
      k.name,
      n.getD "" ++ parenthesized (vs.map variableDefinition) false,
      directives ds]
    -- A query that is nothing but its selections is written without a keyword.
    (if head = "query" then "" else head ++ " ") ++ selectionBlock (selections ss)
  | .fragment d n c ds ss =>
    description d ++ s!"fragment {n} on {c} " ++ wrap "" (directives ds) " " ++ selectionBlock (selections ss)
  | .schema d ds rs => description d ++ join " " ["schema", directives ds, block (rs.map rootOperation)]
  | .type d n ds b => description d ++ b.keyword ++ " " ++ type n ds b
  | .directive d n as ds r ls =>
    description d ++ "directive @" ++ n ++ parenthesized (as.map inputDefinition) true ++
      wrap " " (directives ds) "" ++ (if r then " repeatable" else "") ++ " on " ++ join " | " ls
  | .extendSchema ds rs => join " " ["extend schema", directives ds, block (rs.map rootOperation)]
  | .extendType n ds b => "extend " ++ b.keyword ++ " " ++ type n ds b
  | .extendDirective n ds => join " " ["extend directive @" ++ n, directives ds]

def document (ds : List Definition) : String :=
  join "\n\n" (ds.map definition)

end QueryGlean.Graphql.Print
