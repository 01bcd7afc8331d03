import QueryGlean.Text.Blank

namespace QueryGlean

structure Settings where
  tagName : String := "graphql"
  moduleName : String := "gatsby"
  component : String := "StaticQuery"
  queryAttribute : String := "query"
  hookName : String := "useStaticQuery"
  coalesce : Bool := true
deriving DecidableEq, Repr, Inhabited

namespace Settings

inductive Error
  | invalidSwitch (variable' value : String)
deriving DecidableEq, Repr

def Error.message : Error → String
  | invalidSwitch var value => s!"Invalid boolean value for {var}: '{value}'"

-- Reads a switch; surrounding blanks and case do not matter. Folding ASCII letters is enough: no
-- other character has one of the letters of these words as its lower-case form.
def switch? (value : String) : Option Bool :=
  let word := String.ofList ((trimBlank value.toList).map Char.toLower)
  if ["1", "true", "yes", "on"].contains word then some true
  else if ["0", "false", "no", "off"].contains word then some false
  else none

abbrev Environment := List (String × String)

def variableOf (key : String) : String :=
  "GQL_HARVEST_" ++ key

def variableNames : List String :=
  ["TAG_NAME", "MODULE_NAME", "STATIC_QUERY_COMPONENT", "QUERY_ATTRIBUTE", "HOOK_NAME", "COALESCE"].map
    variableOf

def ofEnvironment (env : Environment) : Except Error Settings := do
  let get (key default : String) := (env.lookup (variableOf key)).getD default
  let base : Settings := {}
  let coalesce ← match env.lookup (variableOf "COALESCE") with
    | none => pure base.coalesce
    | some value =>
      match switch? value with
      | some b => pure b
      | none => throw (.invalidSwitch (variableOf "COALESCE") value)
  return {
    tagName := get "TAG_NAME" base.tagName
    moduleName := get "MODULE_NAME" base.moduleName
    component := get "STATIC_QUERY_COMPONENT" base.component
    queryAttribute := get "QUERY_ATTRIBUTE" base.queryAttribute
    hookName := get "HOOK_NAME" base.hookName
    coalesce }

end Settings

end QueryGlean
