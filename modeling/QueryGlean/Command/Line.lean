
namespace QueryGlean

inductive Command
  | extract (paths : List String) (json graphql strict : Bool)
  | watch (directory : String)
deriving DecidableEq, Repr, Inhabited

namespace Command

structure ExtractOptions where
  paths : List String := []
  json : Bool := false
  graphql : Bool := false
  strict : Bool := false

-- Whether an argument asks for an option. A lone hyphen does not.
def isOption (s : String) : Bool :=
  s.startsWith "-" && s != "-"

def extractOptions (o : ExtractOptions) : List String → Option ExtractOptions
  | [] => some o
  | a :: rest =>
    if a = "--" then some { o with paths := o.paths ++ rest }
    else if a = "--json" then extractOptions { o with json := true } rest
    else if a = "--print" then extractOptions { o with graphql := true } rest
    else if a = "--strict" then extractOptions { o with strict := true } rest
    else if a = "--no-strict" then extractOptions { o with strict := false } rest
    else if isOption a then none
    else extractOptions { o with paths := o.paths ++ [a] } rest

def watchArguments : List String → Option (List String)
  | [] => some []
  | "--" :: rest => some rest
  | a :: rest => if isOption a then none else (watchArguments rest).map (a :: ·)

def ofArguments? : List String → Option Command
  | [] => none
  | "--log-level" :: _ :: rest => ofArguments? rest
  | a :: rest =>
    if a.startsWith "--log-level=" then ofArguments? rest
    else if a = "extract" then do
      let o ← extractOptions {} rest
      if o.paths = [] then none else some (.extract o.paths o.json o.graphql o.strict)
    else if a = "watch" then do
      match ← watchArguments rest with
      | [] => some (.watch ".")
      | [d] => some (.watch d)
      | _ => none
    else none

end Command

end QueryGlean
