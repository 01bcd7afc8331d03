import QueryGlean.Console.Markup
import QueryGlean.Console.Table
import QueryGlean.Document
import QueryGlean.Keyed
import QueryGlean.Report

namespace QueryGlean.Command

structure Screen where
  out : String := ""
  err : String := ""
deriving DecidableEq, Repr, Inhabited

abbrev Showing (α : Type) := ExceptT Markup.Error (StateM Screen) α

namespace Showing

def outLines (ls : List (List Char)) : Showing Unit :=
  modify fun s => { s with out := s.out ++ String.join (ls.map fun l => String.ofList l ++ "\n") }

def errLines (ls : List (List Char)) : Showing Unit :=
  modify fun s => { s with err := s.err ++ String.join (ls.map fun l => String.ofList l ++ "\n") }

def consoleWidth : Nat := 80

def render (s : String) : Showing (List Char) :=
  match Markup.render s with
  | .ok cs => pure cs
  | .error e => throw e

def print (s : String) : Showing Unit := do
  outLines (Console.wrap consoleWidth .fold (← render s))

def printError (s : String) : Showing Unit := do
  errLines (Console.wrap consoleWidth .fold (← render s))

def printPlain (s : String) : Showing Unit :=
  outLines (Console.wrap consoleWidth .fold (Markup.visible s.toList))

def echo (s : String) : Showing Unit :=
  modify fun screen => { screen with out := screen.out ++ s ++ "\n" }

def printDocuments (documents : Keyed Document) : Showing Unit := do
  if documents.isEmpty then print "[yellow]No queries found[/yellow]"
  else
    let fragments := documents.flatMap fun (path, d) => d.definitions.map (path, ·)
    let rows ← fragments.mapM fun (path, f) =>
      [path, toString f.line, f.kind.name, f.name].mapM render
    outLines (Console.Table.lines {
      title := "Extracted queries"
      columns := [⟨"File", .left⟩, ⟨"Line", .right⟩, ⟨"Kind", .left⟩, ⟨"Name", .left⟩]
      rows })

def printGraphql (documents : Keyed Document) : Showing Unit :=
  documents.forM fun (path, d) => do
    print s!"[bold]# {path}[/bold]"
    printPlain d.toGraphql

def colour : Severity → String
  | .error => "red"
  | .warning => "yellow"

def printDiagnostics (c : Collector) : Showing Unit :=
  c.diagnostics.forM fun d =>
    let style := colour d.severity
    printError s!"[{style}]{d.severity.name}[/{style}] {d.message}"

end Showing

end QueryGlean.Command
