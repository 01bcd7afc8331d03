import QueryGlean.Command.Line
import QueryGlean.Command.Output
import QueryGlean.Extraction.Batch
import QueryGlean.Watch

namespace QueryGlean.Command

inductive Crash
  | settings (error : Settings.Error)
  | markup (error : Markup.Error)
  | file (error : FileError) (path : Path)
deriving Repr

def Crash.message : Crash → String
  | settings e => e.message
  | markup e => e.message
  | file e path => e.message path

structure Ending where
  status : Nat
  screen : Screen
  crash : Option Crash := none
deriving Repr, Inhabited

namespace Ending

def showing (screen : Screen) (status : Nat) (action : Showing Unit) : Ending :=
  match (action.run).run screen with
  | (.ok (), screen) => { status, screen }
  | (.error e, screen) => { status := 1, screen, crash := some (.markup e) }

def crashed (screen : Screen) (c : Crash) : Ending where
  status := 1
  screen
  crash := some c

end Ending

def badArgument : Nat := 2

def failedExtraction : Nat := 1

def runExtract (files : FileTree) (env : Settings.Environment) (paths : List String)
    (json graphql strict : Bool) : Ending :=
  match files.sources paths with
  | (_, some (.missing argument)) =>
    .showing {} badArgument (Showing.print s!"[red]{(DiscoveryError.missing argument).message}[/red]")
  | (_, some (.system e path)) => .crashed {} (.file e path)
  | (found, none) =>
    match Settings.ofEnvironment env with
    | .error e => .crashed {} (.settings e)
    | .ok settings =>
      let (documents, _, events) := Extractor.documents ⟨settings, []⟩ files {} (found.map toString)
      let collector := ({} : Collector).recordAll events
      let status := if strict && !collector.errors.isEmpty then failedExtraction else 0
      .showing {} status do
        if json then Showing.echo (Document.json documents)
        else if graphql then Showing.printGraphql documents
        else Showing.printDocuments documents
        Showing.printDiagnostics collector

structure Watching where
  root : Path
  extractor : Extractor
  files : FileTree
  cache : Cache := {}
  screen : Screen := {}

namespace Watching

def report (w : Watching) (paths : List Path) : Except Markup.Error Unit × Watching :=
  let (documents, cache, events) := w.extractor.documents w.files w.cache (paths.map toString)
  let action : Showing Unit := do
    Showing.printDocuments documents
    Showing.printDiagnostics (({} : Collector).recordAll events)
  let (result, screen) := action.run.run w.screen
  (result, { w with cache, screen })

def say (w : Watching) (s : String) : Except Markup.Error Unit × Watching :=
  let (result, screen) := (Showing.print s).run.run w.screen
  (result, { w with screen })

def begin' (w : Watching) (paths : List Path) : Except Markup.Error Unit × Watching :=
  match w.report paths with
  | (.ok (), w) => w.say s!"[green]Watching[/green] {w.root} (Ctrl+C to stop)"
  | failed => failed

def react : Reaction Watching := fun w paths =>
  let (result, w) := w.report (Path.sort paths)
  (w, !result.isOk)

def batch (w : Watching) (changes : List Change) : Watching :=
  (Watch.deliver w.root react w changes).1

def ending (w : Watching) : Ending :=
  { status := 0, screen := w.screen }

def interrupted (w : Watching) : Ending :=
  .showing w.screen 0 (Showing.print "[green]Stopped[/green]")

end Watching

def startWatch (files : FileTree) (env : Settings.Environment) (directory : String) :
    Except Ending Watching :=
  let root := Path.ofString directory
  let refused : Except Ending Watching :=
    .error (.showing {} badArgument (Showing.print s!"[red]Not a directory: {directory}[/red]"))
  if FileTree.hasNul root then refused
  else match files.resolve root with
    | .error .nameTooLong => .error (.crashed {} (.file .nameTooLong root))
    | .ok (place, .directory) =>
      match Settings.ofEnvironment env with
      | .error e => .error (.crashed {} (.settings e))
      | .ok settings =>
        match files.sourcesBelow root place with
        | (_, some path) => .error (.crashed {} (.file .nameTooLong path))
        | (found, none) =>
          match Watching.begin' { root, extractor := ⟨settings, []⟩, files } found with
          | (.ok (), w) => .ok w
          | (.error e, w) => .error (.crashed w.screen (.markup e))
    | _ => refused

end QueryGlean.Command
