import QueryGlean.Fragment
import QueryGlean.Diagnostic

namespace QueryGlean

structure Normalized where
  result : Except ExtractionError (List Fragment)
  warned : List Nat
  warnings : List Diagnostic

namespace Matcher

variable (m : Matcher) (src : Source) (path : String)

-- The fragments of one find. A warning comes before the attempt to name the definitions.
def normalize (warned : List Nat) (f : Find) : Normalized :=
  match m.extract src path f.template with
  | .error e => ⟨.error (.query e), warned, []⟩
  | .ok q =>
    let result := f.fragments src path q
    if q.isGlobal && !warned.contains f.template.start then
      ⟨result, f.template.start :: warned, [.globalTag path m.settings.tagName m.settings.moduleName]⟩
    else ⟨result, warned, []⟩

def normalizeAll (warned : List Nat) :
    List Find → Except ExtractionError (List Fragment) × List Diagnostic
  | [] => (.ok [], [])
  | f :: fs =>
    let here := m.normalize src path warned f
    match here.result with
    | .error e => (.error e, here.warnings)
    | .ok fragments =>
      let (rest, warnings) := normalizeAll here.warned fs
      (rest.map (fragments ++ ·), here.warnings ++ warnings)

end Matcher

def Fragment.ofTree (settings : Settings) (path : String) (src : Source) (root : Tree) :
    Except ExtractionError (List Fragment) × List Diagnostic :=
  let m : Matcher := ⟨settings, Scope.ofTree src root⟩
  let sightings := m.locate src root
  let (result, warnings) := m.normalizeAll src path [] (sightings.filterMap Sighting.find?)
  (result.map Fragment.dedupe,
    (sightings.filterMap Sighting.unresolved?).map (·.diagnostic path) ++ warnings)

def Parsed.fragments (p : Parsed) (settings : Settings) (path : String) :
    Except ExtractionError (List Fragment) × List Diagnostic :=
  Fragment.ofTree settings path p.source p.root

end QueryGlean
