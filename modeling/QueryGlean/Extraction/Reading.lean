import QueryGlean.Fragment.OfTree
import QueryGlean.Preprocessor
import QueryGlean.Report

namespace QueryGlean

inductive Breakdown
  | nulPath
  | notText (kind : String)
  | unfit (definition : UnfitDefinition)
deriving Repr, BEq

def Breakdown.message : Breakdown → String
  | nulPath => "embedded null byte"
  | notText kind => s!"'{kind}' object has no attribute 'encode'"
  | unfit u => u.message

def Parsed.attempt (src : Source) : List Language → Option Parsed × List Event
  | [] => (none, [])
  | l :: ls =>
    match parseIn l src with
    | some root => (some ⟨l, src, root⟩, [])
    | none =>
      let (p, events) := attempt src ls
      (p, .noted ⟨.debug, .sources, s!"Syntax errors parsing as {l.name}"⟩ :: events)

theorem Parsed.fst_attempt (src : Source) (ls : List Language) :
    (attempt src ls).1 = first? src ls := by
  induction ls with
  | nil => rfl
  | cons l ls ih => simp only [attempt, first?]; split <;> simp_all

namespace Reading

def candidateFailure (path : String) (languages : List Language) (index : Nat) : List Event :=
  [.reported (.candidateFailed path (languages.map (·.name)) index), .failed path .parse none]

def firstCandidate (path : String) (languages : List Language) (index : Nat) :
    List Value → Except Breakdown (Option Parsed) × List Event
  | [] => (.ok none, [.reported (.preprocessingFailed path), .failed path .parse none])
  | .text s :: rest =>
    match Parsed.attempt (Source.ofString s) languages with
    | (some p, events) => (.ok (some p), events)
    | (none, events) =>
      let (result, later) := firstCandidate path languages (index + 1) rest
      (result, events ++ candidateFailure path languages index ++ later)
  | v :: _ => (.error (.notText v.kindName), [])

-- Where preprocessors offer candidates, the text of the file itself is not looked at.
def source (preprocessors : List Preprocessor) (path text : String) :
    Except Breakdown (Option Parsed) × List Event :=
  let languages := Language.candidates (Path.ofString path)
  match Preprocessor.candidates path text preprocessors with
  | .error e =>
    (.ok none, [
      .noted ⟨.error, .sources, s!"Preprocessing {path} failed"⟩,
      .reported (.preprocessingFailed path),
      .failed path .parse (some e.message)])
  | .ok [] =>
    match Parsed.attempt (Source.ofString text) languages with
    | (some p, events) => (.ok (some p), events)
    | (none, events) =>
      (.ok none, events ++ [.reported (.parseFailed path), .failed path .parse none])
  | .ok candidates => firstCandidate path languages 0 candidates

end Reading

end QueryGlean
