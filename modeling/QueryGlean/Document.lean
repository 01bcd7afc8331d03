import QueryGlean.Fragment
import QueryGlean.Graphql.Printer
import QueryGlean.Value

namespace QueryGlean

namespace Fragment

def toValue (f : Fragment) : Value :=
  .record [
    ("name", .text f.name),
    ("source_text", .text f.sourceText),
    ("content_hash", .text f.contentHash),
    ("kind", .text f.kind.name),
    ("location_key", .text f.locationKey),
    ("file_path", .text f.filePath),
    ("line", .integer f.line),
    ("column", .integer f.column)]

end Fragment

structure Document where
  first : Fragment
  others : List Fragment
deriving Repr, Inhabited, BEq

namespace Document

def definitions (d : Document) : List Fragment :=
  d.first :: d.others

def ofList? : List Fragment → Option Document
  | [] => none
  | f :: fs => some ⟨f, fs⟩

@[simp]
theorem definitions_ne_nil (d : Document) : d.definitions ≠ [] := by
  simp [definitions]

theorem ofList?_eq_some_iff {fs : List Fragment} {d : Document} :
    ofList? fs = some d ↔ d.definitions = fs := by
  cases fs <;> cases d <;> simp [ofList?, definitions, eq_comm]

def kindName : String := "Document"

def names (d : Document) : List String :=
  d.definitions.map (·.name)

def toGraphql (d : Document) : String :=
  Graphql.Print.document (d.definitions.map (·.definition))

def toValue (d : Document) : Value :=
  .record [("kind", .text kindName), ("definitions", .list (d.definitions.map Fragment.toValue))]

def json (documents : List (String × Document)) : String :=
  (Value.record (documents.map fun (path, d) => (path, .list (d.definitions.map Fragment.toValue)))).toJson

end Document

inductive ExtractionStatus
  | notQueryFile
  | noFragments
  | extracted
  | readError
  | parseError
  | queryError
deriving DecidableEq, Repr, Inhabited

namespace ExtractionStatus

def name : ExtractionStatus → String
  | notQueryFile => "not_query_file"
  | noFragments => "no_fragments"
  | extracted => "extracted"
  | readError => "read_error"
  | parseError => "parse_error"
  | queryError => "query_error"

def all : List ExtractionStatus :=
  [notQueryFile, noFragments, extracted, readError, parseError, queryError]

def ofName? (s : String) : Option ExtractionStatus :=
  all.find? (·.name = s)

theorem ofName?_name (s : ExtractionStatus) : ofName? s.name = some s := by
  cases s <;> decide

def isOk : ExtractionStatus → Bool
  | extracted | noFragments | notQueryFile => true
  | _ => false

end ExtractionStatus

structure ExtractionResult where
  filePath : String
  status : ExtractionStatus
  document : Option Document := none
  cached : Bool := false
deriving Repr, Inhabited, BEq

namespace ExtractionResult

def isOk (r : ExtractionResult) : Bool :=
  r.status.isOk

def toValue (r : ExtractionResult) : Value :=
  .record [
    ("file_path", .text r.filePath),
    ("status", .text r.status.name),
    ("document", .ofOption Document.toValue r.document),
    ("cached", .bool r.cached)]

def summary (r : ExtractionResult) : Value :=
  let line (f : Fragment) : Value := .record [
    ("name", .text f.name),
    ("kind", .text f.kind.name),
    ("line", .integer f.line),
    ("column", .integer f.column)]
  .record [
    ("file_path", .text r.filePath),
    ("status", .text r.status.name),
    ("cached", .bool r.cached),
    ("fragments", .list (((r.document.map Document.definitions).getD []).map line))]

end ExtractionResult

end QueryGlean
