import QueryGlean.Diagnostic
import QueryGlean.Document
import QueryGlean.Graphql.Parser
import QueryGlean.Value.Field

namespace QueryGlean

inductive RecordError
  | graphql (text : String) (error : Graphql.SyntaxError)
  | fields (faults : List FieldFault)
deriving Repr

abbrev Fields := List (String × Value)

def readDefinition (text : String) : Except RecordError (Option Graphql.Definition) :=
  match Graphql.parse text with
  | .ok ds => .ok (ds.head?.map (·.definition))
  | .error e => .error (.graphql text e)

namespace Fragment

def make (name sourceText contentHash : String) (kind : FragmentKind) (locationKey filePath : String)
    (line column : Int) (definition : Graphql.Definition) : Fragment :=
  { name, sourceText, contentHash, kind, locationKey, filePath, line, column, definition }

def ofFields (fs : Fields) : Except RecordError Fragment := do
  let definition : Checked Graphql.Definition ←
    match fs.lookup "definition" with
    | none => pure (.error [⟨"definition", .missing⟩])
    | some (.text s) =>
      match ← readDefinition s with
      | some d => pure (if d.isDefining then .ok d else .error [⟨"definition", .notDefinition⟩])
      | none => pure (.error [⟨"definition", .notDefinition⟩])
    | some _ => pure (.error [⟨"definition", .notDefinition⟩])
  let text (name : String) := Checked.required fs name Value.readText
  let integer (name : String) := Checked.required fs name Value.readInteger
  let checked : Checked Fragment :=
    Checked.of make
      |>.and (text "name")
      |>.and (text "source_text")
      |>.and (text "content_hash")
      |>.and (.required fs "kind" (Value.readName FragmentKind.ofName?))
      |>.and (text "location_key")
      |>.and (text "file_path")
      |>.and (integer "line")
      |>.and (integer "column")
      |>.and definition
  checked.mapError .fields

def defaults (fs : Fields) : Fields :=
  let graphql : Value := (fs.lookup "definition").getD (.text "\x7b a \x7d")
  [("name", .text "N"), ("definition", graphql), ("source_text", graphql), ("content_hash", .text "1"),
    ("kind", .text "page_query"), ("location_key", .text "0-0"), ("file_path", .text "a.js"),
    ("line", .integer 1), ("column", .integer 1)]

def ofPartial (v : Value) : Except RecordError Fragment :=
  match v with
  | .record fs => ofFields (fs ++ defaults fs)
  | _ => ofFields (defaults [])

end Fragment

namespace Document

def ofFields (fs : Fields) : Except RecordError Document := do
  let items ← match fs.lookup "definitions" with
    | some (.list vs) => some <$> vs.mapM Fragment.ofPartial
    | _ => pure none
  let definitions : Checked Document := match items with
    | none => .error [⟨"definitions", .missing⟩]
    | some items =>
      match ofList? items with
      | some d => .ok d
      | none => .error [⟨"definitions", .tooShort⟩]
  let checked : Checked Document :=
    Checked.of (fun (_ : Unit) (d : Document) => d)
      |>.and (.optional fs "kind" () (Value.readConstant kindName))
      |>.and definitions
  checked.mapError .fields

end Document

namespace ExtractionResult

def make (filePath : String) (status : ExtractionStatus) (document : Option Document) (cached : Bool) :
    ExtractionResult :=
  { filePath, status, document, cached }

def ofFields (fs : Fields) : Except RecordError ExtractionResult := do
  let document : Checked (Option Document) ←
    match fs.lookup "document" with
    | some (.list vs) => (fun d => .ok (some d)) <$> Document.ofFields [("definitions", .list vs)]
    | none | some .null => pure (.ok none)
    | some _ => pure (.error [⟨"document", .notDocument⟩])
  let checked : Checked ExtractionResult :=
    Checked.of make
      |>.and (.required fs "file_path" Value.readText)
      |>.and (.required fs "status" (Value.readName ExtractionStatus.ofName?))
      |>.and document
      |>.and (.optional fs "cached" false Value.readSwitch)
  checked.mapError .fields

end ExtractionResult

namespace Diagnostic

def make (severity : Severity) (message filePath code : String) (variableName usageContext : Option String) :
    Diagnostic :=
  { severity, message, filePath, code, variableName, usageContext }

def ofFields (fs : Fields) : Checked Diagnostic :=
  let text (name : String) := Checked.required fs name Value.readText
  let optionalText (name : String) := Checked.optional fs name none (Value.readOptional Value.readText)
  Checked.of make
    |>.and (.required fs "severity" (Value.readName Severity.ofName?))
    |>.and (text "message")
    |>.and (text "file_path")
    |>.and (text "code")
    |>.and (optionalText "variable_name")
    |>.and (optionalText "usage_context")

end Diagnostic

end QueryGlean
