import QueryGlean.Query.Locate
import QueryGlean.Language

namespace QueryGlean

inductive Severity
  | warning
  | error
deriving DecidableEq, Repr, Inhabited

namespace Severity

def name : Severity → String
  | warning => "warning"
  | error => "error"

def all : List Severity := [warning, error]

def ofName? (s : String) : Option Severity :=
  all.find? (·.name = s)

theorem ofName?_name (s : Severity) : ofName? s.name = some s := by
  cases s <;> decide

end Severity

structure Diagnostic where
  severity : Severity
  message : String
  filePath : String
  code : String
  variableName : Option String := none
  usageContext : Option String := none
deriving DecidableEq, Repr, Inhabited

namespace Diagnostic

variable (path : String)

def unknownQueryVariable (name usage : String) : Diagnostic where
  severity := .warning
  message :=
    s!"We were unable to find the declaration of variable \"{name}\", which you passed as the \"query\" " ++
    s!"prop into the {usage} declaration in \"{path}\".\n\n" ++
    "Perhaps the variable name has a typo?\n\n" ++
    "Also note that we are currently unable to use queries defined in files other than the file where " ++
    s!"the {usage} is defined. If you're attempting to import the query, please move it into \"{path}\"."
  filePath := path
  code := "unknown-query-variable"
  variableName := some name
  usageContext := some usage

def globalTag (tagName moduleName : String) : Diagnostic where
  severity := .warning
  message :=
    s!"Using the global `{tagName}` tag is deprecated.\n" ++
    "Import it instead like:  import \x7b " ++ tagName ++ s!" \x7d from '{moduleName}' in file:\n{path}"
  filePath := path
  code := "deprecated-global-tag"

def readFailed (error : String) : Diagnostic where
  severity := .error
  message := s!"There was a problem reading the file: {path}\n\n{error}"
  filePath := path
  code := "read-failed"

def parseFailed : Diagnostic where
  severity := .error
  message :=
    s!"There was a problem parsing \"{path}\"; any GraphQL fragments or queries in this file were " ++
    "not processed.\n" ++
    "This may indicate a syntax error in the code, or it may be a file type that we do not know how " ++
    "to parse."
  filePath := path
  code := "parse-failed"

def candidateFailed (languages : List String) (index : Int) : Diagnostic where
  severity := .error
  message :=
    s!"Preprocessed candidate #{index + 1} of {path} contains syntax errors (tried: " ++
    ", ".intercalate languages ++ ")."
  filePath := path
  code := "parse-failed"

def preprocessingFailed : Diagnostic where
  severity := .error
  message := s!"Failed to parse preprocessed file {path}"
  filePath := path
  code := "parse-failed"

def queryInvalid (error : String) : Diagnostic where
  severity := .error
  message := s!"There was a problem parsing the GraphQL query in file: {path}\n\n{error}"
  filePath := path
  code := "query-invalid"

end Diagnostic

def Unresolved.diagnostic (r : Unresolved) (path : String) : Diagnostic :=
  .unknownQueryVariable path r.name r.usage

end QueryGlean
