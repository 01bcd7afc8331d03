import QueryGlean.Value

namespace QueryGlean

abbrev Preprocessor := String → String → Except String Value

inductive PreprocessingError
  | raised (message : String)
  | notIterable (kind : String)
deriving DecidableEq, Repr

namespace PreprocessingError

def message : PreprocessingError → String
  | raised m => m
  | notIterable kind => s!"'{kind}' object is not iterable"

end PreprocessingError

-- A list offers its items, a text its characters, a record its keys, and what is empty nothing.
def Value.candidates (v : Value) : Except PreprocessingError (List Value) :=
  if v.isEmpty then .ok []
  else match v with
    | .list items => .ok items
    | .text s => .ok (s.toList.map fun c => .text c.toString)
    | .record fields => .ok (fields.map fun (k, _) => .text k)
    | _ => .error (.notIterable v.kindName)

def Preprocessor.candidates (path text : String) :
    List Preprocessor → Except PreprocessingError (List Value)
  | [] => .ok []
  | p :: ps => do
    let v ← (p path text).mapError .raised
    let here ← v.candidates
    let rest ← candidates path text ps
    return here ++ rest

end QueryGlean
