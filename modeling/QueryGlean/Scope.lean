import QueryGlean.Source.Item
import QueryGlean.Source.Parse

namespace QueryGlean

namespace Tree

mutual

-- The nodes of a tree in the order in which it is known of each what it binds or declares. Of a declarator that
-- is not known before its value is met, and what stands in its pattern comes first.
def recognized : Tree → List Tree
  | node k r s e cs =>
    let t := node k r s e cs
    if k = .declarator then recognizedAmong (some t) cs else t :: recognizedAmong none cs

-- The node that is waiting comes in front of the value.
def recognizedAmong (waiting : Option Tree) : List Tree → List Tree
  | [] => waiting.toList
  | c :: cs =>
    if c.role = some .value then waiting.toList ++ (recognized c ++ recognizedAmong none cs)
    else recognized c ++ recognizedAmong waiting cs

end

end Tree

inductive BindingKind
  | import'
  | require
deriving DecidableEq, Repr, Inhabited

def BindingKind.name : BindingKind → String
  | import' => "import"
  | require => "require"

structure Binding where
  localName : String
  source : String
  imported : String
  kind : BindingKind
deriving DecidableEq, Repr, Inhabited

namespace Binding

def wholeModule : String := "*"

def defaultExport : String := "default"

end Binding

-- The index of a file. A local name is bound once; the first binding of it counts.
structure Scope where
  bindings : List Binding := []
  declared : List String := []
  templates : List (String × TaggedTemplate) := []
deriving Inhabited

namespace Scope

def binding? (s : Scope) (name : String) : Option Binding :=
  s.bindings.find? (·.localName = name)

def isBound (s : Scope) (name : String) : Bool :=
  (s.binding? name).isSome

def isDeclared (s : Scope) (name : String) : Bool :=
  s.declared.contains name

def templatesFor (s : Scope) (name : String) : List TaggedTemplate :=
  (s.templates.filter (·.1 = name)).map (·.2)

def bind (s : Scope) (b : Binding) : Scope :=
  if s.isBound b.localName then s else { s with bindings := s.bindings ++ [b] }

variable (src : Source)

def nameText (t : Tree) : String :=
  if t.kind = .string then t.inside src else t.text src

def specifierBinding (source : String) (spec : Tree) : Option Binding := do
  if spec.kind ≠ .importSpecifier then none
  else
    let name ← spec.child? .name
    let imported := nameText src name
    let localName := ((spec.child? .alias').map (·.text src)).getD imported
    some ⟨localName, source, imported, .import'⟩

def clauseBindings (source : String) (part : Tree) : List Binding :=
  match part.kind with
  | .identifier => [⟨part.text src, source, Binding.defaultExport, .import'⟩]
  | .namespaceImport =>
    match part.namedChildren.find? (·.kind = .identifier) with
    | some l => [⟨l.text src, source, Binding.wholeModule, .import'⟩]
    | none => []
  | .namedImports => part.namedChildren.filterMap (specifierBinding src source)
  | _ => []

def importBindings (t : Tree) : List Binding :=
  match t.child? .source, t.namedChildren.find? (·.kind = .importClause) with
  | some s, some clause => clause.namedChildren.flatMap (clauseBindings src (s.inside src))
  | _, _ => []

-- What one part of a destructured module binds. A key counts as it is spelled.
def patternBinding (source : String) (part : Tree) : Option Binding :=
  match part.kind with
  | .shorthandPattern => some ⟨part.text src, source, part.text src, .require⟩
  | .pairPattern => do
    let key ← part.child? .key
    let value ← part.child? .value
    if value.kind = .identifier then some ⟨value.text src, source, key.text src, .require⟩ else none
  | _ => none

def targetBindings (source : String) (target : Tree) : List Binding :=
  match target.kind with
  | .identifier => [⟨target.text src, source, Binding.wholeModule, .require⟩]
  | .objectPattern => target.namedChildren.filterMap (patternBinding src source)
  | _ => []

def requiredModule? (call : Tree) : Option String := do
  if call.kind ≠ .call then none
  else
    let callee ← call.child? .callee
    let args ← call.child? .arguments
    let first ← args.namedChildren.head?
    if callee.kind = .identifier ∧ callee.text src = "require" ∧ args.kind = .arguments ∧
        first.kind = .string then
      some (first.inside src)
    else none

def requireBindings (t : Tree) : List Binding :=
  match t.child? .name, (t.child? .value).bind (requiredModule? src) with
  | some target, some source => targetBindings src source target
  | _, _ => []

def bindingsOf (t : Tree) : List Binding :=
  match t.kind with
  | .importStatement => importBindings src t
  | .declarator => requireBindings src t
  | _ => []

def declaredName? (t : Tree) : Option String := do
  let name ← t.child? .name
  match t.kind with
  | .declarator | .functionDeclaration => if name.kind = .identifier then some (name.text src) else none
  | .classDeclaration => some (name.text src)
  | _ => none

def declaredTemplate? (t : Tree) : Option (String × TaggedTemplate) :=
  match Item.ofTree src t with
  | .declarator (some name) (some value) => (TaggedTemplate.ofTree? src value).map (name, ·)
  | _ => none

def ofTree (root : Tree) : Scope :=
  let nodes := root.recognized
  let bound := (nodes.flatMap (bindingsOf src)).foldl bind {}
  { bound with
    declared := nodes.filterMap (declaredName? src)
    templates := (nodes.filterMap (declaredTemplate? src)).mergeSort fun a b => a.2.start ≤ b.2.start }

end Scope

def Parsed.scope (p : Parsed) : Scope :=
  Scope.ofTree p.source p.root

end QueryGlean
