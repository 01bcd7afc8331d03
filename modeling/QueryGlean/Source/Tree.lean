import QueryGlean.Source.Text

namespace QueryGlean

inductive Kind
  | mark
  | defaultMark
  | comment
  | word
  | phrase
  | identifier
  | string
  | template
  | substitution
  | call
  | arguments
  | member
  | declarator
  | functionDeclaration
  | classDeclaration
  | exportStatement
  | importStatement
  | importClause
  | namespaceImport
  | namedImports
  | importSpecifier
  | objectPattern
  | shorthandPattern
  | pairPattern
  | element
  | selfClosingElement
  | openingTag
  | attribute
deriving DecidableEq, Repr, Inhabited, Hashable

def Kind.isNamed : Kind → Bool
  | mark | defaultMark => false
  | _ => true

inductive Role
  | callee
  | arguments
  | object
  | property
  | name
  | alias'
  | source
  | key
  | value
  | openingTag
deriving DecidableEq, Repr, Inhabited, Hashable

-- The children are in source order, punctuation and comments among them.
inductive Tree
  | node (kind : Kind) (role : Option Role) (start stop : Nat) (children : List Tree)
deriving Repr, Inhabited

namespace Tree

def kind : Tree → Kind
  | node k .. => k

def role : Tree → Option Role
  | node _ r .. => r

def start : Tree → Nat
  | node _ _ s .. => s

def stop : Tree → Nat
  | node _ _ _ e _ => e

def children : Tree → List Tree
  | node _ _ _ _ cs => cs

def withRole (r : Role) : Tree → Tree
  | node k _ s e cs => node k (some r) s e cs

def leaf (kind : Kind) (start stop : Nat) : Tree :=
  node kind none start stop []

def text (src : Source) (t : Tree) : String :=
  src.slice t.start t.stop

def isNamed (t : Tree) : Bool :=
  t.kind.isNamed

def namedChildren (t : Tree) : List Tree :=
  t.children.filter isNamed

def child? (t : Tree) (r : Role) : Option Tree :=
  t.children.find? (·.role = some r)

def inside (src : Source) (t : Tree) : String :=
  src.slice (t.start + 1) (t.stop - 1)

end Tree

end QueryGlean
