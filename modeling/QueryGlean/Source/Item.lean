import QueryGlean.Source.Walk

namespace QueryGlean

inductive Item
  | element (name : Option String)
  | attribute (name : String) (value : Option Tree)
  | taggedTemplate (tag template : Tree)
  | call (callee : Tree)
  | identifier (name : String)
  | declarator (name : Option String) (value : Option Tree)
  | exportDeclaration (isDefault : Bool)
  | other
deriving Repr, Inhabited

namespace Item

def elementName (src : Source) (t : Tree) : Option String := do
  let tag ← if t.kind = .element then t.child? .openingTag else some t
  let name ← tag.child? .name
  if name.kind = .identifier then some (name.text src) else none

-- An attribute is named by its first named child, and its second is its value, even where that is
-- a comment.
def ofTree (src : Source) (t : Tree) : Item :=
  match t.kind with
  | .element | .selfClosingElement => .element (elementName src t)
  | .attribute =>
    match t.namedChildren with
    | [] => .other
    | name :: rest => .attribute (name.text src) rest.head?
  | .call =>
    match t.child? .callee, t.child? .arguments with
    | none, _ => .other
    | some tag, some args => if args.kind = .template then .taggedTemplate tag args else .call tag
    | some callee, none => .call callee
  | .identifier => .identifier (t.text src)
  | .declarator =>
    let name := (t.child? .name).bind fun n => if n.kind = .identifier then some (n.text src) else none
    .declarator name (t.child? .value)
  | .exportStatement => .exportDeclaration (t.children.any (·.kind = .defaultMark))
  | _ => .other

def taggedTemplate? : Item → Option (Tree × Tree)
  | taggedTemplate tag template => some (tag, template)
  | _ => none

def isTaggedTemplate (i : Item) : Bool :=
  i.taggedTemplate?.isSome

end Item

namespace Tree

def isTaggedTemplate (src : Source) (t : Tree) : Bool :=
  (Item.ofTree src t).isTaggedTemplate

end Tree

structure TaggedTemplate where
  node : Tree
  tag : Tree
  template : Tree
deriving Repr, Inhabited

namespace TaggedTemplate

def ofTree? (src : Source) (t : Tree) : Option TaggedTemplate :=
  (Item.ofTree src t).taggedTemplate?.map fun (tag, template) => ⟨t, tag, template⟩

def start (t : TaggedTemplate) : Nat :=
  t.node.start

def hasSubstitutions (t : TaggedTemplate) : Bool :=
  t.template.namedChildren.any (·.kind = .substitution)

def rawText (src : Source) (t : TaggedTemplate) : String :=
  t.template.inside src

end TaggedTemplate

end QueryGlean
