import QueryGlean.Query.Tag

namespace QueryGlean

inductive FragmentKind
  | componentQuery
  | hookQuery
  | pageQuery
deriving DecidableEq, Repr, Inhabited

namespace FragmentKind

def name : FragmentKind → String
  | componentQuery => "component_query"
  | hookQuery => "hook_query"
  | pageQuery => "page_query"

def all : List FragmentKind := [componentQuery, hookQuery, pageQuery]

def ofName? (s : String) : Option FragmentKind :=
  all.find? (·.name = s)

theorem ofName?_name (k : FragmentKind) : ofName? k.name = some k := by
  cases k <;> decide

end FragmentKind

structure Find where
  kind : FragmentKind
  template : TaggedTemplate
deriving Inhabited

structure Unresolved where
  name : String
  usage : String
deriving DecidableEq, Repr, Inhabited

inductive Sighting
  | found (find : Find)
  | unresolved (reference : Unresolved)
deriving Inhabited

namespace Sighting

def find? : Sighting → Option Find
  | found f => some f
  | unresolved _ => none

def unresolved? : Sighting → Option Unresolved
  | found _ => none
  | unresolved r => some r

end Sighting

namespace Matcher

variable (m : Matcher) (src : Source)

def resolveName (kind : FragmentKind) (usage name : String) : List Sighting :=
  match (m.scope.templatesFor name).filter (m.isQueryTag src) with
  | [] => [.unresolved ⟨name, usage⟩]
  | ts => ts.map fun t => .found ⟨kind, t⟩

def resolveNode (kind : FragmentKind) (usage : String) (ignored : List String) (t : Tree) : List Sighting :=
  match Item.ofTree src t with
  -- The walk stops at a template, so this is the outermost one on its branch.
  | .taggedTemplate tag template =>
    let found : TaggedTemplate := ⟨t, tag, template⟩
    if m.isQueryTag src found then [.found ⟨kind, found⟩] else []
  | .identifier name => if ignored.contains name then [] else m.resolveName src kind usage name
  | _ => []

-- The templates under a node, and those that the names there are declared as. What is inside a
-- template is not looked at.
def resolve (kind : FragmentKind) (usage : String) (ignored : List String) (t : Tree) : List Sighting :=
  (t.walkUntil (·.isTaggedTemplate src)).flatMap (m.resolveNode src kind usage ignored)

def elementSightings (element : Tree) : List Sighting :=
  element.walk.flatMap fun t =>
    match Item.ofTree src t with
    | .attribute name (some value) =>
      if name = m.settings.queryAttribute then
        m.resolve src .componentQuery s!"<{m.settings.component}>" [m.settings.tagName] value
      else []
    | _ => []

def componentSightings (root : Tree) : List Sighting :=
  root.walk.flatMap fun t =>
    match Item.ofTree src t with
    | .element name => if name = some m.settings.component then m.elementSightings src t else []
    | _ => []

def hookSightings (root : Tree) : List Sighting :=
  let hook := m.settings.hookName
  root.walk.flatMap fun t =>
    match Item.ofTree src t with
    | .call callee =>
      if callee.kind = .identifier ∧ callee.text src = hook ∧ m.referencesModule hook then
        m.resolve src .hookQuery hook [m.settings.tagName, hook] t
      else []
    | _ => []

def pageSightings (root : Tree) : List Sighting :=
  root.walk.flatMap fun t =>
    match Item.ofTree src t with
    | .exportDeclaration false =>
      (t.walk.filterMap (TaggedTemplate.ofTree? src)).filterMap fun inner =>
        if m.isQueryTag src inner then some (.found ⟨.pageQuery, inner⟩) else none
    | _ => []

-- Everything met, component queries first, then hook queries, then page queries.
def locate (root : Tree) : List Sighting :=
  m.componentSightings src root ++ m.hookSightings src root ++ m.pageSightings src root

end Matcher

end QueryGlean
