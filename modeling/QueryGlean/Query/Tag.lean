import QueryGlean.Scope
import QueryGlean.Settings

namespace QueryGlean

structure Matcher where
  settings : Settings
  scope : Scope
deriving Inhabited

namespace Matcher

variable (m : Matcher) (src : Source)

-- The tag is the plain tag name, and the file neither binds nor declares it.
def isGlobal (t : TaggedTemplate) : Bool :=
  let name := t.tag.text src
  t.tag.kind = .identifier && name = m.settings.tagName && !m.scope.isBound name && !m.scope.isDeclared name

def bindsTo (name imported : String) : Bool :=
  (m.scope.binding? name).any fun b => b.source = m.settings.moduleName && b.imported = imported

def isQueryTag (t : TaggedTemplate) : Bool :=
  match t.tag.kind with
  | .identifier => m.isGlobal src t || m.bindsTo (t.tag.text src) m.settings.tagName
  | .member =>
    match t.tag.child? .object, t.tag.child? .property with
    | some object, some property =>
      object.kind = .identifier && m.bindsTo (object.text src) Binding.wholeModule &&
        property.text src = m.settings.tagName
    | _, _ => false
  | _ => false

def referencesModule (name : String) : Bool :=
  (m.scope.binding? name).any fun b => b.kind = .import' && b.source = m.settings.moduleName

end Matcher

end QueryGlean
