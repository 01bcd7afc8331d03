import QueryGlean.Source.Item

namespace QueryGlean.Item

inductive IsOf (src : Source) (t : Tree) : Item → Prop
  | element {name : Option String} (kind : t.kind = .element ∨ t.kind = .selfClosingElement)
      (tag : elementName src t = name) : IsOf src t (.element name)
  | attribute {n : Tree} {rest : List Tree} {name : String} {value : Option Tree} (kind : t.kind = .attribute)
      (children : t.namedChildren = n :: rest) (text : n.text src = name) (next : rest.head? = value) :
      IsOf src t (.attribute name value)
  | taggedTemplate {tag template : Tree} (kind : t.kind = .call) (callee : t.child? .callee = some tag)
      (arguments : t.child? .arguments = some template) (quoted : template.kind = .template) :
      IsOf src t (.taggedTemplate tag template)
  | call {c : Tree} (kind : t.kind = .call) (callee : t.child? .callee = some c)
      (arguments : ∀ args, t.child? .arguments = some args → args.kind ≠ .template) : IsOf src t (.call c)
  | identifier {name : String} (kind : t.kind = .identifier) (text : t.text src = name) : IsOf src t (.identifier name)
  | declarator {name : Option String} {value : Option Tree} (kind : t.kind = .declarator)
      (target : ((t.child? .name).bind fun n => if n.kind = .identifier then some (n.text src) else none) = name)
      (init : t.child? .value = value) : IsOf src t (.declarator name value)
  | exportDeclaration {isDefault : Bool} (kind : t.kind = .exportStatement)
      (mark : t.children.any (·.kind = .defaultMark) = isDefault) : IsOf src t (.exportDeclaration isDefault)
  | other : IsOf src t .other

theorem isOf_ofTree (src : Source) (t : Tree) : IsOf src t (ofTree src t) := by
  unfold ofTree
  split
  case h_1 hk => exact .element (.inl hk) rfl
  case h_2 hk => exact .element (.inr hk) rfl
  case h_3 hk =>
    split
    case h_1    => exact .other
    case h_2 hc => exact .attribute hk hc rfl rfl
  case h_4 hk =>
    split
    case h_1 => exact .other
    case h_2 ht ha =>
      split
      case isTrue hq  => exact .taggedTemplate hk ht ha hq
      case isFalse hq => exact .call hk ht fun args h => Option.some.inj (ha.symm.trans h) ▸ hq
    case h_3 ht ha => exact .call hk ht fun args h => absurd (h.symm.trans ha) (Option.some_ne_none args)
  case h_5 hk => exact .identifier hk rfl
  case h_6 hk => exact .declarator hk rfl rfl
  case h_7 hk => exact .exportDeclaration hk rfl
  case h_8    => exact .other

theorem isOf {src : Source} {t : Tree} {i : Item} (h : ofTree src t = i) : IsOf src t i :=
  h ▸ isOf_ofTree src t

end QueryGlean.Item
