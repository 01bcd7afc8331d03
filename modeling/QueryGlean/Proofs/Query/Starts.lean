import QueryGlean.Proofs.Query.Shapes
import QueryGlean.Proofs.Source.Item
import QueryGlean.Proofs.Source.Spans

namespace QueryGlean

namespace TaggedTemplate

variable {src : Source} {T : TaggedTemplate}

theorem isOf_node (h : ofTree? src T.node = some T) : Item.IsOf src T.node (.taggedTemplate T.tag T.template) :=
  have ⟨_, hi⟩ := ofTree?_eq_some_iff.mp h
  Item.isOf hi

theorem kind_node (h : ofTree? src T.node = some T) : T.node.kind = .call := by
  cases isOf_node h
  case taggedTemplate hk _ _ _ => exact hk

theorem child?_node (h : ofTree? src T.node = some T) :
    T.node.child? .callee = some T.tag ∧ T.node.child? .arguments = some T.template := by
  cases isOf_node h
  case taggedTemplate _ ht ha _ => exact ⟨ht, ha⟩

theorem kind_template (h : ofTree? src T.node = some T) : T.template.kind = .template := by
  cases isOf_node h
  case taggedTemplate _ _ _ hq => exact hq

end TaggedTemplate

namespace Matcher

variable {settings : Settings} {src : Source} {root v : Tree} {m : Matcher} {ignored : List String}
variable {T T₁ T₂ : TaggedTemplate} {k : FragmentKind}

theorem contains_of_attribute {a : Tree} {name : String}
    (h : Item.ofTree src a = .attribute name (some v)) : a.Contains v := by
  cases Item.isOf h
  case «attribute» n _ _ hc _ hv =>
    have hm : v ∈ a.namedChildren := hc ▸ List.mem_cons_of_mem n (List.mem_of_head? hv)
    exact .of_mem_children (List.mem_filter.mp hm).left

theorem contains_of_declarator {d : Tree} {name : Option String}
    (h : Item.ofTree src d = .declarator name (some v)) : d.Contains v := by
  cases Item.isOf h
  case declarator hv => exact .of_mem_children (Tree.mem_children_of_child? hv)

theorem Offers.contains (h : Offers src root ignored v T) (hv : root.Contains v) :
    root.Contains T.node := by
  cases h
  case inl h => exact hv.trans h.contains
  case inr h =>
    have ⟨_, _, _, _, _, d, hd, hi⟩ := h
    exact hd.trans (contains_of_declarator hi)

theorem HasShape.contains (h : HasShape settings src root k T) : root.Contains T.node := by
  cases k
  case componentQuery =>
    have ⟨e, a, v, he, _, ha, hv, ho⟩ := h
    exact ho.contains <| (he.trans ha).trans (contains_of_attribute hv)
  case hookQuery =>
    have ⟨c, _, _, hc, _, _, _, _, _, _, ho⟩ := h
    exact ho.contains hc
  case pageQuery =>
    have ⟨e, he, _, ht⟩ := h
    exact he.trans ht

namespace Sound

theorem tag_identifier_or_member (h : m.Sound src T) :
    T.tag.kind = .identifier ∨
    T.tag.kind = .member ∧ ∃ o, T.tag.child? .object = some o ∧ o.kind = .identifier := by
  have ht := h.tagged
  unfold isQueryTag at ht
  split at ht
  case h_1 hk => exact .inl hk
  case h_2 hk =>
    split at ht
    case h_1 o p ho _ => exact .inr ⟨hk, o, ho, by simp_all⟩
    case h_2 => contradiction
  case h_3 => contradiction

theorem tag_mem_children (h : m.Sound src T) : T.tag ∈ T.node.children :=
  Tree.mem_children_of_child? (TaggedTemplate.child?_node h.template).left

theorem head?_children (h : m.Sound src T) (hp : T.node.IsPlaced) :
    T.node.children.head? = some T.tag :=
  hp.wellPlaced.callee (TaggedTemplate.kind_node h.template) _ (TaggedTemplate.child?_node h.template).left

theorem tag_start_lt_stop (h : m.Sound src T) (hp : T.node.IsPlaced) : T.tag.start < T.tag.stop := by
  have hpt := hp.of_contains <| .of_mem_children h.tag_mem_children
  cases h.tag_identifier_or_member
  case inl hk => exact (hpt.wellPlaced.identifier hk).right
  case inr hk =>
    have ⟨_, o, ho, hi⟩ := hk
    have hm := Tree.mem_children_of_child? ho
    have hpo := hpt.of_contains <| .of_mem_children hm
    have ⟨h₁, h₂⟩ := hpt.wellPlaced.inside o hm
    have h₃ := (hpo.wellPlaced.identifier hi).right
    omega

-- A call that lies in the tag is not in front: in front are the identifiers that make up the tag.
theorem lt_start_of_tag_contains {t : Tree} (h : m.Sound src T) (hp : T.node.IsPlaced)
    (hk : t.kind = .call) (ht : T.tag.Contains t) : T.tag.start < t.start := by
  have hpt := hp.of_contains <| .of_mem_children h.tag_mem_children
  cases h.tag_identifier_or_member
  case inl hi => simp [hpt.eq_of_identifier hi ht, hi] at hk
  case inr hm =>
    have ⟨hm, o, ho, hi⟩ := hm
    have hpo := hpt.of_contains <| .of_mem_children <| Tree.mem_children_of_child? ho
    have hn : t ≠ T.tag := fun he => by simp [he, hm] at hk
    have hl := (hpo.wellPlaced.identifier hi).right
    have hh := hpt.wellPlaced.object hm o ho
    refine Nat.lt_of_not_le fun hs => ?_
    have he := hpo.eq_of_identifier hi <| hpt.head_contains hh hl ht hn hs
    simp [he, hi] at hk

theorem eq_of_contains (h₁ : m.Sound src T₁) (h₂ : m.Sound src T₂) (hp : T₁.node.IsPlaced)
    (hc : T₁.node.Contains T₂.node) (hs : T₁.start = T₂.start) : T₁ = T₂ := by
  by_cases hn : T₂.node = T₁.node
  case pos =>
    have ht := h₁.template
    rw [← hn, h₂.template] at ht
    injection ht with ht
    exact ht.symm
  case neg =>
    have hl := h₁.tag_start_lt_stop hp
    have ht := hp.head_contains (h₁.head?_children hp) hl hc hn (Nat.le_of_eq hs.symm)
    have hl := h₁.lt_start_of_tag_contains hp (TaggedTemplate.kind_node h₂.template) ht
    have hi := (hp.wellPlaced.inside _ h₁.tag_mem_children).left
    simp only [TaggedTemplate.start] at hs
    omega

theorem start_lt_stop (h : m.Sound src T) (hp : T.node.IsPlaced) : T.start < T.node.stop := by
  have ⟨h₁, h₂⟩ := hp.wellPlaced.inside _ h.tag_mem_children
  have h₃ := h.tag_start_lt_stop hp
  simp only [TaggedTemplate.start]
  omega

theorem eq_of_start_eq (h₁ : m.Sound src T₁) (h₂ : m.Sound src T₂) (hp : root.IsPlaced)
    (hc₁ : root.Contains T₁.node) (hc₂ : root.Contains T₂.node) (hs : T₁.start = T₂.start) : T₁ = T₂ := by
  have hp₁ := hp.of_contains hc₁
  have hp₂ := hp.of_contains hc₂
  have hl₁ := h₁.start_lt_stop hp₁
  have hl₂ := h₂.start_lt_stop hp₂
  rcases hp.nested_or_apart hc₁ hc₂ with hc | hc | ha | ha
  case inl             => exact h₁.eq_of_contains h₂ hp₁ hc hs
  case inr.inl         => exact (h₂.eq_of_contains h₁ hp₂ hc hs.symm).symm
  case inr.inr.inl     => simp only [TaggedTemplate.start] at *; omega
  case inr.inr.inr     => simp only [TaggedTemplate.start] at *; omega

end Sound

end Matcher

end QueryGlean
