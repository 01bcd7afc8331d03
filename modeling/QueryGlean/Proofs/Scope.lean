import QueryGlean.Proofs.Source.Paths
import QueryGlean.Scope

namespace QueryGlean

namespace Tree

mutual

theorem recognized_perm_preorder : ∀ t : Tree, t.recognized.Perm t.preorder
  | node k r s e cs => by
    have hc := recognizedAmong_perm_preorders none cs
    have ht := recognizedAmong_perm_preorders (some (node k r s e cs)) cs
    simp only [preorder, preorderUntil, Bool.false_eq_true, if_false, recognized]
    split
    case isTrue  => exact ht
    case isFalse => exact hc.cons _

-- Wherever the waiting node comes, it comes once.
theorem recognizedAmong_perm_preorders (waiting : Option Tree) :
    ∀ cs : List Tree, (recognizedAmong waiting cs).Perm (waiting.toList ++ preordersUntil (fun _ => false) cs)
  | []      => by simp [recognizedAmong, preordersUntil]
  | c :: cs => by
    have hc := recognized_perm_preorder c
    simp only [recognizedAmong, preordersUntil]
    split
    case isTrue  => exact (hc.append (recognizedAmong_perm_preorders none cs)).append_left _
    case isFalse => exact (hc.append (recognizedAmong_perm_preorders waiting cs)).trans (List.perm_append_comm_assoc ..)

end

theorem recognized_perm_walk (t : Tree) : t.recognized.Perm t.walk :=
  (recognized_perm_preorder t).trans (.of_eq (walkUntil_eq_preorderUntil _ t).symm)

@[simp]
theorem mem_recognized {root t : Tree} : t ∈ root.recognized ↔ root.Contains t :=
  (recognized_perm_walk root).mem_iff.trans mem_walk

end Tree

namespace Item

def Declares (src : Source) (root : Tree) (name : String) (t : TaggedTemplate) : Prop :=
  ∃ d, root.Contains d ∧ Item.ofTree src d = .declarator (some name) (some t.node)

end Item

namespace Scope

variable {src : Source} {root t : Tree} {name : String} {T : TaggedTemplate} {b : Binding}

theorem declaredTemplate?_eq_some_iff :
    declaredTemplate? src t = some (name, T) ↔
      Item.ofTree src t = .declarator (some name) (some T.node) ∧
        TaggedTemplate.ofTree? src T.node = some T := by
  unfold declaredTemplate?
  split
  case _ n v h =>
    simp only [h, Option.map_eq_some_iff, Prod.mk.injEq, Item.declarator.injEq, Option.some.injEq]
    constructor
    case mp =>
      intro ⟨T', hT, hn, he⟩
      subst he
      have ⟨hv, _⟩ := TaggedTemplate.ofTree?_eq_some_iff.mp hT
      exact ⟨⟨hn, hv.symm⟩, hv ▸ hT⟩
    case mpr =>
      intro ⟨⟨hn, hv⟩, hT⟩
      exact ⟨T, hv ▸ hT, hn, rfl⟩
  case _ h => exact ⟨by simp, fun ⟨hd, _⟩ => (h _ _ hd).elim⟩

theorem mem_templatesFor :
    T ∈ (ofTree src root).templatesFor name ↔
      Item.Declares src root name T ∧ TaggedTemplate.ofTree? src T.node = some T := by
  have hd : T ∈ (ofTree src root).templatesFor name ↔
      ∃ d, root.Contains d ∧ declaredTemplate? src d = some (name, T) := by
    simp [templatesFor, ofTree]
  rw [hd]
  simp only [declaredTemplate?_eq_some_iff, Item.Declares]
  exact ⟨fun ⟨d, hc, hd, hT⟩ => ⟨⟨d, hc, hd⟩, hT⟩, fun ⟨⟨d, hc, hd⟩, hT⟩ => ⟨d, hc, hd, hT⟩⟩

theorem mem_bindings_bind {s : Scope} {b' : Binding} (h : b ∈ (s.bind b').bindings) :
    b ∈ s.bindings ∨ b = b' := by
  unfold bind at h
  split at h
  · exact .inl h
  · simpa using h

theorem mem_bindings_foldl_bind {bs : List Binding} {s : Scope} (h : b ∈ (bs.foldl bind s).bindings) :
    b ∈ s.bindings ∨ b ∈ bs := by
  induction bs generalizing s
  case nil => exact .inl h
  case cons b' bs hi =>
    cases hi h
    case inl h =>
      cases mem_bindings_bind h
      case inl h => exact .inl h
      case inr h => exact .inr <| h ▸ List.mem_cons_self
    case inr h => exact .inr <| List.mem_cons_of_mem _ h

theorem mem_bindings_ofTree (h : b ∈ (ofTree src root).bindings) :
    ∃ t, root.Contains t ∧ b ∈ bindingsOf src t := by
  have h := mem_bindings_foldl_bind h
  simpa using h

theorem mem_of_binding? (h : (ofTree src root).binding? name = some b) :
    b.localName = name ∧ ∃ t, root.Contains t ∧ b ∈ bindingsOf src t :=
  ⟨by simpa using List.find?_some h, mem_bindings_ofTree <| List.mem_of_find?_eq_some h⟩

end Scope

end QueryGlean
