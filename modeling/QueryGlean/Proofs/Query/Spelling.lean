import QueryGlean.Proofs.Query.Shapes

namespace QueryGlean

namespace Source

def Spells (src : Source) (name : String) : Prop :=
  name.toList <:+: src.chars.toList

variable {src : Source}

theorem spells_slice (start stop : Nat) : src.Spells (src.slice start stop) := by
  simp only [Spells, slice, String.toList_ofList, Array.toList_extract, List.extract_eq_take_drop]
  exact (List.take_prefix _ _).isInfix.trans (List.drop_suffix _ _).isInfix

theorem spells_text (t : Tree) : src.Spells (t.text src) :=
  spells_slice ..

theorem spells_inside (t : Tree) : src.Spells (t.inside src) :=
  spells_slice ..

end Source

namespace Scope

variable {src : Source} {root t : Tree} {source name : String} {b : Binding}

theorem spells_nameText (t : Tree) : src.Spells (nameText src t) := by
  unfold nameText
  split
  · exact Source.spells_inside t
  · exact Source.spells_text t

def Spelled (src : Source) (b : Binding) : Prop :=
  b.imported = Binding.defaultExport ∨ b.imported = Binding.wholeModule ∨ src.Spells b.imported

theorem spelled_of_specifierBinding (h : specifierBinding src source t = some b) : Spelled src b := by
  unfold specifierBinding at h
  split at h
  · simp at h
  · have ⟨name, _, h⟩ := Option.bind_eq_some_iff.mp h
    cases h
    exact .inr <| .inr <| spells_nameText name

theorem spelled_of_mem_clauseBindings (h : b ∈ clauseBindings src source t) : Spelled src b := by
  unfold clauseBindings at h
  split at h
  case _ => exact .inl (by simp_all)
  case _ =>
    split at h
    · exact .inr <| .inl (by simp_all)
    · simp at h
  case _ =>
    have ⟨_, _, h⟩ := List.mem_filterMap.mp h
    exact spelled_of_specifierBinding h
  case _ => simp at h

theorem spelled_of_patternBinding (h : patternBinding src source t = some b) : Spelled src b := by
  unfold patternBinding at h
  split at h
  case _ =>
    cases h
    exact .inr <| .inr <| Source.spells_text t
  case _ =>
    have ⟨key, _, h⟩ := Option.bind_eq_some_iff.mp h
    have ⟨value, _, h⟩ := Option.bind_eq_some_iff.mp h
    split at h
    · cases h
      exact .inr <| .inr <| Source.spells_text key
    · simp at h
  case _ => simp at h

theorem spelled_of_mem_targetBindings (h : b ∈ targetBindings src source t) : Spelled src b := by
  unfold targetBindings at h
  split at h
  case _ => exact .inr <| .inl (by simp_all)
  case _ =>
    have ⟨_, _, h⟩ := List.mem_filterMap.mp h
    exact spelled_of_patternBinding h
  case _ => simp at h

theorem spelled_of_mem_bindingsOf (h : b ∈ bindingsOf src t) : Spelled src b := by
  unfold bindingsOf at h
  split at h
  case _ =>
    unfold importBindings at h
    split at h
    · have ⟨_, _, h⟩ := List.mem_flatMap.mp h
      exact spelled_of_mem_clauseBindings h
    · simp at h
  case _ =>
    unfold requireBindings at h
    split at h
    · exact spelled_of_mem_targetBindings h
    · simp at h
  case _ => simp at h

theorem spelled_of_binding? (h : (ofTree src root).binding? name = some b) : Spelled src b :=
  have ⟨_, _, _, h⟩ := mem_of_binding? h
  spelled_of_mem_bindingsOf h

end Scope

namespace Matcher

variable {settings : Settings} {src : Source} {root : Tree} {T : TaggedTemplate}

theorem spells_of_bindsTo {name imported : String}
    (hd : imported ≠ Binding.defaultExport) (hw : imported ≠ Binding.wholeModule)
    (h : (ofTree settings src root).bindsTo name imported) : src.Spells imported := by
  simp only [bindsTo, Option.any_eq_true, Bool.and_eq_true, decide_eq_true_eq] at h
  have ⟨b, hb, _, hi⟩ := h
  subst hi
  exact Scope.spelled_of_binding? hb |>.resolve_left hd |>.resolve_left hw

-- There are four ways to carry the tag. The tag itself is the name in the first, the name stands in an
-- import or a destructuring in the second, and is the property of the tag in the others.
theorem spells_tagName_of_isQueryTag
    (hd : settings.tagName ≠ Binding.defaultExport) (hw : settings.tagName ≠ Binding.wholeModule)
    (h : (ofTree settings src root).isQueryTag src T) : src.Spells settings.tagName := by
  unfold isQueryTag at h
  split at h
  case _ =>
    cases Bool.or_eq_true_iff.mp h
    case inl h =>
      simp only [isGlobal, Bool.and_eq_true, decide_eq_true_eq] at h
      exact h.left.left.right ▸ Source.spells_text T.tag
    case inr h => exact spells_of_bindsTo hd hw h
  case _ =>
    split at h
    case _ property _ _ =>
      simp only [Bool.and_eq_true, decide_eq_true_eq] at h
      exact h.right ▸ Source.spells_text property
    case _ => simp at h
  case _ => simp at h

theorem finds_eq_nil
    (hd : settings.tagName ≠ Binding.defaultExport) (hw : settings.tagName ≠ Binding.wholeModule)
    (h : ¬src.Spells settings.tagName) : (ofTree settings src root).finds src root = [] := by
  apply List.eq_nil_iff_forall_not_mem.mpr
  intro ⟨k, T⟩ hm
  have ⟨hs, _⟩ := mem_finds.mp hm
  exact h <| spells_tagName_of_isQueryTag hd hw hs.tagged

end Matcher

end QueryGlean
