import QueryGlean.Source.Item

namespace QueryGlean

namespace Tree

-- A node reaches itself. It reaches what its children reach, unless it stops.
inductive Reaches (stops : Tree → Bool) : Tree → Tree → Prop
  | refl (t : Tree) : Reaches stops t t
  | child {t c u : Tree} : stops t = false → c ∈ t.children → Reaches stops c u → Reaches stops t u

def Contains : Tree → Tree → Prop :=
  Reaches fun _ => false

variable {stops : Tree → Bool} {s t u c : Tree}

namespace Contains

theorem refl (t : Tree) : t.Contains t :=
  Reaches.refl t

theorem child (hc : c ∈ t.children) (h : c.Contains u) : t.Contains u :=
  Reaches.child rfl hc h

theorem of_mem_children (hc : c ∈ t.children) : t.Contains c :=
  child hc (refl c)

theorem trans (hs : s.Contains t) (ht : t.Contains u) : s.Contains u := by
  induction hs
  case refl            => exact ht
  case child hc _ hi   => exact child hc (hi ht)

end Contains

theorem Reaches.contains (h : Reaches stops t u) : t.Contains u := by
  induction h
  case refl          => exact Contains.refl _
  case child hc _ hi => exact Contains.child hc hi

theorem size_le_sizes {ts : List Tree} (h : t ∈ ts) : t.size ≤ sizes ts := by
  induction ts
  case nil => simp at h
  case cons s ts hi =>
    simp only [sizes]
    cases List.mem_cons.mp h
    case inl h => subst h; exact Nat.le_add_right ..
    case inr h => exact Nat.le_add_left_of_le (hi h)

theorem size_lt_of_mem_children (h : c ∈ t.children) : c.size < t.size :=
  size_eq t ▸ Nat.lt_succ_of_le (size_le_sizes h)

theorem mem_preordersUntil {ts : List Tree} :
    u ∈ preordersUntil stops ts ↔ ∃ t ∈ ts, u ∈ preorderUntil stops t := by
  induction ts <;> simp_all [preordersUntil]

theorem Reaches.of_mem_preorderUntil {t u : Tree} (h : u ∈ preorderUntil stops t) :
    Reaches stops t u := by
  rw [preorderUntil_eq] at h
  cases List.mem_cons.mp h
  case inl h => exact h ▸ .refl u
  case inr h =>
    split at h
    · simp at h
    case _ hs =>
      have ⟨c, hc, hu⟩ := mem_preordersUntil.mp h
      exact .child (by simpa using hs) hc (of_mem_preorderUntil hu)
termination_by t.size
decreasing_by exact size_lt_of_mem_children hc

theorem Reaches.mem_preorderUntil (h : Reaches stops t u) : u ∈ preorderUntil stops t := by
  induction h
  case refl => simp [preorderUntil_eq]
  case child hs hc _ hi =>
    rw [preorderUntil_eq]
    simp only [hs, Bool.false_eq_true, ↓reduceIte]
    exact List.mem_cons_of_mem _ <| mem_preordersUntil.mpr ⟨_, hc, hi⟩

@[simp]
theorem mem_walkUntil : u ∈ t.walkUntil stops ↔ Reaches stops t u := by
  rw [walkUntil_eq_preorderUntil]
  exact ⟨.of_mem_preorderUntil, Reaches.mem_preorderUntil⟩

@[simp]
theorem mem_walk : u ∈ t.walk ↔ t.Contains u :=
  mem_walkUntil

end Tree

namespace TaggedTemplate

variable {src : Source} {t : Tree} {T : TaggedTemplate}

theorem ofTree?_eq_some_iff :
    ofTree? src t = some T ↔ T.node = t ∧ Item.ofTree src t = .taggedTemplate T.tag T.template := by
  obtain ⟨node, tag, template⟩ := T
  unfold ofTree? Item.taggedTemplate?
  cases Item.ofTree src t <;> simp [eq_comm (a := t)]

end TaggedTemplate

end QueryGlean
