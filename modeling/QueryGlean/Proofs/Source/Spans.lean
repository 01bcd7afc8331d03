import QueryGlean.Proofs.Source.Paths

namespace QueryGlean

namespace Tree

-- What a syntax tree promises of a node and its children:
-- 1. the spans of the children are in order, apart from each other, and inside the span of the node
-- 2. identifiers are leaves and not empty
-- 3. a call starts with what is called, and the name of a member with the object
structure WellPlaced (t : Tree) : Prop where
  inside     : ∀ c ∈ t.children, t.start ≤ c.start ∧ c.stop ≤ t.stop
  apart      : t.children.Pairwise (·.stop ≤ ·.start)
  identifier : t.kind = .identifier → t.children = [] ∧ t.start < t.stop
  callee     : t.kind = .call → ∀ c, t.child? .callee = some c → t.children.head? = some c
  object     : t.kind = .member → ∀ c, t.child? .object = some c → t.children.head? = some c

def IsPlaced (root : Tree) : Prop :=
  ∀ t, root.Contains t → t.WellPlaced

structure IsTreeOf (src : Source) (root : Tree) : Prop where
  placed  : root.IsPlaced
  stop_le : root.stop ≤ src.size

variable {root s t u c : Tree}

theorem mem_children_of_child? {r : Role} (h : t.child? r = some c) : c ∈ t.children :=
  List.mem_of_find?_eq_some h

theorem WellPlaced.stop_le_or_stop_le (h : t.WellPlaced) (hc : c ∈ t.children) (hu : u ∈ t.children)
    (hn : c ≠ u) : c.stop ≤ u.start ∨ u.stop ≤ c.start := by
  have h₁ : t.children.Pairwise fun x y => x ≠ y → x.stop ≤ y.start ∨ y.stop ≤ x.start :=
    h.apart.imp fun hl _ => .inl hl
  have h₂ : t.children.Pairwise fun x y => y ≠ x → y.stop ≤ x.start ∨ x.stop ≤ y.start :=
    h.apart.imp fun hl _ => .inr hl
  exact h₁.forall_of_forall_of_flip (fun _ _ hn => absurd rfl hn) h₂ hc hu hn

namespace IsPlaced

theorem of_contains (h : s.IsPlaced) (hc : s.Contains t) : t.IsPlaced :=
  fun u hu => h u (hc.trans hu)

theorem wellPlaced (h : t.IsPlaced) : t.WellPlaced :=
  h t (.refl t)

theorem span_le (h : t.IsPlaced) (hu : t.Contains u) : t.start ≤ u.start ∧ u.stop ≤ t.stop := by
  induction hu
  case refl => exact ⟨Nat.le_refl _, Nat.le_refl _⟩
  case child c _ _ hc _ hi =>
    have ⟨h₁, h₂⟩ := h.wellPlaced.inside _ hc
    have ⟨h₃, h₄⟩ := hi (h.of_contains <| .of_mem_children hc)
    exact ⟨Nat.le_trans h₁ h₃, Nat.le_trans h₄ h₂⟩

theorem nested_or_apart (h : root.IsPlaced) (hs : root.Contains s) (ht : root.Contains t) :
    s.Contains t ∨ t.Contains s ∨ s.stop ≤ t.start ∨ t.stop ≤ s.start := by
  induction hs
  case refl => exact .inl ht
  case child a s _ ha has hi =>
    cases ht
    case refl => exact .inr <| .inl <| .child ha has
    case child b _ hb hbt =>
      have hpa := h.of_contains <| .of_mem_children ha
      have hpb := h.of_contains <| .of_mem_children hb
      by_cases he : a = b
      case pos => exact hi hpa (he ▸ hbt)
      case neg =>
        have ⟨h₁, h₂⟩ := hpa.span_le has
        have ⟨h₃, h₄⟩ := hpb.span_le hbt
        cases h.wellPlaced.stop_le_or_stop_le ha hb he
        case inl ho => exact .inr <| .inr <| .inl (by omega)
        case inr ho => exact .inr <| .inr <| .inr (by omega)

-- A node that starts where an ancestor starts cannot be behind the first child, if that is not empty.
theorem head_contains (h : t.IsPlaced) (hh : t.children.head? = some c) (hc : c.start < c.stop)
    (hu : t.Contains u) (hn : u ≠ t) (hs : u.start ≤ t.start) : c.Contains u := by
  cases hu
  case refl => exact absurd rfl hn
  case child d _ hd hdu =>
    obtain ⟨ds, hds⟩ := List.head?_eq_some_iff.mp hh
    have ha := h.wellPlaced.apart
    have hi := h.wellPlaced.inside
    rw [hds] at hd ha hi
    cases List.mem_cons.mp hd
    case inl he => exact he ▸ hdu
    case inr hd =>
      have h₁ := (List.pairwise_cons.mp ha).left d hd
      have h₂ := (hi c List.mem_cons_self).left
      have hpd : d.IsPlaced := h.of_contains <| .of_mem_children <| hds ▸ List.mem_cons_of_mem c hd
      have h₃ := (hpd.span_le hdu).left
      omega

theorem eq_of_identifier (h : t.IsPlaced) (hk : t.kind = .identifier) (hu : t.Contains u) : u = t := by
  cases hu
  case refl => rfl
  case child hc _ => simp [(h.wellPlaced.identifier hk).left] at hc

end IsPlaced

theorem forall_contains_node {P : Tree → Prop} {kind : Kind} {role : Option Role} {start stop : Nat}
    {children : List Tree} :
    (∀ t, (node kind role start stop children).Contains t → P t) ↔
      P (node kind role start stop children) ∧ ∀ c ∈ children, ∀ t, c.Contains t → P t := by
  constructor
  case mp => exact fun h => ⟨h _ (.refl _), fun c hc t ht => h t (.child hc ht)⟩
  case mpr =>
    intro ⟨h, hc⟩ t ht
    cases ht
    case refl => exact h
    case child c _ hm ht => exact hc c hm t ht

theorem isPlaced_node {kind : Kind} {role : Option Role} {start stop : Nat} {children : List Tree} :
    (node kind role start stop children).IsPlaced ↔
      (node kind role start stop children).WellPlaced ∧ ∀ c ∈ children, c.IsPlaced :=
  forall_contains_node

end Tree

namespace Source

variable {src : Source} {i j : Nat}

theorem byteCount_append (cs ds : Array Char) : byteCount (cs ++ ds) = byteCount cs + byteCount ds := by
  have hf (n : Nat) : ds.foldl (fun n c => n + c.utf8Size) n = n + byteCount ds := by
    rw [byteCount, ← Array.foldl_toList, ← Array.foldl_toList]
    induction ds.toList generalizing n
    case nil          => rfl
    case cons d ds hi => rw [List.foldl_cons, List.foldl_cons, hi, hi (0 + d.utf8Size)]; omega
  rw [byteCount, Array.foldl_append, hf]
  rfl

theorem byteCount_pos {cs : Array Char} (h : 0 < cs.size) : 0 < byteCount cs := by
  have ⟨ds, c, hc⟩ := Array.exists_push_of_size_pos h
  have hp := c.utf8Size_pos
  rw [hc, byteCount, Array.foldl_push]
  omega

theorem byteOffset_lt_byteOffset (h : i < j) (hj : j ≤ src.size) :
    src.byteOffset i < src.byteOffset j := by
  have hs : src.before j = src.before i ++ src.chars.extract i j := by
    rw [before, before, Array.extract_append_extract, Nat.min_eq_left (Nat.zero_le i),
      Nat.max_eq_right (Nat.le_of_lt h)]
  have hp : 0 < (src.chars.extract i j).size := by
    simp only [size] at hj
    rw [Array.size_extract]
    omega
  have hb := byteCount_pos hp
  rw [byteOffset, byteOffset, hs, byteCount_append]
  omega

theorem byteOffset_injOn (hi : i ≤ src.size) (hj : j ≤ src.size)
    (h : src.byteOffset i = src.byteOffset j) : i = j := by
  rcases Nat.lt_trichotomy i j with hl | he | hl
  · have := byteOffset_lt_byteOffset hl hj
    omega
  · exact he
  · have := byteOffset_lt_byteOffset hl hi
    omega

end Source

end QueryGlean
