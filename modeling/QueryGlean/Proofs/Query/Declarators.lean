import Mathlib
import QueryGlean.Proofs.Query.Starts

namespace QueryGlean

namespace Tree

-- What a syntax tree promises of declarators and templates:
-- 1. a template has its two marks
-- 2. the name of a declarator stands in front of the value
structure NamesFirst (t : Tree) : Prop where
  template   : t.kind = .template → t.start < t.stop
  declarator : t.kind = .declarator → ∀ n v, t.child? .name = some n → t.child? .value = some v → n.stop ≤ v.start

structure IsOrdered (root : Tree) : Prop where
  placed : root.IsPlaced
  names  : ∀ t, root.Contains t → t.NamesFirst

theorem IsOrdered.of_contains {t u : Tree} (h : t.IsOrdered) (hc : t.Contains u) : u.IsOrdered :=
  ⟨h.placed.of_contains hc, fun s hs => h.names s (hc.trans hs)⟩

theorem isOrdered_node {kind : Kind} {role : Option Role} {start stop : Nat} {children : List Tree} :
    (node kind role start stop children).IsOrdered ↔
      (node kind role start stop children).WellPlaced ∧ (node kind role start stop children).NamesFirst ∧
        ∀ c ∈ children, c.IsOrdered := by
  constructor
  case mp =>
    intro h
    exact ⟨h.placed.wellPlaced, h.names _ (.refl _), fun c hc => h.of_contains (.of_mem_children hc)⟩
  case mpr =>
    intro ⟨hp, hn, hc⟩
    exact ⟨isPlaced_node.mpr ⟨hp, fun c h => (hc c h).placed⟩,
      forall_contains_node.mpr ⟨hn, fun c h => (hc c h).names⟩⟩

theorem preordersUntil_eq_flatMap (stops : Tree → Bool) (ts : List Tree) :
    preordersUntil stops ts = ts.flatMap (preorderUntil stops) := by
  induction ts <;> simp_all [preordersUntil]

theorem walk_eq_cons (t : Tree) : t.walk = t :: t.children.flatMap walk := by
  have h (t : Tree) : t.walk = preorderUntil (fun _ => false) t := walkUntil_eq_preorderUntil _ t
  rw [h, preorderUntil_eq, preordersUntil_eq_flatMap]
  simp [funext h]

end Tree

theorem Item.declarator_eq_iff {src : Source} {d : Tree} {name : Option String} {value : Option Tree} :
    Item.ofTree src d = .declarator name value ↔ d.kind = .declarator ∧ d.child? .value = value ∧
      ((d.child? .name).bind fun n => if n.kind = .identifier then some (n.text src) else none) = name := by
  constructor
  case mp =>
    intro h
    cases Item.isOf h
    case declarator hk hn hv => exact ⟨hk, hv, hn⟩
  case mpr =>
    rintro ⟨hk, hv, hn⟩
    simp only [Item.ofTree, hk, hv, hn]

namespace Scope

variable {src : Source} {root t d n v : Tree} {name : String} {T : TaggedTemplate}
variable {e e₁ e₂ : String × TaggedTemplate} {ms : List (Tree × Tree)}

def captures? (d : Tree) : Option (Tree × Tree) :=
  match d.kind, d.child? .name, d.child? .value with
  | .declarator, some n, some v =>
    if n.kind = .identifier ∧ v.kind = .call ∧ (v.child? .arguments).any (·.kind = .template) then some (n, v)
    else none
  | _, _, _ => none

def held? (src : Source) (m : Tree × Tree) : Option (String × TaggedTemplate) :=
  (TaggedTemplate.ofTree? src m.2).map (m.1.text src, ·)

def listed (src : Source) (ms : List (Tree × Tree)) (name : String) : List TaggedTemplate :=
  (((ms.filterMap (held? src)).mergeSort fun a b => a.2.start ≤ b.2.start).filter (·.1 = name)).map (·.2)

theorem captures?_eq_some_iff :
    captures? d = some (n, v) ↔ d.kind = .declarator ∧ d.child? .name = some n ∧ d.child? .value = some v ∧
      n.kind = .identifier ∧ v.kind = .call ∧ (v.child? .arguments).any (·.kind = .template) := by
  unfold captures?
  split
  case h_1 n' v' hk hn hv => grind
  case h_2 h =>
    exact ⟨nofun, fun ⟨hk, hn, hv, _⟩ => (h _ _ hk hn hv).elim⟩

-- The pattern and the second look find the declarators that a walk meets.
theorem declaredTemplate?_eq_bind (src : Source) (d : Tree) :
    declaredTemplate? src d = (captures? d).bind (held? src) := by
  refine Option.ext fun ⟨name, T⟩ => ?_
  simp only [declaredTemplate?_eq_some_iff, Item.declarator_eq_iff, Option.bind_eq_some_iff]
  constructor
  case mp =>
    intro ⟨⟨hk, hv, n, hn, hi⟩, hT⟩
    split at hi
    case isFalse => cases hi
    case isTrue hni =>
      have ha : (T.node.child? .arguments).any (·.kind = .template) := by
        simp [TaggedTemplate.child?_node hT, TaggedTemplate.kind_template hT]
      exact ⟨(n, T.node), captures?_eq_some_iff.mpr ⟨hk, hn, hv, hni, TaggedTemplate.kind_node hT, ha⟩,
        by simp [held?, hT, Option.some.inj hi]⟩
  case mpr =>
    intro ⟨⟨n, v⟩, hc, he⟩
    have ⟨hk, hn, hv, hi, _⟩ := captures?_eq_some_iff.mp hc
    have ⟨T', hT, he⟩ := Option.map_eq_some_iff.mp he
    cases he
    have ⟨hv', _⟩ := TaggedTemplate.ofTree?_eq_some_iff.mp hT
    exact ⟨⟨hk, hv' ▸ hv, n, hn, if_pos hi⟩, hv' ▸ hT⟩

theorem filterMap_declaredTemplate? (ds : List Tree) :
    ds.filterMap (declaredTemplate? src) = (ds.filterMap captures?).filterMap (held? src) := by
  rw [List.filterMap_filterMap, funext (declaredTemplate?_eq_bind src)]

theorem listed_recognized (src : Source) (root : Tree) (name : String) :
    listed src (root.recognized.filterMap captures?) name = (ofTree src root).templatesFor name := by
  rw [listed, ← filterMap_declaredTemplate?]
  rfl

theorem span_of_declaredTemplate? (h : d.IsOrdered) (he : declaredTemplate? src d = some e) :
    e.2.node ∈ d.children ∧ d.start < e.2.start ∧ e.2.start < e.2.node.stop := by
  obtain ⟨hi, hT⟩ := declaredTemplate?_eq_some_iff.mp he
  obtain ⟨hk, hv, hn⟩ := Item.declarator_eq_iff.mp hi
  obtain ⟨n, hn, hi⟩ := Option.bind_eq_some_iff.mp hn
  have hv' := Tree.mem_children_of_child? hv
  have hn' := Tree.mem_children_of_child? hn
  refine ⟨hv', ?name, ?template⟩
  case name =>
    split at hi
    case isFalse => cases hi
    case isTrue hki =>
      have h₁ := (h.placed.wellPlaced.inside n hn').left
      have h₂ := ((h.of_contains (.of_mem_children hn')).placed.wellPlaced.identifier hki).right
      have h₃ := (h.names d (.refl d)).declarator hk n _ hn hv
      simp only [TaggedTemplate.start]
      omega
  case template =>
    have hp := (h.of_contains (.of_mem_children hv')).placed
    have ht := Tree.mem_children_of_child? (TaggedTemplate.child?_node hT).right
    obtain ⟨h₁, h₂⟩ := hp.wellPlaced.inside _ ht
    have h₃ := (h.names _ (.child hv' (.of_mem_children ht))).template (TaggedTemplate.kind_template hT)
    simp only [TaggedTemplate.start]
    omega

theorem span_of_mem_walk (h : t.IsOrdered) (he : e ∈ t.walk.filterMap (declaredTemplate? src)) :
    t.start < e.2.start ∧ e.2.start < t.stop := by
  have ⟨d, hd, he⟩ := List.mem_filterMap.mp he
  have hd := Tree.mem_walk.mp hd
  have ⟨hv, h₁, h₂⟩ := span_of_declaredTemplate? (h.of_contains hd) he
  have ⟨h₃, h₄⟩ := h.placed.span_le hd
  have h₅ := ((h.placed.of_contains hd).wellPlaced.inside _ hv).right
  omega

-- What lies in the value of a declarator starts behind it, for there it has a name in front of it.
theorem pairwise_start_ne {t : Tree} (h : t.IsOrdered) :
    (t.walk.filterMap (declaredTemplate? src)).Pairwise (·.2.start ≠ ·.2.start) := by
  have below : (t.children.flatMap fun c => c.walk.filterMap (declaredTemplate? src)).Pairwise
      (·.2.start ≠ ·.2.start) := by
    refine List.pairwise_flatMap.mpr ⟨fun c hc => pairwise_start_ne (h.of_contains (.of_mem_children hc)), ?_⟩
    refine h.placed.wellPlaced.apart.imp_of_mem fun {c₁ c₂} h₁ h₂ hl e₁ he₁ e₂ he₂ => ?_
    have := span_of_mem_walk (h.of_contains (.of_mem_children h₁)) he₁
    have := span_of_mem_walk (h.of_contains (.of_mem_children h₂)) he₂
    omega
  rw [Tree.walk_eq_cons, List.filterMap_cons, List.filterMap_flatMap]
  split
  case h_1 => exact below
  case h_2 e he =>
    refine List.pairwise_cons.mpr ⟨fun e' he' => ?_, below⟩
    have ⟨c, hc, he'⟩ := List.mem_flatMap.mp he'
    have ⟨hv, _, h₁⟩ := span_of_declaredTemplate? h he
    have ⟨h₂, h₃⟩ := span_of_mem_walk (h.of_contains (.of_mem_children hc)) he'
    simp only [TaggedTemplate.start] at *
    by_cases hcv : c = e.2.node
    case pos => subst hcv; omega
    case neg =>
      have := h.placed.wellPlaced.stop_le_or_stop_le hc hv hcv
      omega
termination_by t.size
decreasing_by exact Tree.size_lt_of_mem_children hc

def met (src : Source) (root : Tree) (name : String) : List TaggedTemplate :=
  root.walk.filterMap fun d =>
    match Item.ofTree src d with
    | .declarator (some n) (some v) => if n = name then TaggedTemplate.ofTree? src v else none
    | _ => none

theorem met_eq (src : Source) (root : Tree) (name : String) :
    met src root name = ((root.walk.filterMap (declaredTemplate? src)).filter (·.1 = name)).map (·.2) := by
  rw [List.filter_filterMap, List.map_filterMap, met]
  congr 1
  funext d
  unfold declaredTemplate?
  cases Item.ofTree src d
  case declarator n v =>
    cases n <;> cases v
    case some.some n v =>
      by_cases hn : n = name <;> cases hT : TaggedTemplate.ofTree? src v <;> simp [hn, hT, Option.filter]
    all_goals rfl
  all_goals rfl

theorem listed_perm (h : ms.Perm (root.walk.filterMap captures?)) : (listed src ms name).Perm (met src root name) := by
  rw [met_eq, filterMap_declaredTemplate?]
  exact (((List.mergeSort_perm _ _).trans (h.filterMap _)).filter _).map _

theorem pairwise_start_le_listed (ms : List (Tree × Tree)) : (listed src ms name).Pairwise (·.start ≤ ·.start) := by
  have hs : ((ms.filterMap (held? src)).mergeSort fun a b => a.2.start ≤ b.2.start).Pairwise fun a b =>
      decide (a.2.start ≤ b.2.start) :=
    List.pairwise_mergeSort (fun _ _ _ => by simpa using Nat.le_trans) (fun _ _ => by simpa using Nat.le_total _ _) _
  exact List.pairwise_map.mpr ((hs.imp of_decide_eq_true).filter _)

-- Where no two templates start at one place, there is only one order.
theorem pairwise_start_lt_listed (h : root.IsOrdered) (hm : ms.Perm (root.walk.filterMap captures?)) :
    (listed src ms name).Pairwise (·.start < ·.start) := by
  have hn : (met src root name).Pairwise (·.start ≠ ·.start) := by
    rw [met_eq]
    exact List.pairwise_map.mpr ((pairwise_start_ne h).filter _)
  have hl := (listed_perm hm).symm.pairwise hn Ne.symm
  exact ((pairwise_start_le_listed ms).and hl).imp fun h => Nat.lt_of_le_of_ne h.left h.right

def Meets (src : Source) (root : Tree) (name : String) (T : TaggedTemplate) : Prop :=
  ∃ d ∈ root.walk, Item.ofTree src d = .declarator (some name) (some T.node) ∧
    TaggedTemplate.ofTree? src T.node = some T

theorem mem_met : T ∈ met src root name ↔ Meets src root name T := by
  simp [met_eq, declaredTemplate?_eq_some_iff, Meets]

-- The index is a value, which a lookup only reads. That templates come in order takes nothing of the tree, and
-- that they come in one order only takes the spans of its nodes.
theorem templatesFor_exact (src : Source) (root : Tree) (name : String) :
    let ts := (ofTree src root).templatesFor name
    (∀ T, T ∈ ts ↔ Meets src root name T) ∧ ts.Perm (met src root name) ∧ ts.Pairwise (·.start ≤ ·.start) ∧
    ((∀ T, ¬Meets src root name T) → ts = []) ∧
    (root.IsOrdered → ts.Pairwise (·.start < ·.start) ∧
      ∀ ms, ms.Perm (root.walk.filterMap captures?) → listed src ms name = ts) := by
  intro ts
  have hts : listed src (root.recognized.filterMap captures?) name = ts := listed_recognized src root name
  have hr := (Tree.recognized_perm_walk root).filterMap captures?
  have hp : ts.Perm (met src root name) := hts ▸ listed_perm hr
  have hm (T : TaggedTemplate) : T ∈ ts ↔ Meets src root name T := hp.mem_iff.trans mem_met
  have hl (h : root.IsOrdered) : ts.Pairwise (·.start < ·.start) := hts ▸ pairwise_start_lt_listed h hr
  refine ⟨hm, hp, hts ▸ pairwise_start_le_listed _, fun hn => ?empty, fun h => ⟨hl h, fun ms hms => ?order⟩⟩
  case empty => exact List.eq_nil_iff_forall_not_mem.mpr fun T hT => hn T ((hm T).mp hT)
  case order =>
    have asymm (T₁ T₂ : TaggedTemplate) (h₁ : T₁.start < T₂.start) (h₂ : T₂.start < T₁.start) : T₁ = T₂ :=
      absurd h₁ (Nat.lt_asymm h₂)
    exact ((listed_perm hms).trans hp.symm).eq_of_pairwise (fun _ _ _ _ => asymm _ _)
      (pairwise_start_lt_listed h hms) (hl h)

end Scope

def Source.redeclaredQuery : Source :=
  .ofString "const q = graphql\x60\x7ba\x7d\x60; \x7bconst q = graphql\x60\x7bb\x7d\x60\x7d"

def Tree.redeclaredQuery : Tree :=
  let declarator (start : Nat) : Tree :=
    .node .declarator none start (start + 16) [
      .node .identifier (some .name) start (start + 1) [],
      .leaf .mark (start + 2) (start + 3),
      .withRole .value (TaggedTemplate.spanning (start + 4) (start + 16)).node]
  .node .phrase none 0 48 [declarator 6, .node .phrase none 24 48 [declarator 31]]

theorem Tree.isOrdered_redeclaredQuery : redeclaredQuery.IsOrdered := by
  simp only [redeclaredQuery, TaggedTemplate.spanning, withRole, leaf, isOrdered_node, List.mem_cons,
    forall_eq_or_imp, List.not_mem_nil, false_implies, implies_true, and_true, or_false, forall_eq]
  and_intros
  all_goals constructor <;> simp [kind, start, stop, children, child?, role]

theorem Scope.templatesFor_exact_of_redeclaredQuery :
    let ts := (ofTree .redeclaredQuery .redeclaredQuery).templatesFor "q"
    ts.map (·.start) = [10, 35] ∧ ts.Pairwise (·.start < ·.start) ∧
      listed .redeclaredQuery (Tree.redeclaredQuery.walk.filterMap captures?).reverse "q" = ts := by
  obtain ⟨_, _, _, _, h⟩ := templatesFor_exact .redeclaredQuery .redeclaredQuery "q"
  obtain ⟨hs, hm⟩ := h Tree.isOrdered_redeclaredQuery
  exact ⟨by cbv, hs, hm _ (List.reverse_perm _)⟩

end QueryGlean
