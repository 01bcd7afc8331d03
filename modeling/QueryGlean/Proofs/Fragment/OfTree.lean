import QueryGlean.Proofs.Fragment.Dedupe
import QueryGlean.Proofs.Fragment.LocationKey
import QueryGlean.Proofs.Fragment.Normalize
import QueryGlean.Proofs.Graphql.Offsets
import QueryGlean.Proofs.Query.Extract
import QueryGlean.Proofs.Query.Starts

namespace QueryGlean

namespace Graphql

theorem eq_of_start_eq {text : String} {ds : List Placed} {d₁ d₂ : Placed} (h : parse text = .ok ds)
    (h₁ : d₁ ∈ ds) (h₂ : d₂ ∈ ds) (hs : d₁.start = d₂.start) : d₁ = d₂ := by
  have hp := pairwise_start_of_parse h
  have hl : ds.Pairwise fun d e => d.start = e.start → d = e :=
    hp.imp fun hlt he => absurd he (Nat.ne_of_lt hlt)
  have hr : ds.Pairwise fun d e => e.start = d.start → e = d :=
    hp.imp fun hlt he => absurd he (Nat.ne_of_gt hlt)
  exact hl.forall_of_forall_of_flip (fun _ _ _ => rfl) hr h₁ h₂ hs

end Graphql

def TaggedTemplate.key (src : Source) (T : TaggedTemplate) (d : Graphql.Placed) : String :=
  locationKey (src.byteOffset T.start) d.start

namespace Matcher

-- The first pass that finds a template.
structure FoundFirst (m : Matcher) (src : Source) (root : Tree) (k : FragmentKind) (T : TaggedTemplate) :
    Prop where
  found : .found ⟨k, T⟩ ∈ m.locate src root
  first : ∀ k', .found ⟨k', T⟩ ∈ m.locate src root → k.pass ≤ k'.pass

def Makes (m : Matcher) (src : Source) (path : String) (f : Find) (d : Graphql.Placed) (g : Fragment) :
    Prop :=
  ∃ q, m.extract src path f.template = .ok q ∧ d ∈ q.definitions ∧ f.fragment src path q d = .ok g

variable {settings : Settings} {m : Matcher} {src : Source} {root : Tree} {path : String}
variable {k k₁ k₂ : FragmentKind} {T T₁ T₂ : TaggedTemplate} {d d₁ d₂ : Graphql.Placed} {f : Find}
variable {warned : List Nat} {ds₁ ds₂ : List Graphql.Placed} {q : Query} {g : Fragment}
variable {fs : List Find} {gs : List Fragment}

theorem exists_foundFirst (h : .found ⟨k, T⟩ ∈ m.locate src root) : ∃ k₀, m.FoundFirst src root k₀ T := by
  by_cases hc : .found ⟨.componentQuery, T⟩ ∈ m.locate src root
  case pos => exact ⟨_, hc, fun _ _ => Nat.zero_le _⟩
  case neg =>
    by_cases hh : .found ⟨.hookQuery, T⟩ ∈ m.locate src root
    case pos => exact ⟨_, hh, fun k' h' => by cases k' <;> simp_all [FragmentKind.pass]⟩
    case neg => exact ⟨k, h, fun k' h' => by cases k <;> cases k' <;> simp_all [FragmentKind.pass]⟩

theorem parse_of_extract (h : m.extract src path T = .ok q) :
    Graphql.parse (T.rawText src) = .ok q.definitions := by
  cases h ▸ m.extracts src path T
  case read hp => exact hp

theorem eq_of_key_eq (hr : root.IsTreeOf src)
    (h₁ : .found ⟨k₁, T₁⟩ ∈ (ofTree settings src root).locate src root)
    (h₂ : .found ⟨k₂, T₂⟩ ∈ (ofTree settings src root).locate src root)
    (hp₁ : Graphql.parse (T₁.rawText src) = .ok ds₁) (hp₂ : Graphql.parse (T₂.rawText src) = .ok ds₂)
    (hd₁ : d₁ ∈ ds₁) (hd₂ : d₂ ∈ ds₂) (hk : T₁.key src d₁ = T₂.key src d₂) : T₁ = T₂ ∧ d₁ = d₂ := by
  have ⟨hs₁, hc₁⟩ := found_mem_locate.mp h₁
  have ⟨hs₂, hc₂⟩ := found_mem_locate.mp h₂
  have ⟨ho, hd⟩ := eq_of_locationKey_eq hk
  have hT : T₁ = T₂ := by
    have start_le {T} (hs : (ofTree settings src root).Sound src T) (hc : root.Contains T.node) :
        T.start ≤ src.size := by
      have h₁ := hs.start_lt_stop (hr.placed.of_contains hc)
      have h₂ := (hr.placed.span_le hc).right
      have h₃ := hr.stop_le
      omega
    have ho : src.byteOffset T₁.start = src.byteOffset T₂.start := by exact_mod_cast ho
    have he := Source.byteOffset_injOn (start_le hs₁ hc₁.contains) (start_le hs₂ hc₂.contains) ho
    exact hs₁.eq_of_start_eq hs₂ hr.placed hc₁.contains hc₂.contains he
  subst hT
  cases Except.ok.inj (hp₁ ▸ hp₂)
  exact ⟨rfl, Graphql.eq_of_start_eq hp₁ hd₁ hd₂ (by exact_mod_cast hd)⟩

namespace Makes

theorem kind_eq (h : m.Makes src path f d g) : g.kind = f.kind :=
  have ⟨_, _, _, hf⟩ := h
  Find.fragment_eq_ok hf |>.left

theorem locationKey_eq (h : m.Makes src path f d g) : g.locationKey = f.template.key src d :=
  have ⟨_, _, _, hf⟩ := h
  Find.fragment_eq_ok hf |>.right

theorem exists_parse (h : m.Makes src path f d g) :
    ∃ ds, Graphql.parse (f.template.rawText src) = .ok ds ∧ d ∈ ds :=
  have ⟨q, hq, hd, _⟩ := h
  ⟨q.definitions, parse_of_extract hq, hd⟩

theorem unique {g₁ g₂ : Fragment} (h₁ : m.Makes src path f d g₁) (h₂ : m.Makes src path f d g₂) :
    g₁ = g₂ := by
  have ⟨q₁, hq₁, _, hf₁⟩ := h₁
  have ⟨q₂, hq₂, _, hf₂⟩ := h₂
  cases Except.ok.inj (hq₁ ▸ hq₂)
  exact Except.ok.inj (hf₁ ▸ hf₂)

end Makes

theorem mem_normalizeAll (h : (m.normalizeAll src path warned fs).1 = .ok gs) :
    g ∈ gs ↔ ∃ f ∈ fs, ∃ d, m.Makes src path f d g := by
  have ⟨hg, hf⟩ := normalizeAll_eq_ok h
  rw [hg, List.mem_flatMap]
  refine exists_congr fun f => and_congr_right fun hm => ?_
  have ⟨q, hq, _⟩ := hf f hm
  rw [(hf f hm).mem_iff hq]
  constructor
  case mp  => exact fun ⟨d, hd, h⟩ => ⟨d, q, hq, hd, h⟩
  case mpr =>
    intro ⟨d, q', hq', hd, h⟩
    cases Except.ok.inj (hq ▸ hq')
    exact ⟨d, hd, h⟩

-- Fragments come in the order of the passes, for that is the order of the finds.
theorem pairwise_pass_normalizeAll (h : (m.normalizeAll src path warned fs).1 = .ok gs)
    (hp : fs.Pairwise (·.kind.pass ≤ ·.kind.pass)) : gs.Pairwise (·.kind.pass ≤ ·.kind.pass) := by
  have ⟨hg, hf⟩ := normalizeAll_eq_ok h
  rw [hg, List.pairwise_flatMap]
  constructor
  case left =>
    intro f hm
    refine List.pairwise_of_forall_mem_list fun g hg g' hg' => Nat.le_of_eq ?_
    rw [(hf f hm).kind_eq hg, (hf f hm).kind_eq hg']
  case right =>
    refine hp.imp_of_mem fun {f f'} hm hm' hl g hg g' hg' => ?_
    rw [(hf f hm).kind_eq hg, (hf f' hm').kind_eq hg']
    exact hl

theorem pass_le_of_find? {p : Fragment → Bool} {g' : Fragment}
    (h : gs.Pairwise (·.kind.pass ≤ ·.kind.pass)) (hf : gs.find? p = some g) (hm : g' ∈ gs)
    (hp : p g') : g.kind.pass ≤ g'.kind.pass := by
  have ⟨_, as, bs, he, hn⟩ := List.find?_eq_some_iff_append.mp hf
  subst he
  cases List.mem_append.mp hm
  case inl hm =>
    have h := hn g' hm
    simp [hp] at h
  case inr hm =>
    have ⟨_, h, _⟩ := List.pairwise_append.mp h
    cases List.mem_cons.mp hm
    case inl he => exact he ▸ Nat.le_refl _
    case inr hm => exact (List.pairwise_cons.mp h).left g' hm

-- The first fragment with a key is made by the first pass that finds the template: later passes only make
-- what is there already, of a later kind.
theorem find?_key_eq (hr : root.IsTreeOf src) (hf : (ofTree settings src root).FoundFirst src root k T)
    (hn : ((ofTree settings src root).normalizeAll src path warned
      ((ofTree settings src root).finds src root)).1 = .ok gs)
    (hg : (ofTree settings src root).Makes src path ⟨k, T⟩ d g) :
    gs.find? (·.locationKey = T.key src d) = some g := by
  have hm := (mem_normalizeAll hn).mpr ⟨_, mem_filterMap_find?.mpr hf.found, d, hg⟩
  have hk := hg.locationKey_eq
  cases h : gs.find? (·.locationKey = T.key src d)
  case none => simpa [hk] using List.find?_eq_none.mp h g hm
  case some g' =>
    have ⟨⟨k', T'⟩, hf', d', hg'⟩ := (mem_normalizeAll hn).mp (List.mem_of_find?_eq_some h)
    have hf' := mem_filterMap_find?.mp hf'
    have ⟨_, hp, hd⟩ := hg.exists_parse
    have ⟨_, hp', hd'⟩ := hg'.exists_parse
    have hk' : g'.locationKey = T.key src d := by simpa using List.find?_some h
    have ⟨hT, he⟩ := eq_of_key_eq hr hf' hf.found hp' hp hd' hd (hg'.locationKey_eq.symm.trans hk')
    subst hT he
    have hs := pairwise_pass_normalizeAll hn pairwise_pass_finds
    have hl := pass_le_of_find? hs h hm (by simpa using hk)
    rw [hg.kind_eq, hg'.kind_eq] at hl
    cases FragmentKind.pass_injective <| Nat.le_antisymm hl (hf.first _ hf')
    rw [hg.unique hg']

theorem exists_only (hr : root.IsTreeOf src) (hf : (ofTree settings src root).FoundFirst src root k T)
    (hn : ((ofTree settings src root).normalizeAll src path warned
      ((ofTree settings src root).finds src root)).1 = .ok gs) :
    ∃ q, (ofTree settings src root).extract src path T = .ok q ∧
      ∀ d ∈ q.definitions, ∃ g, (ofTree settings src root).Makes src path ⟨k, T⟩ d g ∧
        (Fragment.dedupe gs).filter (·.locationKey = T.key src d) = [g] := by
  have hg := (normalizeAll_eq_ok hn).right _ (mem_filterMap_find?.mpr hf.found)
  have ⟨q, hq, _⟩ := hg
  refine ⟨q, hq, fun d hd => ?_⟩
  have ⟨g, h⟩ := hg.exists_fragment hq hd
  have hm : (ofTree settings src root).Makes src path ⟨k, T⟩ d g := ⟨q, hq, hd, h⟩
  exact ⟨g, hm, by rw [Fragment.filter_dedupe, find?_key_eq hr hf hn hm, Option.toList_some]⟩

end Matcher

namespace Fragment

variable {settings : Settings} {src : Source} {root : Tree} {path : String} {fs : List Fragment}

theorem ofTree_exact (hr : root.IsTreeOf src) (h : (ofTree settings path src root).1 = .ok fs) :
    let m := Matcher.ofTree settings src root
    (∀ k T, .found ⟨k, T⟩ ∈ m.locate src root →
      ∃ k₀ ds, m.FoundFirst src root k₀ T ∧ Graphql.parse (T.rawText src) = .ok ds ∧
        ∀ d ∈ ds, ∃ f, m.Makes src path ⟨k₀, T⟩ d f ∧ f.kind = k₀ ∧
          fs.filter (·.locationKey = T.key src d) = [f]) ∧
    (∀ f ∈ fs, ∃ k T d, m.FoundFirst src root k T ∧ m.Makes src path ⟨k, T⟩ d f) ∧
    (fs.map (·.locationKey)).Nodup ∧
    (∀ k₁ k₂ T₁ T₂ ds₁ ds₂, .found ⟨k₁, T₁⟩ ∈ m.locate src root → .found ⟨k₂, T₂⟩ ∈ m.locate src root →
      Graphql.parse (T₁.rawText src) = .ok ds₁ → Graphql.parse (T₂.rawText src) = .ok ds₂ →
      ∀ d₁ ∈ ds₁, ∀ d₂ ∈ ds₂, T₁.key src d₁ = T₂.key src d₂ → T₁ = T₂ ∧ d₁ = d₂) := by
  have ⟨gs, hn, hd⟩ := Outcome.ok_of_map h
  subst hd
  refine ⟨fun k T ht => ?found, fun f hf => ?made, ?keys, ?apart⟩
  case found =>
    have ⟨k₀, hk⟩ := Matcher.exists_foundFirst ht
    have ⟨q, hq, hs⟩ := Matcher.exists_only hr hk hn
    refine ⟨k₀, q.definitions, hk, Matcher.parse_of_extract hq, fun d hd => ?_⟩
    have ⟨f, hf, h⟩ := hs d hd
    exact ⟨f, hf, hf.kind_eq, h⟩
  case made =>
    have hg := List.mem_of_find?_eq_some <| mem_dedupe.mp hf
    have ⟨⟨k, T⟩, ht, d, hm⟩ := (Matcher.mem_normalizeAll hn).mp hg
    have ⟨k₀, hk⟩ := Matcher.exists_foundFirst <| Matcher.mem_filterMap_find?.mp ht
    have ⟨q, hq, hs⟩ := Matcher.exists_only hr hk hn
    have ⟨ds, hp, hd⟩ := hm.exists_parse
    cases Except.ok.inj (hp ▸ Matcher.parse_of_extract hq)
    have ⟨f₀, hf₀, h⟩ := hs d hd
    -- Only one fragment is left with the key, and that is the one of the first pass.
    have he : f ∈ (dedupe gs).filter (·.locationKey = T.key src d) := by
      simpa [hf] using hm.locationKey_eq
    rw [h, List.mem_singleton] at he
    exact ⟨k₀, T, d, hk, he ▸ hf₀⟩
  case keys => exact nodup_locationKey_dedupe gs
  case apart =>
    intro _ _ _ _ _ _ h₁ h₂ hp₁ hp₂ _ hd₁ _ hd₂ hk
    exact Matcher.eq_of_key_eq hr h₁ h₂ hp₁ hp₂ hd₁ hd₂ hk

end Fragment

def Source.exportedQuery : Source :=
  .ofString "export <StaticQuery query=\x7bgraphql\x60query Q\x7ba\x7d\x60\x7d/>"

def Tree.exportedQuery : Tree :=
  .node .exportStatement none 0 49 [
    .leaf .mark 0 6,
    .node .selfClosingElement none 7 49 [
      .node .identifier (some .name) 8 19 [],
      .node .attribute none 20 47 [
        .leaf .word 20 25,
        .node .call none 27 46 [
          .node .identifier (some .callee) 27 34 [],
          .node .template (some .arguments) 34 46 []]]]]

theorem Tree.isTreeOf_exportedQuery : exportedQuery.IsTreeOf .exportedQuery where
  placed := by
    simp only [exportedQuery, leaf, isPlaced_node, List.mem_cons, forall_eq_or_imp, List.not_mem_nil,
      false_implies, implies_true, and_true, or_false, forall_eq]
    and_intros
    all_goals constructor <;> simp [kind, start, stop, children, child?, role]
  stop_le := by decide

theorem Fragment.ofTree_exact_of_exportedQuery :
    let m := Matcher.ofTree {} .exportedQuery .exportedQuery
    (m.finds .exportedQuery .exportedQuery).map (·.kind) = [.componentQuery, .pageQuery] ∧
    ∃ f T d, (Fragment.ofTree {} "p.js" .exportedQuery .exportedQuery).1 = .ok [f] ∧
      m.FoundFirst .exportedQuery .exportedQuery .componentQuery T ∧
      m.Makes .exportedQuery "p.js" ⟨.componentQuery, T⟩ d f := by
  have hk : (Fragment.ofTree {} "p.js" .exportedQuery .exportedQuery).1.toOption.map (·.map (·.kind)) =
      some [.componentQuery] := by decide +kernel
  refine ⟨by decide +kernel, ?_⟩
  cases h : (Fragment.ofTree {} "p.js" .exportedQuery .exportedQuery).1
  case error => simp [h, Except.toOption] at hk
  case ok fs =>
    simp only [h, Except.toOption, Option.map_some, Option.some.injEq, List.map_eq_singleton_iff] at hk
    obtain ⟨f, hf, he⟩ := hk
    subst hf
    obtain ⟨_, hm, _⟩ := Fragment.ofTree_exact Tree.isTreeOf_exportedQuery h
    obtain ⟨k, T, d, ht, hm⟩ := hm f List.mem_cons_self
    cases hm.kind_eq.symm.trans he
    exact ⟨f, T, d, rfl, ht, hm⟩

end QueryGlean
