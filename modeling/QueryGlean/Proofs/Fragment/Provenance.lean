import QueryGlean.Proofs.Fragment.Name
import QueryGlean.Proofs.Query.Extract
import QueryGlean.Proofs.Source.Bytes

namespace QueryGlean

open Graphql

def backtick : UInt8 := 0x60

-- What a syntax tree promises of the text of its nodes:
-- 1. a template stands between two backticks
-- 2. a call ends with what is handed to it
structure Tree.IsQuoted (src : Source) (t : Tree) : Prop where
  template  : t.kind = .template → t.start + 1 < t.stop ∧ src.slice t.start (t.start + 1) = "\x60" ∧
    src.slice (t.stop - 1) t.stop = "\x60"
  arguments : t.kind = .call → ∀ a, t.child? .arguments = some a → a.stop = t.stop

-- What a fragment tells of the template and the definition that it is made of.
structure Fragment.ComesFrom (g : Fragment) (src : Source) (T : TaggedTemplate) (d : Placed) : Prop where
  key     : ∀ s e : Int, g.locationKey = QueryGlean.locationKey s e ↔ src.byteOffset T.node.start = s ∧ d.start = e
  bytes   : backtick :: g.sourceText.toUTF8.data.toList ++ [backtick] <:+
    src.bytesBetween (src.byteOffset T.node.start) (src.byteOffset T.node.stop)
  line    : g.line = 1 + (src.bytes.take (src.byteOffset T.node.start)).count lineFeed
  column  : g.column =
    1 + ((src.bytes.take (src.byteOffset T.node.start)).reverse.takeWhile (· ≠ lineFeed)).length
  inside  : d.start < g.sourceText.length
  alone   : ∃ ds, parse g.sourceText = .ok ds ∧ ds.filter (·.start = d.start) = [d]
  named   : ∀ n, d.definition.name? = some n → g.name = n ∧ g.definition = d.definition
  unnamed : d.definition.name? = none → d.definition.named? g.name = some g.definition

variable {settings : Settings} {m : Matcher} {src : Source} {root : Tree} {path : String}
variable {T : TaggedTemplate} {f : Find} {q : Query} {d : Placed} {ds : List Placed} {g : Fragment}

theorem Tree.IsQuoted.slice_eq {t : Tree} (h : t.IsQuoted src) (hk : t.kind = .template) :
    src.slice t.start t.stop = "\x60" ++ t.inside src ++ "\x60" := by
  have ⟨hl, ho, hc⟩ := h.template hk
  calc
    src.slice t.start t.stop = src.slice t.start (t.start + 1) ++ src.slice (t.start + 1) t.stop :=
      (Source.slice_append_slice (by omega) (by omega)).symm
    _ = src.slice t.start (t.start + 1) ++ (t.inside src ++ src.slice (t.stop - 1) t.stop) := by
      rw [inside, Source.slice_append_slice (i := t.start + 1) (by omega) (by omega)]
    _ = "\x60" ++ t.inside src ++ "\x60" := by rw [ho, hc, String.append_assoc]

theorem TaggedTemplate.span (hT : ofTree? src T.node = some T) (hp : T.node.IsPlaced)
    (hq : ∀ t, T.node.Contains t → t.IsQuoted src) :
    T.node.start ≤ T.template.start ∧ T.template.start + 1 < T.template.stop ∧ T.template.stop = T.node.stop := by
  have ha := (child?_node hT).right
  have hm := Tree.mem_children_of_child? ha
  have ⟨hs, _⟩ := hp.wellPlaced.inside _ hm
  have ⟨hl, _⟩ := (hq _ (.of_mem_children hm)).template (kind_template hT)
  exact ⟨hs, hl, (hq _ (.refl _)).arguments (kind_node hT) _ ha⟩

theorem TaggedTemplate.exists_slice_eq (hT : ofTree? src T.node = some T) (hp : T.node.IsPlaced)
    (hq : ∀ t, T.node.Contains t → t.IsQuoted src) :
    ∃ tag, src.slice T.node.start T.node.stop = tag ++ ("\x60" ++ T.rawText src ++ "\x60") := by
  have ⟨hs, hl, he⟩ := span hT hp hq
  have ht := hq T.template (.of_mem_children (Tree.mem_children_of_child? (child?_node hT).right))
  refine ⟨src.slice T.node.start T.template.start, ?_⟩
  rw [rawText, ← ht.slice_eq (kind_template hT), ← he, Source.slice_append_slice hs (by omega)]

theorem TaggedTemplate.suffix_bytesBetween (hT : ofTree? src T.node = some T) (hp : T.node.IsPlaced)
    (hq : ∀ t, T.node.Contains t → t.IsQuoted src) :
    backtick :: (T.rawText src).toUTF8.data.toList ++ [backtick] <:+
      src.bytesBetween (src.byteOffset T.node.start) (src.byteOffset T.node.stop) := by
  have ⟨tag, ht⟩ := exists_slice_eq hT hp hq
  have ⟨_, _, _⟩ := span hT hp hq
  refine ⟨utf8 tag.toList, ?_⟩
  rw [Source.bytesBetween_byteOffset (by omega), ht, ← utf8_toList]
  simp only [String.toList_append, utf8_append]
  rfl

namespace Graphql

theorem filter_start_eq {text : String} (h : parse text = .ok ds) (hd : d ∈ ds) :
    ds.filter (·.start = d.start) = [d] := by
  have ⟨as, bs, he⟩ := List.append_of_mem hd
  have ⟨_, hb, ha⟩ := List.pairwise_append.mp (he ▸ pairwise_start_of_parse h)
  have before : as.filter (·.start = d.start) = [] := List.filter_eq_nil_iff.mpr fun e hm => by
    simpa using Nat.ne_of_lt (ha e hm d List.mem_cons_self)
  have behind : bs.filter (·.start = d.start) = [] := List.filter_eq_nil_iff.mpr fun e hm => by
    simpa using Nat.ne_of_gt ((List.pairwise_cons.mp hb).left e hm)
  rw [he, List.filter_append, before, List.filter_cons_of_pos (by simp), behind, List.nil_append]

end Graphql

namespace Matcher

theorem rawText_of_extract (h : m.extract src path T = .ok q) : q.rawText = T.rawText src := by
  have hq : m.extract src path T = _ := extract_of_parse (parse_of_extract h)
  rw [h] at hq
  split at hq
  case isTrue  => cases hq
  case isFalse => rw [Except.ok.inj hq]

theorem Makes.comesFrom (h : m.Makes src path f d g)
    (hT : TaggedTemplate.ofTree? src f.template.node = some f.template) (hp : f.template.node.IsPlaced)
    (hq : ∀ t, f.template.node.Contains t → t.IsQuoted src) : g.ComesFrom src f.template d := by
  have ⟨q, hx, hd, hf⟩ := h
  have hds := parse_of_extract hx
  have ⟨⟨n, e⟩, hn, _, hg⟩ := Find.fragment_eq_ok_iff.mp hf
  have ht : g.sourceText = f.template.rawText src := by rw [hg, rawText_of_extract hx]
  constructor
  case key     => exact fun s e => h.locationKey_eq ▸ locationKey_eq_iff
  case bytes   => exact ht ▸ TaggedTemplate.suffix_bytesBetween hT hp hq
  case line    => rw [hg]; exact congrArg Nat.cast (src.line_eq _)
  case column  => rw [hg]; exact congrArg Nat.cast (src.column_eq _)
  case inside  => exact ht ▸ start_lt_length_of_parse hds hd
  case alone   => exact ⟨q.definitions, ht ▸ hds, filter_start_eq hds hd⟩
  case named   =>
    intro n' hn'
    simp only [QueryGlean.named, hn'] at hn
    cases hn
    rw [hg]
    exact ⟨rfl, rfl⟩
  case unnamed => exact fun hn' => (h.of_anonymous hn').right.right

end Matcher

theorem Fragment.ofTree_provenance {fs : List Fragment} (hr : root.IsTreeOf src)
    (hq : ∀ t, root.Contains t → t.IsQuoted src) (h : (ofTree settings path src root).1 = .ok fs) :
    ∀ g ∈ fs, ∃ k T d, .found ⟨k, T⟩ ∈ (Matcher.ofTree settings src root).locate src root ∧ g.ComesFrom src T d := by
  have ⟨gs, hn, hd⟩ := Outcome.ok_of_map h
  subst hd
  intro g hg
  have hg := List.mem_of_find?_eq_some <| mem_dedupe.mp hg
  have ⟨⟨k, T⟩, hf, d, hm⟩ := (Matcher.mem_normalizeAll hn).mp hg
  have hf := Matcher.mem_filterMap_find?.mp hf
  have ⟨hs, hT⟩ := Matcher.found_mem_locate.mp hf
  exact ⟨k, T, d, hf, hm.comesFrom hs.template (hr.placed.of_contains hT.contains)
    fun t ht => hq t (hT.contains.trans ht)⟩

def Source.accentedQueries : Source :=
  .ofString "//é\nexport const q = graphql\x60#é\n\x7ba\x7dquery Q\x7bb\x7d\x60"

def Tree.accentedQueries : Tree :=
  .node .exportStatement none 4 46 [
    .leaf .mark 4 10,
    .node .phrase none 11 46 [
      .leaf .mark 11 16,
      .node .declarator none 17 46 [
        .node .identifier (some .name) 17 18 [],
        .leaf .mark 19 20,
        .withRole .value (TaggedTemplate.spanning 21 46).node]]]

theorem Tree.isTreeOf_accentedQueries : accentedQueries.IsTreeOf .accentedQueries where
  placed := by
    simp only [accentedQueries, TaggedTemplate.spanning, withRole, leaf, isPlaced_node, List.mem_cons,
      forall_eq_or_imp, List.not_mem_nil, false_implies, implies_true, and_true, or_false, forall_eq]
    and_intros
    all_goals constructor <;> simp [kind, start, stop, children, child?, role]
  stop_le := by decide

theorem Tree.isQuoted_accentedQueries : ∀ t, accentedQueries.Contains t → t.IsQuoted .accentedQueries := by
  simp only [accentedQueries, TaggedTemplate.spanning, withRole, leaf, forall_contains_node, List.mem_cons,
    forall_eq_or_imp, List.not_mem_nil, false_implies, implies_true, and_true, or_false, forall_eq]
  and_intros
  all_goals constructor <;> simp [kind, start, stop, children, child?, role]
  decide +kernel

theorem Fragment.ofTree_provenance_of_accentedQueries :
    ∃ f g T d, (Fragment.ofTree {} "p.js" .accentedQueries .accentedQueries).1 = .ok [f, g] ∧
      (f.locationKey, g.locationKey) = ("22-3", "22-6") ∧ g.ComesFrom .accentedQueries T d ∧
      Source.accentedQueries.byteOffset T.node.start = 22 ∧ d.start = 6 := by
  have hk : (Fragment.ofTree {} "p.js" .accentedQueries .accentedQueries).1.toOption.map (·.map (·.locationKey)) =
      some ["22-3", "22-6"] := by decide +kernel
  cases h : (Fragment.ofTree {} "p.js" .accentedQueries .accentedQueries).1
  case error => simp [h, Except.toOption] at hk
  case ok fs =>
    simp only [h, Except.toOption, Option.map_some, Option.some.injEq, List.map_eq_cons_iff, List.map_eq_nil_iff] at hk
    obtain ⟨f, _, hf, hk, g, _, hg, hk', hn⟩ := hk
    subst hf hg hn
    obtain ⟨_, T, d, _, hc⟩ := Fragment.ofTree_provenance Tree.isTreeOf_accentedQueries Tree.isQuoted_accentedQueries h g
      (by simp)
    obtain ⟨hs, hd⟩ := (hc.key 22 6).mp hk'
    exact ⟨f, g, T, d, rfl, by rw [hk, hk'], hc, by exact_mod_cast hs, by exact_mod_cast hd⟩

end QueryGlean
