import Mathlib
import QueryGlean.Proofs.Extraction.Breakdown
import QueryGlean.Proofs.Fragment.Normalize
import QueryGlean.Proofs.Query.Warnings

namespace QueryGlean

open Outcome

theorem Outcome.forall₂_of_mapM {ε α β : Type} {f : α → Except ε β} {as : List α} {bs : List β}
    (h : as.mapM f = .ok bs) : List.Forall₂ (fun a b => f a = .ok b) as bs := by
  induction as generalizing bs
  case nil =>
    cases h
    exact .nil
  case cons a as hi =>
    have ⟨b, bs', hb, hbs, he⟩ := ok_of_mapM_cons h
    exact he ▸ .cons hb (hi hbs)

variable {m : Matcher} {src : Source} {path : String} {warned : List Nat} {f : Find} {fs before after : List Find}
variable {e : ExtractionError} {q : Query} {gs : List Fragment} {settings : Settings} {root : Tree}

namespace Matcher

variable (m src path)

def isGlobalFind (f : Find) : Bool :=
  (m.extract src path f.template).toOption.any (·.isGlobal)

def globalPlaces (fs : List Find) : Finset Nat :=
  ((fs.filter (m.isGlobalFind src path)).map (·.template.start)).toFinset

def globalWarnings (n : Nat) : List Diagnostic :=
  List.replicate n (.globalTag path m.settings.tagName m.settings.moduleName)

-- What the finds of a file give together:
-- 1. if none fails, the fragments of each, one for each definition and in the order of the finds
-- 2. if the first to fail is no query, its error alone, and no warning that is due to a later find
-- 3. if the first to fail holds an unfit definition, the error of that, told after the warning for its place
structure AllOrNothing (fs : List Find) : Prop where
  given (h : ∀ f ∈ fs, m.failure? src path f = none) :
    m.normalizeAll src path [] fs =
      (.ok (fs.flatMap (m.given src path)), m.globalWarnings path (m.globalPlaces src path fs).card) ∧
    ∀ f ∈ fs, ∃ q, m.extract src path f.template = .ok q ∧
      List.Forall₂ (fun d g => f.fragment src path q d = .ok g) q.definitions (m.given src path f)
  malformed {before after : List Find} {f : Find} {e : QueryError} (hs : fs = before ++ f :: after)
      (hb : ∀ f ∈ before, m.failure? src path f = none) (he : m.extract src path f.template = .error e) :
    m.normalizeAll src path [] fs =
      (.error (.query e), m.globalWarnings path (m.globalPlaces src path before).card) ∧
    e.path = path ∧ e.offset = src.byteOffset f.template.start
  unfit {before after : List Find} {f : Find} {q : Query} {u : UnfitDefinition} (hs : fs = before ++ f :: after)
      (hb : ∀ f ∈ before, m.failure? src path f = none) (hq : m.extract src path f.template = .ok q)
      (hu : q.definitions.findSome? (·.definition.unfit?) = some u) :
    m.normalizeAll src path [] fs =
      (.error (.unfit u), m.globalWarnings path (m.globalPlaces src path (before ++ [f])).card)

variable {m src path}

theorem globalPlaces_append :
    m.globalPlaces src path (before ++ after) = m.globalPlaces src path before ∪ m.globalPlaces src path after := by
  simp [globalPlaces, List.toFinset_append]

theorem isGlobalFind_of_ok (h : m.extract src path f.template = .ok q) : m.isGlobalFind src path f = q.isGlobal := by
  simp [isGlobalFind, h, Except.toOption]

theorem globalPlaces_of_error {e : QueryError} (h : m.extract src path f.template = .error e) :
    m.globalPlaces src path [f] = ∅ := by
  simp [globalPlaces, isGlobalFind, h, Except.toOption]

theorem globalPlaces_of_ok (h : m.extract src path f.template = .ok q) :
    m.globalPlaces src path [f] = if q.isGlobal then {f.template.start} else ∅ := by
  cases hg : q.isGlobal <;> simp [globalPlaces, isGlobalFind_of_ok h, hg]

-- The warning of a find is the one for its place, unless there was one before.
theorem warnings_normalize (m : Matcher) (src : Source) (path : String) (warned : List Nat) (f : Find) :
    (m.normalize src path warned f).warnings =
        m.globalWarnings path (m.globalPlaces src path [f] \ warned.toFinset).card ∧
      (m.normalize src path warned f).warned.toFinset = warned.toFinset ∪ m.globalPlaces src path [f] := by
  cases hq : m.extract src path f.template
  case error e =>
    simp [normalize, hq, globalPlaces_of_error hq, globalWarnings]
  case ok q =>
    rw [globalPlaces_of_ok hq]
    simp only [normalize, hq]
    by_cases hw : f.template.start ∈ warned
    case pos => cases q.isGlobal <;> simp [hw, globalWarnings]
    case neg =>
      have hs : {f.template.start} \ warned.toFinset = {f.template.start} :=
        Finset.sdiff_eq_self_of_disjoint (by simpa using hw)
      cases q.isGlobal <;> simp [hw, hs, globalWarnings]

theorem globalWarnings_add (k n : Nat) :
    m.globalWarnings path (k + n) = m.globalWarnings path k ++ m.globalWarnings path n :=
  List.replicate_add ..

theorem gives_of_failure?_eq_none (h : m.failure? src path f = none) :
    m.Gives src path f (m.given src path f) := by
  cases hr : (m.normalize src path [] f).result
  case error e =>
    rw [← error?_normalize [], hr] at h
    cases h
  case ok gs =>
    have hg := gives_of_normalize hr
    exact hg.given_eq.symm ▸ hg

theorem Gives.result_normalize (h : m.Gives src path f gs) : (m.normalize src path warned f).result = .ok gs := by
  have ⟨q, hq, hg⟩ := h
  unfold normalize
  rw [hq]
  dsimp only
  split <;> exact hg

theorem normalizeAll_cons_of_ok (h : (m.normalize src path warned f).result = .ok gs) :
    m.normalizeAll src path warned (f :: fs) =
      let rest := m.normalizeAll src path (m.normalize src path warned f).warned fs
      (rest.1.map (gs ++ ·), (m.normalize src path warned f).warnings ++ rest.2) := by
  simp [normalizeAll, h]

theorem normalizeAll_cons_of_error (h : (m.normalize src path warned f).result = .error e) :
    m.normalizeAll src path warned (f :: fs) = (.error e, (m.normalize src path warned f).warnings) := by
  simp [normalizeAll, h]

theorem card_globalPlaces_append (before after : List Find) (warned : Finset Nat) :
    (m.globalPlaces src path (before ++ after) \ warned).card =
      (m.globalPlaces src path before \ warned).card +
        (m.globalPlaces src path after \ (warned ∪ m.globalPlaces src path before)).card := by
  rw [globalPlaces_append, ← Finset.card_union_of_disjoint]
  case _ => exact congrArg Finset.card (by ext; grind)
  case _ => exact Finset.disjoint_left.mpr (by grind)

-- Finds that are in order leave behind their fragments, and warnings for those of their places that had none.
theorem normalizeAll_append (hb : ∀ f ∈ before, m.failure? src path f = none) (warned : List Nat)
    (after : List Find) :
    ∃ warned', warned'.toFinset = warned.toFinset ∪ m.globalPlaces src path before ∧
      m.normalizeAll src path warned (before ++ after) =
        let rest := m.normalizeAll src path warned' after
        (rest.1.map (before.flatMap (m.given src path) ++ ·),
          m.globalWarnings path (m.globalPlaces src path before \ warned.toFinset).card ++ rest.2) := by
  induction before generalizing warned
  case nil =>
    refine ⟨warned, by simp [globalPlaces], ?_⟩
    have he (x : Except ExtractionError (List Fragment)) : x.map (fun gs => gs) = x := by cases x <;> rfl
    simp [globalPlaces, globalWarnings, he]
  case cons f before hi =>
    have ⟨hf, hb⟩ := List.forall_mem_cons.mp hb
    have ⟨hw, hn⟩ := m.warnings_normalize src path warned f
    have ⟨warned', hw', hr⟩ := hi hb (m.normalize src path warned f).warned
    refine ⟨warned', ?_, ?_⟩
    case refine_1 => rw [hw', hn, Finset.union_assoc, ← globalPlaces_append, List.singleton_append]
    case refine_2 =>
      have hc : m.globalPlaces src path (f :: before) = m.globalPlaces src path ([f] ++ before) := rfl
      rw [List.cons_append, normalizeAll_cons_of_ok (gives_of_failure?_eq_none hf).result_normalize, hr, hw, hn, hc,
        card_globalPlaces_append]
      generalize m.normalizeAll src path warned' after = rest
      obtain ⟨result, warnings⟩ := rest
      refine Prod.ext ?fst ?snd
      case fst => cases result <;> simp [Except.map]
      case snd => simp [globalWarnings_add]

theorem normalizeAll_of_error (hb : ∀ f ∈ before, m.failure? src path f = none)
    (hf : m.failure? src path f = some e) :
    m.normalizeAll src path [] (before ++ f :: after) =
      (.error e, m.globalWarnings path (m.globalPlaces src path (before ++ [f])).card) := by
  have ⟨warned, hw, hr⟩ := normalizeAll_append hb [] (f :: after)
  have he : (m.normalize src path warned f).result = .error e :=
    error?_eq_some_iff.mp ((error?_normalize warned).trans hf)
  have ⟨hn, _⟩ := m.warnings_normalize src path warned f
  have hc : (m.globalPlaces src path (before ++ [f])).card = (m.globalPlaces src path before).card +
      (m.globalPlaces src path [f] \ m.globalPlaces src path before).card := by
    simpa using card_globalPlaces_append before [f] ∅
  rw [hr, normalizeAll_cons_of_error he, hn, hw, hc, globalWarnings_add]
  simp [Except.map]

theorem Gives.forall₂ (h : m.Gives src path f gs) :
    ∃ q, m.extract src path f.template = .ok q ∧
      List.Forall₂ (fun d g => f.fragment src path q d = .ok g) q.definitions gs := by
  have ⟨q, hq, hg⟩ := h
  exact ⟨q, hq, forall₂_of_mapM hg⟩

theorem offset_of_extract {e : QueryError} (h : m.extract src path f.template = .error e) :
    e.path = path ∧ e.offset = src.byteOffset f.template.start := by
  cases h ▸ m.extracts src path f.template <;> exact ⟨rfl, rfl⟩

theorem allOrNothing (m : Matcher) (src : Source) (path : String) (fs : List Find) : m.AllOrNothing src path fs := by
  constructor
  case given =>
    intro h
    have ⟨warned, _, hr⟩ := normalizeAll_append h [] []
    constructor
    case left  => simpa [normalizeAll, Except.map] using hr
    case right => exact fun f hf => (gives_of_failure?_eq_none (h f hf)).forall₂
  case malformed =>
    intro before after f e hs hb he
    have hf : m.failure? src path f = some (.query e) := by simp [failure?, he]
    rw [hs, normalizeAll_of_error hb hf, globalPlaces_append, globalPlaces_of_error he, Finset.union_empty]
    exact ⟨rfl, offset_of_extract he⟩
  case unfit =>
    intro before after f q u hs hb hq hu
    have hf : m.failure? src path f = some (.unfit u) := by simp [failure?, hq, hu]
    rw [hs, normalizeAll_of_error hb hf]

theorem exists_ok_ofTree_iff :
    (∃ gs, (Fragment.ofTree settings path src root).1 = .ok gs) ↔
      ∀ f ∈ (ofTree settings src root).finds src root, (ofTree settings src root).failure? src path f = none := by
  rw [← List.findSome?_eq_none_iff, ← error?_normalizeAll []]
  unfold Fragment.ofTree
  dsimp only [finds]
  generalize (normalizeAll _ src path [] _).1 = result
  cases result <;> simp [Except.map, error?]

theorem ofTree_allOrNothing (settings : Settings) (path : String) (src : Source) (root : Tree) :
    let m := ofTree settings src root
    let run := Fragment.ofTree settings path src root
    (∀ fs, m.AllOrNothing src path fs) ∧
    (∃ unknown global, run.2 = unknown ++ global ∧ (∀ d ∈ unknown, d.code = "unknown-query-variable") ∧
      ∀ d ∈ global, d.code = "deprecated-global-tag") ∧
    ((∃ gs, run.1 = .ok gs) ↔ ∀ f ∈ m.finds src root, m.failure? src path f = none) := by
  refine ⟨allOrNothing _ src path, ⟨_, _, rfl, ?_, ?_⟩, exists_ok_ofTree_iff⟩
  case refine_1 => exact List.forall_mem_map.mpr fun r _ => rfl
  case refine_2 => exact fun d hd => eq_globalTag_of_mem_normalizeAll hd ▸ rfl

-- A global template that is met twice, and the definition of a schema behind it.
theorem allOrNothing_of_repeated :
    let src := Source.ofString "graphql\x60\x7ba\x7d\x60 graphql\x60schema\x7bquery:Q\x7d\x60"
    let T₁ := TaggedTemplate.spanning 0 12
    let T₂ := TaggedTemplate.spanning 13 37
    let m := ofTree {} src (.node .phrase none 0 37 [T₁.node, T₂.node])
    let warning := Diagnostic.globalTag "a.js" "graphql" "gatsby"
    (∀ T ∈ [T₁, T₂], ∃ q, m.extract src "a.js" T = .ok q) ∧
    m.normalizeAll src "a.js" [] [⟨.pageQuery, T₁⟩, ⟨.componentQuery, T₁⟩, ⟨.pageQuery, T₂⟩, ⟨.hookQuery, T₁⟩] =
      (.error (.unfit (.unnamable (.schema none [] [⟨.query, "Q"⟩]))), [warning, warning]) := by
  intro src T₁ T₂ m warning
  have r₁ : T₁.rawText src = "\x7ba\x7d" := by decide +kernel
  have r₂ : T₂.rawText src = "schema\x7bquery:Q\x7d" := by decide +kernel
  have p₁ : Graphql.parse (T₁.rawText src) =
      .ok [⟨.operation none .query none [] [] [.field none "a" [] [] none], 0⟩] := by rw [r₁]; cbv
  have p₂ : Graphql.parse (T₂.rawText src) = .ok [⟨.schema none [] [⟨.query, "Q"⟩], 0⟩] := by rw [r₂]; cbv
  have e₁ : m.extract src "a.js" T₁ = _ := extract_of_parse p₁
  have e₂ : m.extract src "a.js" T₂ = _ := extract_of_parse p₂
  rw [if_neg (by decide)] at e₁ e₂
  have g₁ : m.isGlobal src T₁ := by decide +kernel
  have g₂ : m.isGlobal src T₂ := by decide +kernel
  have f₁ (kind : FragmentKind) : m.failure? src "a.js" ⟨kind, T₁⟩ = none := by
    rw [failure?_of_parse (f := ⟨kind, T₁⟩) p₁ rfl]
    rfl
  constructor
  case left => simpa using ⟨⟨_, e₁⟩, ⟨_, e₂⟩⟩
  case right =>
    let before : List Find := [⟨.pageQuery, T₁⟩, ⟨.componentQuery, T₁⟩]
    have h : m.AllOrNothing src "a.js" (before ++ ⟨.pageQuery, T₂⟩ :: [⟨.hookQuery, T₁⟩]) :=
      allOrNothing ..
    have hp : m.globalPlaces src "a.js" (before ++ [⟨.pageQuery, T₂⟩]) = {0, 13} := by
      have i₁ (kind : FragmentKind) := (isGlobalFind_of_ok (f := ⟨kind, T₁⟩) e₁).trans g₁
      have i₂ := (isGlobalFind_of_ok (f := ⟨.pageQuery, T₂⟩) e₂).trans g₂
      simp only [before, globalPlaces, List.cons_append, List.nil_append, List.filter_cons, i₁, i₂, ↓reduceIte,
        List.filter_nil]
      rfl
    have hu := h.unfit rfl (by simp [before, f₁]) e₂ rfl
    rw [hp] at hu
    exact hu

end Matcher

end QueryGlean
