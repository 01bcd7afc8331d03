import QueryGlean.Proofs.Extraction.Basic
import QueryGlean.Proofs.FileTree

namespace QueryGlean

inductive Action
  | write (path : Path) (bytes : List UInt8)
  | delete (path : Path)
  | extract (path : String)

structure Session where
  files : FileTree
  cache : Cache := {}

structure Call where
  path  : String
  files : FileTree
  cache : Cache

namespace Call

def run (x : Extractor) (c : Call) : Run ExtractionResult :=
  x.extract c.files c.cache c.path

def Reads (c : Call) (text : String) : Prop :=
  c.files.readText (Path.ofString c.path) = .ok text

def request? (x : Extractor) (c : Call) : Option (String × String) :=
  match x.sight c.files c.path with
  | .contents text => some (c.path, text)
  | .settled _ _   => none

end Call

namespace Session

def call? (s : Session) : Action → Option Call
  | .extract path => some ⟨path, s.files, s.cache⟩
  | _             => none

-- A write or a deletion that fails leaves the files as they are.
def step (x : Extractor) (s : Session) : Action → Session
  | .write path bytes => { s with files := (s.files.write path bytes).toOption.getD s.files }
  | .delete path      => { s with files := (s.files.delete path).toOption.getD s.files }
  | .extract path     => { s with cache := (Call.run x ⟨path, s.files, s.cache⟩).cache }

def calls (x : Extractor) (s : Session) : List Action → List Call
  | []      => []
  | a :: as => (s.call? a).toList ++ calls x (s.step x a) as

end Session

def Call.requests (x : Extractor) (cs : List Call) : List (String × String) :=
  cs.filterMap (request? x)

-- Different contents have different keys.
def KeysApart (ps : List (String × String)) : Prop :=
  ∀ p ∈ ps, ∀ q ∈ ps, contentKey p.1 p.2 = contentKey q.1 q.2 → p = q

def Cache.Reflects (x : Extractor) (ps : List (String × String)) (c : Cache) : Prop :=
  ∀ key e, c.find? key = some e ↔ ∃ p ∈ ps, contentKey p.1 p.2 = key ∧ x.Settles p.1 p.2 e

variable {x : Extractor} {files : FileTree} {s : Session} {a : Action} {as : List Action} {cache : Cache}
variable {c c' : Call} {cs earlier later : List Call} {ps qs : List (String × String)} {text : String}
variable {e : CacheEntry} {r : ExtractionResult}

instance : Decidable (KeysApart ps) :=
  inferInstanceAs <| Decidable <| ∀ p ∈ ps, ∀ q ∈ ps, contentKey p.1 p.2 = contentKey q.1 q.2 → p = q

theorem KeysApart.of_subset (h : KeysApart qs) (hs : ps ⊆ qs) : KeysApart ps :=
  fun _ hp _ hq => h _ (hs hp) _ (hs hq)

theorem Call.request?_eq_some_iff {p : String × String} :
    c.request? x = some p ↔ x.sight c.files c.path = .contents p.2 ∧ c.path = p.1 := by
  obtain ⟨path, text⟩ := p
  unfold request?
  split <;> simp_all [and_comm]

theorem Call.request?_of_reads (h : c.Reads text) (ht : occursIn x.settings.tagName.toList text.toList) :
    c.request? x = some (c.path, text) :=
  request?_eq_some_iff.mpr ⟨Extractor.sight_eq_contents_iff.mpr ⟨h, ht⟩, rfl⟩

theorem Call.requests_cons : requests x (c :: cs) = (c.request? x).toList ++ requests x cs := by
  simp only [requests, List.filterMap_cons]
  split <;> simp_all

theorem Cache.Reflects.empty : Cache.Reflects x [] {} := by
  intro key e
  simp [Cache.find?]

theorem Cache.Reflects.congr (h : cache.Reflects x ps) {cache' : Cache}
    (he : cache'.entries = cache.entries) : cache'.Reflects x ps := by
  intro key e
  rw [← h key e, Cache.find?, Cache.find?, he]

-- The entry that a request finds is its own outcome, for no other request has its key.
theorem Cache.Reflects.settles_of_find? {p : String × String} (h : cache.Reflects x ps)
    (hk : KeysApart (ps ++ [p])) (he : cache.find? (contentKey p.1 p.2) = some e) :
    p ∈ ps ∧ x.Settles p.1 p.2 e := by
  have ⟨q, hq, hkq, hs⟩ := (h _ _).mp he
  have hp := hk q (by simp [hq]) p (by simp) hkq
  exact hp ▸ ⟨hq, hs⟩

-- An extraction keeps its own outcome and nothing else.
theorem Cache.Reflects.run (h : c.cache.Reflects x ps) (hk : KeysApart (ps ++ (c.request? x).toList)) :
    (c.run x).cache.Reflects x (ps ++ (c.request? x).toList) := by
  cases hs : x.sight c.files c.path
  case settled r es =>
    have hn : c.request? x = none := by simp [Call.request?, hs]
    simpa [hn] using h.congr (by rw [Call.run, Extractor.extract_of_settled hs])
  case contents text =>
    have hr : c.request? x = some (c.path, text) := by simp [Call.request?, hs]
    rw [hr] at hk ⊢
    cases hf : c.cache.find? (contentKey c.path text)
    case some e =>
      have ⟨hm, _⟩ := h.settles_of_find? hk hf
      have hps : c.cache.Reflects x (ps ++ [(c.path, text)]) := by
        intro key e
        rw [h key e]
        refine exists_congr fun q => and_congr_left fun _ => ⟨List.mem_append_left _, fun hq => ?_⟩
        cases List.mem_append.mp hq
        case inl hq => exact hq
        case inr hq => exact List.mem_singleton.mp hq ▸ hm
      exact hps.congr (by simp [Call.run, Extractor.extract_of_hit hs hf])
    case none =>
      intro key e
      rw [Call.run, Extractor.find?_of_miss hs hf, h key e]
      simp [or_and_right, exists_or, eq_comm (a := key)]

-- The core lemma: each call of a run finds a cache that reflects the requests before it.
theorem reflects_of_calls (h : s.cache.Reflects x ps)
    (hk : KeysApart (ps ++ Call.requests x (s.calls x as)))
    (hc : s.calls x as = earlier ++ c :: later) :
    c.cache.Reflects x (ps ++ Call.requests x earlier) := by
  induction as generalizing s ps earlier
  case nil => simp [Session.calls] at hc
  case cons a as hi =>
    unfold Session.calls at hc hk
    cases a
    case write path bytes => exact hi (s := s.step x (.write path bytes)) h hk hc
    case delete path      => exact hi (s := s.step x (.delete path)) h hk hc
    case extract path =>
      let c₀ : Call := ⟨path, s.files, s.cache⟩
      replace hk : KeysApart (ps ++ Call.requests x (c₀ :: (s.step x (.extract path)).calls x as)) := hk
      rw [Call.requests_cons, ← List.append_assoc] at hk
      have h₀ := h.run (c := c₀) (hk.of_subset <| List.subset_append_left _ _)
      cases earlier
      case nil =>
        have ⟨he, _⟩ := List.cons_eq_cons.mp hc
        simpa [Call.requests, ← he] using h
      case cons c₁ earlier =>
        have ⟨he, hc⟩ := List.cons_eq_cons.mp hc
        have h₁ := hi (s := s.step x (.extract path)) h₀ hk hc
        rwa [Call.requests_cons, ← List.append_assoc, ← he]

namespace Call

theorem result_of_contents (h : c.cache.Reflects x ps) (hk : KeysApart (ps ++ (c.request? x).toList))
    (hs : x.sight c.files c.path = .contents text) :
    (c.run x).result = (x.outcome c.path text).1.map
      (Extractor.answer c.path · (c.cache.find? (contentKey c.path text)).isSome) := by
  have hr : c.request? x = some (c.path, text) := request?_eq_some_iff.mpr ⟨hs, rfl⟩
  cases hf : c.cache.find? (contentKey c.path text)
  case none => exact Extractor.result_of_miss hs hf
  case some e =>
    rw [hr] at hk
    have ⟨_, ho⟩ := h.settles_of_find? hk hf
    rw [run, Extractor.extract_of_hit hs hf, ho.outcome]
    rfl

theorem fresh (h : c.cache.Reflects x ps) (hk : KeysApart (ps ++ (c.request? x).toList)) :
    (c.run x).result.map (fun r => (r.status, r.document)) =
      (x.extract c.files {} c.path).result.map fun r => (r.status, r.document) := by
  cases hs : x.sight c.files c.path
  case settled r es => rw [run, Extractor.extract_of_settled hs, Extractor.extract_of_settled hs]
  case contents text =>
    rw [result_of_contents h hk hs, Extractor.result_of_miss hs rfl]
    cases ho : (x.outcome c.path text).1
    case error => rfl
    case ok e =>
      have hw := Extractor.wellFormed_of_outcome ho
      simp [Except.map, Extractor.answer_status hw, Extractor.answer_document]

theorem settles_of_status (h : c.cache.Reflects x ps) (hk : KeysApart (ps ++ (c.request? x).toList))
    (hr : (c.run x).result = .ok r) (hm : r.status ∈ ExtractionStatus.kept) :
    ∃ p e, c.request? x = some p ∧ x.Settles p.1 p.2 e := by
  cases hs : x.sight c.files c.path
  case settled r' es =>
    rw [run, Extractor.extract_of_settled hs] at hr
    cases hr
    exact absurd hm (Extractor.status_of_sight_eq_settled hs).left
  case contents text =>
    rw [result_of_contents h hk hs] at hr
    have ⟨e, ho, he⟩ := Outcome.ok_of_map hr
    refine ⟨(c.path, text), e, request?_eq_some_iff.mpr ⟨hs, rfl⟩, ho, fun hq => ?_⟩
    rw [← he, Extractor.answer_status (Extractor.wellFormed_of_outcome ho), hq] at hm
    simp [ExtractionStatus.kept] at hm

theorem status_of_settles {p : String × String} (h : c.cache.Reflects x ps)
    (hk : KeysApart (ps ++ (c.request? x).toList)) (hp : c.request? x = some p)
    (hs : x.Settles p.1 p.2 e) : ∃ r, (c.run x).result = .ok r ∧ r.status ∈ ExtractionStatus.kept := by
  have ⟨hc, hpath⟩ := request?_eq_some_iff.mp hp
  refine ⟨_, by rw [result_of_contents h hk hc, hpath, hs.outcome]; rfl, ?_⟩
  rw [Extractor.answer_status (Extractor.wellFormed_of_outcome hs.outcome)]
  exact hs.status_mem_kept

theorem cached_iff (h : c.cache.Reflects x ps) (hk : KeysApart (ps ++ (c.request? x).toList))
    (hr : (c.run x).result = .ok r) :
    r.cached ↔ ∃ p ∈ ps, c.request? x = some p ∧ ∃ e, x.Settles p.1 p.2 e := by
  cases hs : x.sight c.files c.path
  case settled r' es =>
    rw [run, Extractor.extract_of_settled hs] at hr
    cases hr
    simp [request?, hs, (Extractor.status_of_sight_eq_settled hs).right]
  case contents text =>
    have hq : c.request? x = some (c.path, text) := request?_eq_some_iff.mpr ⟨hs, rfl⟩
    rw [result_of_contents h hk hs] at hr
    have ⟨_, _, he⟩ := Outcome.ok_of_map hr
    rw [← he, Extractor.answer_cached, Option.isSome_iff_exists]
    constructor
    case mp =>
      intro ⟨e, hf⟩
      rw [hq] at hk
      have ⟨hm, ho⟩ := h.settles_of_find? (p := (c.path, text)) hk hf
      exact ⟨_, hm, hq, e, ho⟩
    case mpr =>
      intro ⟨p, hp, hpq, e, ho⟩
      have he : p = (c.path, text) := Option.some.inj (hpq.symm.trans hq)
      subst he
      have hf := (h (contentKey c.path text) e).mpr ⟨_, hp, rfl, ho⟩
      exact ⟨e, hf⟩

end Call

-- What a call of a run promises, as seen from the calls before it:
-- 1. its result is that of an extraction without a cache, apart from whether it is cached
-- 2. it is cached if a call for the same contents came to an end that is kept
-- 3. an answer from the cache changes no entry, and tells of the fragments of the entry and nothing else
-- 4. in particular it adds neither a diagnostic nor a failure to any account of events
structure Call.Transparent (x : Extractor) (earlier : List Call) (c : Call) : Prop where
  fresh  : (c.run x).result.map (fun r => (r.status, r.document)) =
    (x.extract c.files {} c.path).result.map fun r => (r.status, r.document)
  cached : ∀ r, (c.run x).result = .ok r → (r.cached ↔
    ∃ c' ∈ earlier, c'.path = c.path ∧ (∃ text, c'.Reads text ∧ c.Reads text) ∧
      ∃ r', (c'.run x).result = .ok r' ∧ r'.status ∈ ExtractionStatus.kept)
  quiet  : ∀ r, (c.run x).result = .ok r → r.cached →
    (c.run x).cache.entries = c.cache.entries ∧
      ∃ text e, c.Reads text ∧ c.cache.find? (contentKey c.path text) = some e ∧
        (c.run x).events = if e.fragments.isEmpty then [] else [.succeeded c.path]
  silent : ∀ r, (c.run x).result = .ok r → r.cached → ∀ sink : Collector,
    (sink.recordAll (c.run x).events).diagnostics = sink.diagnostics ∧
      (sink.recordAll (c.run x).events).failed = sink.failed

theorem Call.mem_requests {p : String × String} : p ∈ requests x cs ↔ ∃ c ∈ cs, c.request? x = some p := by
  simp [requests]

theorem reflects_of_calls_nil (hk : KeysApart (Call.requests x (Session.calls x ⟨files, {}⟩ as)))
    (hc : Session.calls x ⟨files, {}⟩ as = earlier ++ c :: later) :
    c.cache.Reflects x (Call.requests x earlier) ∧
      KeysApart (Call.requests x earlier ++ (c.request? x).toList) := by
  constructor
  case left  => exact reflects_of_calls Cache.Reflects.empty hk hc
  case right =>
    refine hk.of_subset fun p hp => ?_
    rw [hc, Call.mem_requests]
    cases List.mem_append.mp hp
    case inl hp =>
      have ⟨c', hc', hp⟩ := Call.mem_requests.mp hp
      exact ⟨c', List.mem_append_left _ hc', hp⟩
    case inr hp => exact ⟨c, by simp, by simpa using hp⟩

theorem calls_transparent (hk : KeysApart (Call.requests x (Session.calls x ⟨files, {}⟩ as)))
    (hc : Session.calls x ⟨files, {}⟩ as = earlier ++ c :: later) : c.Transparent x earlier := by
  have ⟨h, ha⟩ := reflects_of_calls_nil hk hc
  -- The calls before have calls before them in turn.
  have before {c'} (hm : c' ∈ earlier) :
      ∃ ps, c'.cache.Reflects x ps ∧ KeysApart (ps ++ (c'.request? x).toList) := by
    have ⟨pre, post, he⟩ := List.append_of_mem hm
    have hc' : Session.calls x ⟨files, {}⟩ as = pre ++ c' :: (post ++ c :: later) := by
      rw [hc, he, List.append_assoc, List.cons_append]
    exact ⟨_, reflects_of_calls_nil hk hc'⟩
  have quiet {r} (hr : (c.run x).result = .ok r) (hh : r.cached) :
      ∃ text e, c.Reads text ∧ c.cache.find? (contentKey c.path text) = some e ∧
        c.run x = ⟨.ok (Extractor.answer c.path e true), (c.cache.get (contentKey c.path text)).2,
          Extractor.successOf c.path e⟩ := by
    have ⟨p, hp, hq, e, ho⟩ := (Call.cached_iff h ha hr).mp hh
    have ⟨hs, hpath⟩ := Call.request?_eq_some_iff.mp hq
    have hf := (h (contentKey p.1 p.2) e).mpr ⟨p, hp, rfl, ho⟩
    rw [← hpath] at hf
    exact ⟨p.2, e, (Extractor.sight_eq_contents_iff.mp hs).left, hf, Extractor.extract_of_hit hs hf⟩
  refine ⟨c.fresh h ha, fun r hr => ?cached, fun r hr hh => ?quiet, fun r hr hh sink => ?silent⟩
  case cached =>
    rw [Call.cached_iff h ha hr]
    constructor
    case mp =>
      intro ⟨p, hp, hq, e, ho⟩
      have ⟨c', hm, hq'⟩ := Call.mem_requests.mp hp
      have ⟨ps, h', ha'⟩ := before hm
      have ⟨hs, hpath⟩ := Call.request?_eq_some_iff.mp hq
      have ⟨hs', hpath'⟩ := Call.request?_eq_some_iff.mp hq'
      have hread := (Extractor.sight_eq_contents_iff.mp hs).left
      have hread' := (Extractor.sight_eq_contents_iff.mp hs').left
      exact ⟨c', hm, hpath'.trans hpath.symm, ⟨p.2, hread', hread⟩, Call.status_of_settles h' ha' hq' ho⟩
    case mpr =>
      intro ⟨c', hm, hpath, ⟨text, hread', hread⟩, r', hr', hkept⟩
      have ⟨ps, h', ha'⟩ := before hm
      have ⟨p, e, hq', ho⟩ := Call.settles_of_status h' ha' hr' hkept
      have ⟨hs', hp⟩ := Call.request?_eq_some_iff.mp hq'
      have ⟨ht, hocc⟩ := Extractor.sight_eq_contents_iff.mp hs'
      cases Except.ok.inj (ht.symm.trans hread')
      have hq := Call.request?_of_reads hread hocc
      rw [← hpath, hp] at hq
      exact ⟨p, Call.mem_requests.mpr ⟨c', hm, hq'⟩, hq, e, ho⟩
  case quiet =>
    have ⟨text, e, hread, hf, hx⟩ := quiet hr hh
    rw [hx]
    exact ⟨Cache.entries_get .., text, e, hread, hf, rfl⟩
  case silent =>
    have ⟨_, e, _, _, hx⟩ := quiet hr hh
    rw [hx]
    exact Extractor.recordAll_successOf ..

def Action.tag : List UInt8 :=
  [0x67, 0x72, 0x61, 0x70, 0x68, 0x71, 0x6C]

def Action.reverting : List Action :=
  let path := Path.ofString "a.js"
  [.write path tag, .extract "a.js", .write path (tag ++ tag), .extract "a.js", .write path tag, .extract "a.js"]

def Extractor.failing : Extractor where
  settings      := {}
  preprocessors := [fun _ _ => .error "no such compiler"]

theorem reads_of_resolve {path : String} (place : List String) (bytes : List UInt8)
    (hn : ∀ part ∈ (Path.ofString path).parts, '\x00' ∉ part.toList)
    (hr : (files.resolve (Path.ofString path)).toOption = some (place, .file bytes))
    (hd : (Utf8.decode bytes).toOption = some text)
    (hu : String.ofList (Utf8.unifyLineEnds text.toList) = text) :
    Call.Reads ⟨path, files, cache⟩ text :=
  FileTree.readText_eq_ok_iff.mpr
    ⟨FileTree.hasNul_eq_false hn, _, _, _, Outcome.ok_of_toOption hr, Outcome.ok_of_toOption hd, hu⟩

theorem reads_tag : Call.Reads ⟨"a.js", { entries := [(["a.js"], .file Action.tag)] }, cache⟩ "graphql" := by
  refine reads_of_resolve ["a.js"] Action.tag ?_ ?_ ?_ ?_ <;> decide +kernel

-- The text of a file with one query, and the tree that it is read as.
def pageQuery : String :=
  "export const q = graphql\x60\x7ba\x7d\x60"

def Tree.pageQuery : Tree :=
  .node .phrase none 0 29 [
    .node .exportStatement none 0 29 [
      .leaf .mark 0 6,
      .node .phrase none 7 29 [
        .leaf .mark 7 12,
        .node .declarator none 13 29 [
          .node .identifier (some .name) 13 14 [],
          .leaf .mark 15 16,
          .node .call (some .value) 17 29 [
            .node .identifier (some .callee) 17 24 [],
            .node .template (some .arguments) 24 29 [.leaf .mark 24 25, .leaf .word 25 28, .leaf .mark 28 29]]]]]]

def Extractor.failingOn (text : String) : Extractor where
  settings      := {}
  preprocessors := [fun _ t => if t = text then .error "no such compiler" else .ok .null]

theorem reads_pageQuery {files : FileTree} {cache : Cache}
    (hr : (files.resolve (Path.ofString "a.js")).toOption = some (["a.js"], .file pageQuery.toUTF8.data.toList)) :
    Call.Reads ⟨"a.js", files, cache⟩ pageQuery := by
  refine reads_of_resolve ["a.js"] _ ?_ hr ?_ ?_ <;> decide +kernel

theorem Reading.source_pageQuery {ps : List Preprocessor}
    (ht : parseIn .javascript (.ofString pageQuery) = some .pageQuery)
    (hc : Preprocessor.candidates "a.js" pageQuery ps = .ok []) :
    source ps "a.js" pageQuery = (.ok (some ⟨.javascript, .ofString pageQuery, .pageQuery⟩), []) := by
  have hl : Language.candidates (.ofString "a.js") = [.javascript, .tsx] := by decide +kernel
  exact source_of_parseIn hc hl ht

theorem Extractor.outcome_pageQuery (ht : parseIn .javascript (.ofString pageQuery) = some .pageQuery)
    (hs : x.settings = {}) (hc : Preprocessor.candidates "a.js" pageQuery x.preprocessors = .ok []) :
    ∃ f, (x.outcome "a.js" pageQuery).1 = .ok ⟨[f], .extracted⟩ ∧ f.name = "aJs1175206547" := by
  have hn : (Parsed.fragments ⟨.javascript, .ofString pageQuery, .pageQuery⟩ {} "a.js").1.toOption.map
      (·.map (·.name)) = some ["aJs1175206547"] := by decide +kernel
  obtain ⟨fs, hf, hm⟩ := Option.map_eq_some_iff.mp hn
  obtain ⟨f, rfl, hn⟩ := List.map_eq_singleton_iff.mp hm
  exact ⟨f, outcome_of_fragments (Reading.source_pageQuery ht hc) (hs ▸ Outcome.ok_of_toOption hf), hn⟩

theorem calls_reverting :
    ∃ c₁ c₂ c₃, Session.calls .failing ⟨{}, {}⟩ Action.reverting = [c₁, c₂, c₃] ∧
      (c₁.path = "a.js" ∧ c₁.Reads "graphql") ∧ (c₂.path = "a.js" ∧ c₂.Reads "graphqlgraphql") ∧
      (c₃.path = "a.js" ∧ c₃.Reads "graphql") := by
  refine ⟨_, _, _, rfl, ⟨rfl, reads_of_resolve ["a.js"] Action.tag ?_ ?_ ?_ ?_⟩,
    ⟨rfl, reads_of_resolve ["a.js"] (Action.tag ++ Action.tag) ?_ ?_ ?_ ?_⟩,
    ⟨rfl, reads_of_resolve ["a.js"] Action.tag ?_ ?_ ?_ ?_⟩⟩
  all_goals decide +kernel

theorem calls_transparent_of_reverting :
    ∃ c₁ c₂ c₃ r, Session.calls .failing ⟨{}, {}⟩ Action.reverting = [c₁, c₂, c₃] ∧
      (c₃.run .failing).result = .ok r ∧ r.status = .parseError ∧ r.cached := by
  obtain ⟨c₁, c₂, c₃, hc, h₁, h₂, h₃⟩ := calls_reverting
  have ht : occursIn Extractor.failing.settings.tagName.toList "graphql".toList := by decide
  have ht₂ : occursIn Extractor.failing.settings.tagName.toList "graphqlgraphql".toList := by decide
  have hk : KeysApart (Call.requests .failing [c₁, c₂, c₃]) := by
    rw [Call.requests_cons, Call.requests_cons, Call.requests_cons, Call.request?_of_reads h₁.right ht,
      Call.request?_of_reads h₂.right ht₂, Call.request?_of_reads h₃.right ht, h₁.left, h₂.left, h₃.left]
    decide +kernel
  rw [← hc] at hk
  have t₁ : c₁.Transparent .failing [] := calls_transparent hk hc
  have t₃ : c₃.Transparent .failing [c₁, c₂] := calls_transparent hk hc
  -- Each call for the first text comes to the same failure, cached or not.
  have failed {c earlier} (t : Call.Transparent .failing earlier c) (h : c.path = "a.js" ∧ c.Reads "graphql") :
      ∃ r, (c.run .failing).result = .ok r ∧ r.status = .parseError := by
    have hs := Extractor.sight_eq_contents_iff.mpr ⟨h.right, ht⟩
    have ho : (Extractor.failing.outcome "a.js" "graphql").1 = .ok ⟨[], .parseError⟩ := rfl
    have hf := t.fresh
    rw [Extractor.result_of_miss hs rfl, h.left, ho] at hf
    obtain ⟨r, hr, he⟩ := Outcome.ok_of_map hf
    exact ⟨r, hr, congrArg Prod.fst he⟩
  obtain ⟨r₁, hr₁, hs₁⟩ := failed t₁ h₁
  obtain ⟨r₃, hr₃, hs₃⟩ := failed t₃ h₃
  have hm : r₁.status ∈ ExtractionStatus.kept := by simp [hs₁, ExtractionStatus.kept]
  have hh := (t₃.cached r₃ hr₃).mpr
    ⟨c₁, by simp, h₁.left.trans h₃.left.symm, ⟨_, h₁.right, h₃.right⟩, r₁, hr₁, hm⟩
  exact ⟨c₁, c₂, c₃, r₃, hc, hr₃, hs₃, hh⟩

end QueryGlean
