import Mathlib
import QueryGlean.Proofs.Extraction.Messages
import QueryGlean.Proofs.Extraction.Sharing

namespace QueryGlean

open Markup (Inert)

-- Files that can be shown, and extractions that add nothing to them:
-- 1. the source of a file is its own text, and the name of the query module is shown as well
-- 2. there are no opening brackets in the paths and in what can be read
structure Extractor.IsPlain (x : Extractor) (files : FileTree) (paths : List String) : Prop where
  alone  : x.preprocessors = []
  module : '[' ∉ x.settings.moduleName.toList
  paths  : ∀ p ∈ paths, '[' ∉ p.toList
  texts  : ∀ p text, files.readText p = .ok text → Graphql.IsPlain text.toList

def CacheEntry.IsPlain (e : CacheEntry) : Prop :=
  ∀ f ∈ e.fragments, '[' ∉ f.name.toList

structure Batch.IsPlain (x : Extractor) (files : FileTree) (paths : List String) (b : Batch) : Prop where
  asked   : b.Asked x fun p => p.1 ∈ paths ∧ x.sight files p.1 = .contents p.2
  paths   : b.callers.map Caller.path = paths
  events  : ∀ d, .reported d ∈ b.events → Inert d.message
  entries : ∀ key e, b.cache.find? key = some e → e.IsPlain
  results : ∀ c ∈ b.callers, ∀ r d, c.stage = .finished (.ok r) → r.document = some d →
    ∀ f ∈ d.definitions, '[' ∉ f.name.toList

variable {x : Extractor} {files : FileTree} {paths : List String} {path text : String} {b b' : Batch} {i : Nat}
variable {e : CacheEntry} {d : Diagnostic} {c : Caller}

theorem CacheEntry.IsPlain.answer {cached : Bool} {doc : Document} (h : e.IsPlain)
    (hd : (Extractor.answer path e cached).document = some doc) : ∀ f ∈ doc.definitions, '[' ∉ f.name.toList := by
  rw [Extractor.answer_document, Document.ofList?_eq_some_iff] at hd
  exact hd ▸ h

namespace Extractor.IsPlain

theorem of_sight (h : x.IsPlain files paths) (hs : x.sight files path = .contents text) :
    Graphql.IsPlain text.toList ∧ '[' ∉ x.settings.tagName.toList := by
  have ⟨hr, ht⟩ := sight_eq_contents_iff.mp hs
  have hp := h.texts _ _ hr
  exact ⟨hp, fun hm => hp.bracket ((occursIn_iff_isInfix.mp ht).subset hm)⟩

theorem inert_of_outcome (h : x.IsPlain files paths) (hp : path ∈ paths) (hs : x.sight files path = .contents text)
    (hd : .reported d ∈ (x.outcome path text).2) : Inert d.message :=
  have ⟨ht, hn⟩ := h.of_sight hs
  Extractor.inert_of_outcome h.alone ht (h.paths _ hp) hn h.module hd

theorem entry (h : x.IsPlain files paths) (hs : x.sight files path = .contents text)
    (he : (x.outcome path text).1 = .ok e) : e.IsPlain :=
  not_mem_name_of_outcome h.alone (h.of_sight hs).left he

end Extractor.IsPlain

theorem Extractor.document_of_sight {r : ExtractionResult} {es : List Event}
    (h : x.sight files path = .settled (.ok r) es) : r.document = none := by
  cases settlesAtSight h <;> rfl

namespace Batch

namespace IsPlain

theorem mem_paths (h : b.IsPlain x files paths) (hc : b.callers[i]? = some c) : c.path ∈ paths :=
  h.paths ▸ List.mem_map_of_mem (List.mem_of_getElem? hc)

theorem events_step (h : b.IsPlain x files paths) (hx : x.IsPlain files paths) (hs : Step x files b b') :
    ∀ d, .reported d ∈ b'.events → Inert d.message := by
  have grown {es : List Event} (hn : ∀ d, .reported d ∈ es → Inert d.message) :
      ∀ d, .reported d ∈ b.events ++ es → Inert d.message :=
    fun d hd => (List.mem_append.mp hd).elim (h.events d) (hn d)
  cases hs
  case settle hc ht   => exact grown fun d => Extractor.inert_of_sight ht (hx.paths _ (h.mem_paths hc))
  case hit            => exact grown fun d hd => absurd hd (Extractor.not_reported_successOf d _ _)
  case receive        => exact grown fun d hd => absurd hd (Extractor.not_reported_successOfOutcome d _ _)
  case run job hj _ =>
    have ⟨hp, ht⟩ := h.asked.jobs _ (List.mem_of_getElem? hj)
    exact grown fun d => hx.inert_of_outcome hp ht
  case extract path text hc =>
    have ⟨hp, ht⟩ := h.asked.extracting _ (List.mem_of_getElem? hc) text rfl
    refine fun d hd => (List.mem_append.mp hd).elim (grown (fun d => hx.inert_of_outcome hp ht) d) fun hd => ?_
    exact absurd hd (Extractor.not_reported_successOfOutcome d _ _)
  all_goals exact h.events

theorem job (h : b.IsPlain x files paths) (hx : x.IsPlain files paths) {job : Job} (hj : job ∈ b.jobs)
    (ho : job.result x = .ok e) : e.IsPlain :=
  hx.entry (h.asked.jobs _ hj).right ho

theorem entries_step (h : b.IsPlain x files paths) (hx : x.IsPlain files paths) (hs : Step x files b b') :
    ∀ key e, b'.cache.find? key = some e → e.IsPlain := by
  intro key e he
  rcases hs.found h.asked.faithful he with he | ⟨path, text, _, hs, _, hw⟩
  case inl => exact h.entries key e he
  case inr => exact hx.entry (h.asked.worked hw).right hs.outcome

theorem results_step (h : b.IsPlain x files paths) (hx : x.IsPlain files paths) (hs : Step x files b b') :
    ∀ c ∈ b'.callers, ∀ r d, c.stage = .finished (.ok r) → r.document = some d →
      ∀ f ∈ d.definitions, '[' ∉ f.name.toList := by
  -- A caller that comes to its end with an outcome is answered what can be shown.
  have finished {i} {path} {o : Except Breakdown CacheEntry} (ho : ∀ e, o = .ok e → e.IsPlain) :
      ∀ c ∈ b.callers.set i ⟨path, .finished (o.map (Extractor.answer path · false))⟩, ∀ r d,
        c.stage = .finished (.ok r) → r.document = some d → ∀ f ∈ d.definitions, '[' ∉ f.name.toList := by
    refine forall_mem_set h.results fun r d hr => ?_
    cases o
    case error => cases hr
    case ok e =>
      cases hr
      exact (ho e rfl).answer
  cases hs
  case run  => exact h.results
  case land => exact h.results
  case settle ht =>
    refine forall_mem_set h.results fun r d hr hd => ?_
    cases hr
    simp [Extractor.document_of_sight ht] at hd
  case hit he =>
    refine forall_mem_set h.results fun r d hr => ?_
    cases hr
    exact (h.entries _ _ he).answer
  case receive hj ho =>
    exact finished fun e he => h.job hx (List.mem_of_getElem? hj) (he ▸ (h.asked.faithful.outcome hj ho).symm)
  case extract text hc =>
    exact finished fun e => hx.entry (h.asked.extracting _ (List.mem_of_getElem? hc) text rfl).right
  all_goals exact forall_mem_set h.results (by simp)

theorem step (h : b.IsPlain x files paths) (hx : x.IsPlain files paths) (hs : Step x files b b') :
    b'.IsPlain x files paths where
  asked   := h.asked.of_step hs fun _ _ _ hc _ ht => ⟨h.mem_paths hc, ht⟩
  paths   := hs.paths.trans h.paths
  events  := h.events_step hx hs
  entries := h.entries_step hx hs
  results := h.results_step hx hs

end IsPlain

theorem isPlain_run (hx : x.IsPlain files paths) (moves : List Move) :
    ((ofPaths {} paths).run x files moves).IsPlain x files paths := by
  refine run_induction x files (P := fun b => b.IsPlain x files paths) ?_ (fun b b' h hs => h.step hx hs) moves
  exact ⟨asked_ofPaths {} paths, by simp [ofPaths, Function.comp_def], by simp [ofPaths],
    by simp [ofPaths, Cache.find?], by simp [ofPaths]⟩

theorem mem_documents {rs : List (String × Except Breakdown ExtractionResult)} {doc : Document}
    (h : (path, doc) ∈ documents rs) : ∃ r, (path, .ok r) ∈ rs ∧ r.document = some doc := by
  induction rs using List.reverseRecOn
  case nil => cases h
  case append_singleton rs p hi =>
    have earlier (h : (path, doc) ∈ documents rs) : ∃ r, (path, .ok r) ∈ rs ++ [p] ∧ r.document = some doc := by
      obtain ⟨r, hr, hd⟩ := hi h
      exact ⟨r, List.mem_append_left _ hr, hd⟩
    obtain ⟨q, r⟩ := p
    simp only [documents, List.foldl_append, List.foldl_cons, List.foldl_nil] at h
    split at h
    case h_2 => exact earlier h
    case h_1 =>
      rcases Keyed.mem_insert h with h | h
      case inr => exact earlier h
      case inl =>
        cases h
        exact ⟨_, List.mem_append_right _ List.mem_cons_self, rfl⟩

end Batch

theorem Extractor.IsPlain.documents (hx : x.IsPlain files paths) :
    (∀ p ∈ (x.documents files {} paths).1, '[' ∉ p.1.toList ∧ ∀ f ∈ p.2.definitions, '[' ∉ f.name.toList) ∧
      ∀ d, .reported d ∈ (x.documents files {} paths).2.2 → Inert d.message := by
  have hb : (x.gather files {} paths).IsPlain x files paths := Batch.isPlain_run hx _
  constructor
  case left =>
    rintro ⟨path, doc⟩ hm
    obtain ⟨r, hr, hd⟩ := Batch.mem_documents hm
    obtain ⟨c, hc, hs, hp⟩ := Batch.mem_results.mp hr
    have hp : path ∈ paths := by
      rw [← hb.paths, ← show c.path = path from hp]
      exact List.mem_map_of_mem hc
    exact ⟨hx.paths _ hp, hb.results c hc r doc hs hd⟩
  case right =>
    intro d hm
    rcases List.mem_append.mp hm with hm | hm
    case inl => exact hb.events d hm
    case inr =>
      obtain ⟨⟨p, r⟩, _, hr⟩ := List.mem_filterMap.mp hm
      cases r <;> simp at hr

end QueryGlean
