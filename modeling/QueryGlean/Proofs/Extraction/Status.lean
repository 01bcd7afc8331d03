import QueryGlean.Proofs.Extraction.Stale
import QueryGlean.Proofs.Fragment.Dedupe

namespace QueryGlean

-- An entry of the cache:
-- 1. its status is one that is kept
-- 2. it has fragments if and only if the status says so
-- 3. no two of its fragments stand at the same place
structure CacheEntry.Sound (e : CacheEntry) : Prop where
  status    : e.status ∈ ExtractionStatus.kept
  fragments : e.fragments ≠ [] ↔ e.status = .extracted
  apart     : (e.fragments.map (·.locationKey)).Nodup

structure ExtractionResult.Sound (r : ExtractionResult) : Prop where
  document : r.document.isSome ↔ r.status = .extracted
  nonempty : ∀ d, r.document = some d → d.definitions ≠ []
  apart    : ∀ d, r.document = some d → (d.definitions.map (·.locationKey)).Nodup

-- What is not kept: the next call for the same contents looks again.
def ExtractionStatus.passing : List ExtractionStatus :=
  [.readError, .notQueryFile, .queryError]

structure Run.Sound (before : Cache) (run : Run ExtractionResult) (r : ExtractionResult) : Prop where
  result  : r.Sound
  fresh   : r.status ∈ ExtractionStatus.passing → ¬r.cached
  entries : r.status ∈ ExtractionStatus.passing → run.cache.entries = before.entries

namespace Account

def results (s : Settings) (cache : Cache) : List Visit → List ExtractionResult
  | []      => []
  | v :: vs => (v.run s cache).result.toOption.toList ++ results s (v.run s cache).cache vs

end Account

variable {x : Extractor} {files : FileTree} {cache : Cache} {path text key : String} {e : CacheEntry}
variable {r : ExtractionResult} {b : Bool} {s : Settings} {vs : List Visit} {v : Visit} {a : Account}
variable {o : Except Breakdown CacheEntry} {p : String × CacheEntry}

theorem ExtractionStatus.not_mem_passing {t : ExtractionStatus} (h : t ∈ kept) : t ∉ passing := by
  cases t <;> simp_all [kept, passing]

theorem CacheEntry.Sound.wellFormed (h : e.Sound) : e.WellFormed where
  extracted := h.fragments.mp
  otherwise := fun hf => by
    have hs := h.status
    have hn := mt h.fragments.mpr (by simp [hf])
    cases ht : e.status <;> simp_all [ExtractionStatus.kept]

namespace Extractor

theorem apart_of_outcome (h : (x.outcome path text).1 = .ok e) :
    (e.fragments.map (·.locationKey)).Nodup := by
  have hc := x.comesTo_outcome path text
  generalize x.outcome path text = o at h hc
  cases hc <;> cases h
  case unparsed => exact List.nodup_nil
  case bare     => exact List.nodup_nil
  case refused  => exact List.nodup_nil
  case extracted hf _ =>
    have ⟨gs, _, hd⟩ := Outcome.ok_of_map hf
    exact hd ▸ Fragment.nodup_locationKey_dedupe gs

theorem Settles.sound (h : x.Settles path text e) : e.Sound where
  status    := h.status_mem_kept
  fragments := (wellFormed_of_outcome h.outcome).status_eq_extracted_iff.symm
  apart     := apart_of_outcome h.outcome

-- A result has the fragments of its entry.
theorem sound_answer (h : e.WellFormed) (ha : (e.fragments.map (·.locationKey)).Nodup) :
    (answer path e b).Sound where
  document := by
    rw [answer_document, answer_status h, h.status_eq_extracted_iff]
    cases e.fragments <;> simp [Document.ofList?]
  nonempty := fun d _ => d.definitions_ne_nil
  apart    := fun d hd => by
    rw [answer_document] at hd
    exact Document.ofList?_eq_some_iff.mp hd ▸ ha

theorem entries_keepOutcome (h : p ∈ (keepOutcome cache key o).entries) :
    p ∈ cache.entries ∨ p.1 = key ∧ kept? o = some p.2 := by
  cases o
  case error => exact .inl h
  case ok e =>
    simp only [keepOutcome, keep] at h
    split at h
    case isTrue => exact .inl h
    case isFalse hq =>
      cases Keyed.mem_insert h
      case inl hp => exact .inr (by simp [hp, kept?, hq])
      case inr hp => exact .inl hp

theorem hits_keepOutcome : (keepOutcome cache key o).hits = cache.hits := by
  cases o
  case error => rfl
  case ok =>
    simp only [keepOutcome, keep]
    split <;> rfl

theorem sound_of_settled {es : List Event} (h : x.sight files path = .settled (.ok r) es) : r.Sound := by
  cases settlesAtSight h
  case unreadable => exact ⟨by simp, by simp, by simp⟩
  case untagged   => exact ⟨by simp, by simp, by simp⟩

theorem sound_cache_extract (h : ∀ p ∈ cache.entries, p.2.Sound) :
    ∀ p ∈ (x.extract files cache path).cache.entries, p.2.Sound := by
  cases hs : x.sight files path
  case settled r es => rwa [extract_of_settled hs]
  case contents text =>
    cases hf : cache.find? (contentKey path text)
    case some e => simpa [extract_of_hit hs hf] using h
    case none =>
      intro p hp
      rw [cache_of_miss hs hf] at hp
      cases entries_keepOutcome hp
      case inl hp => exact h p (Cache.entries_get cache _ ▸ hp)
      case inr hp =>
        have ⟨ho, hq⟩ := kept?_eq_some_iff.mp hp.right
        exact Settles.sound ⟨ho, hq⟩

theorem sound_extract (h : ∀ p ∈ cache.entries, p.2.Sound)
    (hr : (x.extract files cache path).result = .ok r) : (x.extract files cache path).Sound cache r := by
  cases hs : x.sight files path
  case settled r' es =>
    rw [extract_of_settled hs] at hr ⊢
    cases hr
    have ⟨_, hc⟩ := status_of_sight_eq_settled hs
    exact ⟨sound_of_settled hs, fun _ => by simp [hc], fun _ => rfl⟩
  case contents text =>
    cases hf : cache.find? (contentKey path text)
    case some e =>
      have he := h _ (Keyed.mem_of_lookup_eq_some hf)
      rw [extract_of_hit hs hf] at hr ⊢
      cases hr
      have hw := he.wellFormed
      have hn := ExtractionStatus.not_mem_passing he.status
      rw [show e.status = (answer path e true).status from (answer_status hw).symm] at hn
      exact ⟨sound_answer hw he.apart, fun hp => (hn hp).elim, fun hp => (hn hp).elim⟩
    case none =>
      rw [result_of_miss hs hf] at hr
      have ⟨e, ho, he⟩ := Outcome.ok_of_map hr
      have hw := wellFormed_of_outcome ho
      subst he
      refine ⟨sound_answer hw (apart_of_outcome ho), fun _ => by simp [answer_cached], fun hp => ?_⟩
      -- Of the outcomes, only a query error passes.
      rw [answer_status hw] at hp
      have hq : e.status = .queryError := Decidable.byContradiction fun hq =>
        ExtractionStatus.not_mem_passing (Settles.status_mem_kept ⟨ho, hq⟩) hp
      simp [cache_of_miss hs hf, ho, keepOutcome, keep, hq]

theorem hits_extract :
    (x.extract files cache path).cache.hits =
      cache.hits + (x.extract files cache path).result.toOption.toList.countP (·.cached) := by
  cases hs : x.sight files path
  case settled r es =>
    rw [extract_of_settled hs]
    cases r
    case error => rfl
    case ok r  => simp [Except.toOption, status_of_sight_eq_settled hs]
  case contents text =>
    cases hf : cache.find? (contentKey path text)
    case some e => simp [extract_of_hit hs hf, Cache.hits_get, hf, Except.toOption, answer_cached]
    case none =>
      rw [cache_of_miss hs hf, result_of_miss hs hf, hits_keepOutcome, Cache.hits_get, hf]
      cases (x.outcome path text).1 <;> simp [Except.map, Except.toOption, answer_cached]

end Extractor

namespace Account

theorem sound_entries_after (s : Settings) (vs : List Visit) : ∀ p ∈ (after s vs).cache.entries, p.2.Sound :=
  List.foldlRecOn vs (visit s) (motive := fun a => ∀ p ∈ a.cache.entries, p.2.Sound) (by simp)
    fun _ ha _ _ => Extractor.sound_cache_extract ha

theorem hits_foldl_visit :
    (vs.foldl (visit s) a).cache.hits = a.cache.hits + (results s a.cache vs).countP (·.cached) := by
  induction vs generalizing a
  case nil => rfl
  case cons v vs hi =>
    rw [List.foldl_cons, hi, results, List.countP_append, ← Nat.add_assoc]
    exact congrArg (· + _) Extractor.hits_extract

theorem readError_of_resolve {error : FileError} (hn : FileTree.hasNul (Path.ofString path) = false)
    (hr : files.resolve (Path.ofString path) = .error error) :
    ∃ r es, x.sight files path = .settled (.ok r) es ∧ r.status = .readError := by
  simp [Extractor.sight, FileTree.readText, hn, hr]

theorem sound_after (s : Settings) (vs : List Visit) :
    (∀ p ∈ (after s vs).cache.entries, p.2.Sound) ∧
    (∀ v r, (Visit.run s (after s vs).cache v).result = .ok r →
      (Visit.run s (after s vs).cache v).Sound (after s vs).cache r) ∧
    (after s vs).cache.hits = (results s {} vs).countP (·.cached) := by
  have he := sound_entries_after s vs
  refine ⟨he, fun v r hr => Extractor.sound_extract he hr, ?_⟩
  exact hits_foldl_visit.trans (Nat.zero_add _)

-- A file of which nothing can be made, looked at twice, and then one that is not there.
theorem sound_after_of_failing :
    let files : FileTree := { entries := [(["a.js"], .file Action.tag)] }
    let v : Visit := ⟨Extractor.failing.preprocessors, files, "a.js"⟩
    let missing : Visit := ⟨[], files, "b.js"⟩
    let twice := after {} [v, v]
    (∃ p ∈ twice.cache.entries, p.2.Sound ∧ p.2.status = .parseError) ∧
    (∃ r, (missing.run {} twice.cache).result = .ok r ∧ r.status = .readError ∧
      (missing.run {} twice.cache).Sound twice.cache r) ∧
    twice.cache.hits = 1 := by
  intro files v missing twice
  have hr : Call.Reads ⟨"a.js", files, {}⟩ "graphql" := reads_tag
  have hs : Extractor.failing.sight files "a.js" = .contents "graphql" :=
    Extractor.sight_eq_contents_iff.mpr ⟨hr, by decide⟩
  have ho : (Extractor.failing.outcome "a.js" "graphql").1 = .ok ⟨[], .parseError⟩ := rfl
  have found : (after {} [v]).cache.find? (contentKey "a.js" "graphql") = some ⟨[], .parseError⟩ :=
    (Extractor.find?_of_miss hs rfl).mpr (.inr ⟨rfl, ho, by decide⟩)
  have h₁ : (v.run {} {}).result = .ok ⟨"a.js", .parseError, none, false⟩ :=
    Extractor.result_of_miss hs rfl
  have h₂ : v.run {} (after {} [v]).cache = _ := Extractor.extract_of_hit hs found
  have hn : FileTree.hasNul (Path.ofString "b.js") = false := FileTree.hasNul_eq_false (by decide +kernel)
  have hm : (files.resolve (Path.ofString "b.js")).toOption.isNone := by decide +kernel
  obtain ⟨e, hm⟩ : ∃ e, files.resolve (Path.ofString "b.js") = .error e := by
    cases h : files.resolve (Path.ofString "b.js")
    case error e => exact ⟨e, rfl⟩
    case ok      => simp [h, Except.toOption] at hm
  obtain ⟨r, es, hb, ht⟩ := readError_of_resolve (x := ⟨{}, []⟩) hn hm
  have hr' : (missing.run {} twice.cache).result = .ok r := congrArg Run.result (Extractor.extract_of_settled hb)
  obtain ⟨he, hv, hh⟩ := sound_after {} [v, v]
  have kept : (contentKey "a.js" "graphql", ⟨[], .parseError⟩) ∈ twice.cache.entries := by
    refine Keyed.mem_of_lookup_eq_some ?_
    exact (congrArg (Cache.find? · _) (congrArg Run.cache h₂)).trans ((Cache.find?_get ..).trans found)
  refine ⟨⟨_, kept, he _ kept, rfl⟩, ⟨r, hr', ht, hv missing r hr'⟩, hh.trans ?_⟩
  have h₃ : (v.run {} (v.run {} {}).cache).result = .ok ⟨"a.js", .parseError, none, true⟩ := congrArg Run.result h₂
  simp [results, h₁, h₃, Except.toOption]

end Account

end QueryGlean
