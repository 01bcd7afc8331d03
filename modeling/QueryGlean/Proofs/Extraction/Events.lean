import QueryGlean.Proofs.Extraction.Basic
import QueryGlean.Proofs.Fragment.Normalize

namespace QueryGlean

def Event.IsAbout (path : String) : Event → Prop
  | .reported d        => d.filePath = path ∧ d.code ≠ "read-failed"
  | .failed p reason _ => p = path ∧ reason ≠ .read
  | .succeeded _       => False
  | .noted _           => True

def EndsInFailure (path : String) (es : List Event) : Prop :=
  ∃ init reason error, es = init ++ [.failed path reason error]

def FailsWith (path : String) (reason : FailureReason) (es : List Event) : Prop :=
  ∃ init d error, es = init ++ [.reported d, .failed path reason error] ∧ d.severity = .error ∧ d.filePath = path

def ExtractionStatus.failure? : ExtractionStatus → Option FailureReason
  | readError  => some .read
  | parseError => some .parse
  | queryError => some .query
  | _          => none

variable {path text other : String} {es fs : List Event} {ev : Event} {src : Source} {ls : List Language}

theorem FailsWith.append {reason : FailureReason} (h : FailsWith path reason fs) :
    FailsWith path reason (es ++ fs) := by
  have ⟨init, d, error, he, hd⟩ := h
  exact ⟨es ++ init, d, error, by rw [he, List.append_assoc], hd⟩

theorem FailsWith.endsInFailure {reason : FailureReason} (h : FailsWith path reason es) : EndsInFailure path es := by
  have ⟨init, d, error, he, _⟩ := h
  exact ⟨init ++ [.reported d], reason, error, by simp [he]⟩

theorem EndsInFailure.isStale (h : EndsInFailure path es) (sink : Collector) :
    (sink.recordAll es).isStale path := by
  have ⟨init, reason, error, he⟩ := h
  rw [he, Collector.recordAll_append]
  simp [Collector.recordAll, Collector.isStale_record]

theorem Event.IsAbout.isStale_record (h : ev.IsAbout path) (hp : other ≠ path) (sink : Collector) :
    (sink.record ev).isStale other = sink.isStale other := by
  rw [Collector.isStale_record]
  cases ev
  case reported  => rfl
  case noted     => rfl
  case succeeded => exact h.elim
  case failed    => simp [h.left, hp]

-- What is told of one file leaves the markers of all others as they are.
theorem isStale_recordAll_of_isAbout (h : ∀ ev ∈ es, ev.IsAbout path) (hp : other ≠ path) (sink : Collector) :
    (sink.recordAll es).isStale other = sink.isStale other := by
  induction es generalizing sink
  case nil => rfl
  case cons ev es hi =>
    have ⟨h₁, h₂⟩ := List.forall_mem_cons.mp h
    exact (hi h₂ (sink.record ev)).trans (h₁.isStale_record hp sink)

theorem Parsed.isAbout_fragments (p : Parsed) (s : Settings) :
    ∀ d ∈ (p.fragments s path).2, (Event.reported d).IsAbout path := by
  refine List.forall_mem_append.mpr ⟨List.forall_mem_map.mpr fun r _ => ?_, fun d hd => ?_⟩
  · simp [Event.IsAbout, Unresolved.diagnostic, Diagnostic.unknownQueryVariable]
  · simp [Matcher.eq_globalTag_of_mem_normalizeAll hd, Event.IsAbout, Diagnostic.globalTag]

theorem Parsed.exists_noted_of_mem_attempt (h : ev ∈ (attempt src ls).2) : ∃ n, ev = .noted n := by
  induction ls
  case nil => cases h
  case cons l ls hi =>
    unfold attempt at h
    split at h
    case h_1 => cases h
    case h_2 =>
      rcases List.mem_cons.mp h with rfl | h
      case inl => exact ⟨_, rfl⟩
      case inr => exact hi h

namespace Reading

variable {index : Nat} {vs : List Value} {ps : List Preprocessor}

inductive Tells (path : String) : Event → Prop
  | noted {n} : Tells path (.noted n)
  | preprocessingFailed : Tells path (.reported (.preprocessingFailed path))
  | candidateFailed {names index} : Tells path (.reported (.candidateFailed path names index))
  | parseFailed : Tells path (.reported (.parseFailed path))
  | failed {error} : Tells path (.failed path .parse error)

theorem tells_attempt (h : ev ∈ (Parsed.attempt src ls).2) : Tells path ev := by
  obtain ⟨n, rfl⟩ := Parsed.exists_noted_of_mem_attempt h
  exact .noted

theorem tells_firstCandidate (h : ev ∈ (firstCandidate path ls index vs).2) : Tells path ev := by
  induction vs generalizing index
  case nil =>
    simp only [firstCandidate, List.mem_cons, List.not_mem_nil, or_false] at h
    rcases h with rfl | rfl
    · exact .preprocessingFailed
    · exact .failed
  case cons v vs hi =>
    cases v
    case text s =>
      have ha (h : ev ∈ (Parsed.attempt (.ofString s) ls).2) : Tells path ev := tells_attempt h
      unfold firstCandidate at h
      split at h
      case h_1 he => exact ha (he ▸ h)
      case h_2 he =>
        simp only [candidateFailure, List.mem_append, List.mem_cons, List.not_mem_nil, or_false] at h
        rcases h with (h | rfl | rfl) | h
        · exact ha (he ▸ h)
        · exact .candidateFailed
        · exact .failed
        · exact hi h
    all_goals cases h

theorem tells_source (h : ev ∈ (source ps path text).2) : Tells path ev := by
  have ha (h : ev ∈ (Parsed.attempt (.ofString text) (Language.candidates (.ofString path))).2) : Tells path ev :=
    tells_attempt h
  unfold source at h
  dsimp only at h
  split at h
  case h_1 =>
    simp only [List.mem_cons, List.not_mem_nil, or_false] at h
    rcases h with rfl | rfl | rfl
    · exact .noted
    · exact .preprocessingFailed
    · exact .failed
  case h_3 => exact tells_firstCandidate h
  case h_2 =>
    split at h
    case h_1 he => exact ha (he ▸ h)
    case h_2 he =>
      simp only [List.mem_append, List.mem_cons, List.not_mem_nil, or_false] at h
      rcases h with h | rfl | rfl
      · exact ha (he ▸ h)
      · exact .parseFailed
      · exact .failed

theorem Tells.isAbout (h : Tells path ev) : ev.IsAbout path := by
  cases h <;>
    simp [Event.IsAbout, Diagnostic.preprocessingFailed, Diagnostic.candidateFailed, Diagnostic.parseFailed]

theorem failsWith_of_firstCandidate (h : (firstCandidate path ls index vs).1 = .ok none) :
    FailsWith path .parse (firstCandidate path ls index vs).2 := by
  induction vs generalizing index
  case nil => exact ⟨[], _, _, rfl, rfl, rfl⟩
  case cons v vs hi =>
    cases v
    case text s =>
      unfold firstCandidate at h ⊢
      split
      case h_1 he => simp [he] at h
      case h_2 he => rw [he] at h; exact (hi h).append
    all_goals cases h

theorem failsWith_of_source (h : (source ps path text).1 = .ok none) :
    FailsWith path .parse (source ps path text).2 := by
  unfold source at h ⊢
  dsimp only at h ⊢
  split at h
  case h_1 => exact ⟨[_], _, _, rfl, rfl, rfl⟩
  case h_3 => exact failsWith_of_firstCandidate h
  case h_2 =>
    split at h
    case h_1 => cases h
    case h_2 => exact FailsWith.append ⟨[], _, _, rfl, rfl, rfl⟩

end Reading

namespace Extractor

variable {x : Extractor} {e : CacheEntry}

theorem isAbout_outcome (x : Extractor) (path text : String) :
    ∀ ev ∈ (x.outcome path text).2, ev.IsAbout path := by
  have hs : ∀ ev ∈ (Reading.source x.preprocessors path text).2, ev.IsAbout path :=
    fun _ h => (Reading.tells_source h).isAbout
  have about {p : Parsed} {es : List Event} (he : Reading.source x.preprocessors path text = (.ok (some p), es)) :
      ∀ ev ∈ es ++ (p.fragments x.settings path).2.map .reported, ev.IsAbout path := by
    rw [he] at hs
    exact List.forall_mem_append.mpr ⟨hs, List.forall_mem_map.mpr (p.isAbout_fragments x.settings)⟩
  have hc := x.comesTo_outcome path text
  generalize x.outcome path text = o at hc ⊢
  cases hc
  case broken he        => rwa [he] at hs
  case unparsed he      => rwa [he] at hs
  case bare he _        => exact about he
  case extracted he _ _ => exact about he
  case unfit he _       => exact about he
  case refused he _ =>
    exact List.forall_mem_append.mpr ⟨about he, by simp [Event.IsAbout, Diagnostic.queryInvalid]⟩

theorem failsWith_of_outcome {reason : FailureReason} (h : (x.outcome path text).1 = .ok e)
    (hs : e.status.failure? = some reason) : FailsWith path reason (x.outcome path text).2 := by
  have hc := x.comesTo_outcome path text
  generalize x.outcome path text = o at h hc ⊢
  cases hc <;> cases h <;> cases hs
  case unparsed hn =>
    have hf := Reading.failsWith_of_source (congrArg Prod.fst hn)
    rwa [hn] at hf
  case refused => exact FailsWith.append ⟨[], _, _, rfl, rfl, rfl⟩

theorem endsInFailure_of_outcome (h : (x.outcome path text).1 = .ok e)
    (hs : e.status = .parseError ∨ e.status = .queryError) : EndsInFailure path (x.outcome path text).2 := by
  cases hs
  case inl hs => exact (failsWith_of_outcome h (congrArg ExtractionStatus.failure? hs)).endsInFailure
  case inr hs => exact (failsWith_of_outcome h (congrArg ExtractionStatus.failure? hs)).endsInFailure

end Extractor

end QueryGlean
