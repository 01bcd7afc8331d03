import QueryGlean.Proofs.Extraction.Breakdown

namespace QueryGlean

open Outcome

structure Parsed.IsFirst (src : Source) (ls : List Language) (p : Parsed) : Prop where
  source : p.source = src
  taken  : parseIn p.language src = some p.root
  first  : ∃ before after, ls = before ++ p.language :: after ∧ ∀ l ∈ before, parseIn l src = none

def Event.isTold : Event → Bool
  | .noted _ => false
  | _        => true

@[simp]
theorem Event.isTold_reported (d : Diagnostic) : (reported d).isTold :=
  rfl

@[simp]
theorem Event.isTold_failed (path : String) (reason : FailureReason) (error : Option String) :
    (failed path reason error).isTold :=
  rfl

@[simp]
theorem Event.isTold_noted (line : LogLine) : (noted line).isTold = false :=
  rfl

def Value.text? : Value → Option String
  | .text s => some s
  | _       => none

def Value.texts : Value → List String
  | .list vs => vs.filterMap text?
  | _        => []

namespace Preprocessor

def offered (path text : String) (p : Preprocessor) : List String :=
  match p path text with
  | .ok v    => v.texts
  | .error _ => []

def Returns (path text : String) (p : Preprocessor) : Prop :=
  ∃ v, p path text = .ok v

end Preprocessor

namespace Reading

-- The languages of a path in turn take a text, or none of them does.
def Takes (path text : String) (p : Parsed) : Prop :=
  p.IsFirst (.ofString text) (Language.candidates (.ofString path))

def Refuses (path text : String) : Prop :=
  ∀ l ∈ Language.candidates (.ofString path), parseIn l (.ofString text) = none

def told (run : Except Breakdown (Option Parsed) × List Event) : Except Breakdown (Option Parsed) × List Event :=
  (run.1, run.2.filter Event.isTold)

def failures (path : String) (start count : Nat) : List Event :=
  (List.range' start count).flatMap (candidateFailure path (Language.candidates (.ofString path)))

-- What is read of a file with preprocessors that offer texts:
-- 1. nothing if one of them fails, and the texts of the others do not matter
-- 2. the text of the file if they offer nothing
-- 3. otherwise the first of their texts that is taken, or nothing, and the text of the file does not matter
structure Exact (ps : List Preprocessor) (path text : String) : Prop where
  failing {before after : List Preprocessor} {p : Preprocessor} {e : String} (hs : ps = before ++ p :: after)
      (hb : ∀ q ∈ before, q.Returns path text) (he : p path text = .error e) :
    told (source ps path text) = (.ok none, [.reported (.preprocessingFailed path), .failed path .parse (some e)])
  taken {p : Parsed} (hr : ∀ q ∈ ps, q.Returns path text) (hc : ps.flatMap (·.offered path text) = [])
      (ht : Takes path text p) :
    told (source ps path text) = (.ok (some p), [])
  refused (hr : ∀ q ∈ ps, q.Returns path text) (hc : ps.flatMap (·.offered path text) = [])
      (ht : Refuses path text) :
    told (source ps path text) = (.ok none, [.reported (.parseFailed path), .failed path .parse none])
  candidateTaken {before after : List String} {candidate : String} {p : Parsed}
      (hr : ∀ q ∈ ps, q.Returns path text)
      (hc : ps.flatMap (·.offered path text) = before ++ candidate :: after)
      (hb : ∀ c ∈ before, Refuses path c) (ht : Takes path candidate p) :
    told (source ps path text) = (.ok (some p), failures path 0 before.length)
  candidatesRefused (hr : ∀ q ∈ ps, q.Returns path text) (hc : ps.flatMap (·.offered path text) ≠ [])
      (hb : ∀ c ∈ ps.flatMap (·.offered path text), Refuses path c) :
    told (source ps path text) = (.ok none,
      failures path 0 (ps.flatMap (·.offered path text)).length ++
        [.reported (.preprocessingFailed path), .failed path .parse none])
  errors {d : Diagnostic} (hd : .reported d ∈ (source ps path text).2) : d.severity = .error

end Reading

variable {src : Source} {ls : List Language} {p : Parsed} {path text : String} {ps before after : List Preprocessor}
variable {q : Preprocessor} {cs cs' : List String} {i : Nat}

theorem Parsed.first?_eq_some_iff : first? src ls = some p ↔ p.IsFirst src ls := by
  induction ls
  case nil =>
    refine ⟨nofun, fun ⟨_, _, before, after, he, _⟩ => ?_⟩
    simp at he
  case cons l ls hi =>
    unfold first?
    split
    case h_1 root hl =>
      constructor
      case mp =>
        rintro ⟨⟩
        exact ⟨rfl, hl, [], ls, rfl, by simp⟩
      case mpr =>
        intro ⟨hs, ht, before, after, he, hb⟩
        cases before
        case nil =>
          cases p
          simp_all
        case cons b before => simp_all
    case h_2 hl =>
      rw [hi]
      constructor
      case mp =>
        intro ⟨hs, ht, before, after, he, hb⟩
        exact ⟨hs, ht, l :: before, after, by rw [he]; rfl, List.forall_mem_cons.mpr ⟨hl, hb⟩⟩
      case mpr =>
        intro ⟨hs, ht, before, after, he, hb⟩
        cases before
        case nil => simp_all
        case cons b before =>
          have ⟨_, hb⟩ := List.forall_mem_cons.mp hb
          exact ⟨hs, ht, before, after, (List.cons.inj he).right, hb⟩

theorem Parsed.first?_eq_none_iff : first? src ls = none ↔ ∀ l ∈ ls, parseIn l src = none := by
  induction ls
  case nil => simp [first?]
  case cons l ls hi =>
    unfold first?
    split <;> simp_all

theorem Parsed.filter_isTold_attempt (src : Source) (ls : List Language) :
    (attempt src ls).2.filter Event.isTold = [] := by
  refine List.filter_eq_nil_iff.mpr fun ev h => ?_
  obtain ⟨n, rfl⟩ := exists_noted_of_mem_attempt h
  simp

namespace Preprocessor

-- What a preprocessor returns offers the texts that it holds, and no more.
theorem candidates_of_returns (hq : OffersTexts q) (hr : q.Returns path text) :
    ∃ v, q path text = .ok v ∧ v.candidates = .ok ((q.offered path text).map .text) := by
  have ⟨v, hv⟩ := hr
  refine ⟨v, hv, ?_⟩
  rcases hq path text v hv with rfl | ⟨ts, rfl⟩
  case inl => simp [offered, hv, Value.texts, Value.candidates, Value.isEmpty]
  case inr =>
    have ht : (ts.map Value.text).filterMap Value.text? = ts := by
      rw [List.filterMap_map]
      exact List.filterMap_some
    simp [offered, hv, Value.texts, ht, Value.candidates_list]

theorem candidates_cons {v : Value} {vs : List Value} (hv : q path text = .ok v) (hc : v.candidates = .ok vs) :
    candidates path text (q :: ps) = (candidates path text ps).map (vs ++ ·) := by
  rw [candidates, hv]
  change (v.candidates >>= _) = _
  rw [hc]
  rfl

theorem candidates_of_forall (hp : ∀ q ∈ ps, OffersTexts q) (hr : ∀ q ∈ ps, q.Returns path text) :
    candidates path text ps = .ok ((ps.flatMap (·.offered path text)).map .text) := by
  induction ps
  case nil => rfl
  case cons q ps hi =>
    have ⟨hq, hp⟩ := List.forall_mem_cons.mp hp
    have ⟨hrq, hr⟩ := List.forall_mem_cons.mp hr
    have ⟨v, hv, hc⟩ := candidates_of_returns hq hrq
    rw [candidates_cons hv hc, hi hp hr, List.flatMap_cons, List.map_append]
    rfl

theorem candidates_of_error {e : String} (hp : ∀ q ∈ before, OffersTexts q)
    (hb : ∀ q ∈ before, q.Returns path text) (he : q path text = .error e) :
    candidates path text (before ++ q :: after) = .error (.raised e) := by
  induction before
  case nil =>
    simp only [List.nil_append, candidates, he]
    rfl
  case cons b before hi =>
    have ⟨hq, hp⟩ := List.forall_mem_cons.mp hp
    have ⟨hrq, hb⟩ := List.forall_mem_cons.mp hb
    have ⟨v, hv, hc⟩ := candidates_of_returns hq hrq
    rw [List.cons_append, candidates_cons hv hc, hi hp hb]
    rfl

end Preprocessor

namespace Reading

theorem fst_attempt_of_takes (h : Takes path text p) :
    (Parsed.attempt (.ofString text) (Language.candidates (.ofString path))).1 = some p :=
  (Parsed.fst_attempt ..).trans (Parsed.first?_eq_some_iff.mpr h)

theorem fst_attempt_of_refuses (h : Refuses path text) :
    (Parsed.attempt (.ofString text) (Language.candidates (.ofString path))).1 = none :=
  (Parsed.fst_attempt ..).trans (Parsed.first?_eq_none_iff.mpr h)

theorem told_firstCandidate_cons_of_takes {c : String} {vs : List Value} (h : Takes path c p) :
    told (firstCandidate path (Language.candidates (.ofString path)) i (.text c :: vs)) = (.ok (some p), []) := by
  have ha := fst_attempt_of_takes h
  have hn := Parsed.filter_isTold_attempt (.ofString c) (Language.candidates (.ofString path))
  unfold firstCandidate
  split <;> simp_all [told]

theorem told_firstCandidate_cons_of_refuses {c : String} {vs : List Value} (h : Refuses path c) :
    told (firstCandidate path (Language.candidates (.ofString path)) i (.text c :: vs)) =
      let later := told (firstCandidate path (Language.candidates (.ofString path)) (i + 1) vs)
      (later.1, candidateFailure path (Language.candidates (.ofString path)) i ++ later.2) := by
  have ha := fst_attempt_of_refuses h
  have hn := Parsed.filter_isTold_attempt (.ofString c) (Language.candidates (.ofString path))
  rw [firstCandidate]
  split
  case h_1 => simp_all
  case h_2 events he =>
    rw [he] at hn
    simp [told, hn, candidateFailure, List.filter_cons]

theorem failures_succ (path : String) (i n : Nat) :
    failures path i (n + 1) =
      candidateFailure path (Language.candidates (.ofString path)) i ++ failures path (i + 1) n := by
  simp [failures, List.range'_succ]

theorem told_firstCandidate_of_takes {c : String} (hb : ∀ c ∈ cs, Refuses path c) (ht : Takes path c p) :
    told (firstCandidate path (Language.candidates (.ofString path)) i ((cs ++ c :: cs').map .text)) =
      (.ok (some p), failures path i cs.length) := by
  induction cs generalizing i
  case nil => exact told_firstCandidate_cons_of_takes ht
  case cons b cs hi =>
    have ⟨h, hb⟩ := List.forall_mem_cons.mp hb
    rw [List.cons_append, List.map_cons, told_firstCandidate_cons_of_refuses h, hi hb, List.length_cons, failures_succ]

theorem told_firstCandidate_of_refuses (hb : ∀ c ∈ cs, Refuses path c) :
    told (firstCandidate path (Language.candidates (.ofString path)) i (cs.map .text)) =
      (.ok none, failures path i cs.length ++ [.reported (.preprocessingFailed path), .failed path .parse none]) := by
  induction cs generalizing i
  case nil => rfl
  case cons b cs hi =>
    have ⟨h, hb⟩ := List.forall_mem_cons.mp hb
    rw [List.map_cons, told_firstCandidate_cons_of_refuses h, hi hb, List.length_cons, failures_succ, List.append_assoc]

theorem source_of_candidates {vs : List Value} (hc : Preprocessor.candidates path text ps = .ok vs) (hn : vs ≠ []) :
    source ps path text = firstCandidate path (Language.candidates (.ofString path)) 0 vs := by
  simp only [source, hc]

theorem not_reported_attempt (d : Diagnostic) : .reported d ∉ (Parsed.attempt src ls).2 := by
  intro h
  obtain ⟨n, hn⟩ := Parsed.exists_noted_of_mem_attempt h
  cases hn

theorem severity_of_source {d : Diagnostic} (hd : .reported d ∈ (source ps path text).2) : d.severity = .error := by
  cases tells_source hd <;> rfl

-- Left out are texts that have no UTF-8 form.
theorem source_exact (hp : ∀ q ∈ ps, q.OffersTexts) (path text : String) : Exact ps path text := by
  constructor
  case failing =>
    intro before after q e hs hb he
    have hc : Preprocessor.candidates path text ps = .error (.raised e) :=
      hs ▸ Preprocessor.candidates_of_error (fun b hm => hp b (hs ▸ List.mem_append_left _ hm)) hb he
    simp [told, source, hc, PreprocessingError.message]
  case taken =>
    intro p hr hn ht
    have hc := Preprocessor.candidates_of_forall hp hr
    have ha := fst_attempt_of_takes ht
    have ho := Parsed.filter_isTold_attempt (.ofString text) (Language.candidates (.ofString path))
    simp only [source, hc, hn, List.map_nil]
    split <;> simp_all [told]
  case refused =>
    intro hr hn ht
    have hc := Preprocessor.candidates_of_forall hp hr
    have ha := fst_attempt_of_refuses ht
    have ho := Parsed.filter_isTold_attempt (.ofString text) (Language.candidates (.ofString path))
    simp only [source, hc, hn, List.map_nil]
    split
    case h_1 => simp_all
    case h_2 events he =>
      rw [he] at ho
      simp [told, ho, List.filter_cons]
  case candidateTaken =>
    intro before after c p hr hn hb ht
    have hc := Preprocessor.candidates_of_forall hp hr
    rw [source_of_candidates hc (by simp [hn]), hn, told_firstCandidate_of_takes hb ht]
  case candidatesRefused =>
    intro hr hn hb
    have hc := Preprocessor.candidates_of_forall hp hr
    rw [source_of_candidates hc (by simpa using hn), told_firstCandidate_of_refuses hb]
  case errors => exact severity_of_source

-- Candidates that are not looked at, since the next preprocessor fails, and candidates of which the second is taken.
theorem source_exact_of_failing :
    let offering : Preprocessor := fun _ _ => .ok (.list (["const =;", pageQuery, "graphql"].map .text))
    let failing : Preprocessor := fun _ _ => .error "no such compiler"
    let silent : Preprocessor := fun _ _ => .ok .null
    (∀ q ∈ [offering, failing, silent], q.OffersTexts) ∧
      told (source [offering, failing, offering] "a.js" "z") =
        (.ok none, [.reported (.preprocessingFailed "a.js"), .failed "a.js" .parse (some "no such compiler")]) ∧
      ((∀ l ∈ [Language.javascript, .tsx], parseIn l (.ofString "const =;") = none) →
        parseIn .javascript (.ofString pageQuery) = some .pageQuery →
        told (source [silent, offering] "a.js" "z") =
          (.ok (some ⟨.javascript, .ofString pageQuery, .pageQuery⟩),
            [.reported (.candidateFailed "a.js" ["javascript", "tsx"] 0), .failed "a.js" .parse none])) := by
  intro offering failing silent
  have ho : offering.OffersTexts := fun _ _ v hv => .inr ⟨_, (Except.ok.inj hv).symm⟩
  have hf : failing.OffersTexts := fun _ _ _ h => nomatch h
  have hs : silent.OffersTexts := fun _ _ v hv => .inl (Except.ok.inj hv).symm
  have hl : Language.candidates (.ofString "a.js") = [.javascript, .tsx] := by decide +kernel
  refine ⟨by simpa using ⟨ho, hf, hs⟩, ?failing, fun hr ht => ?taken⟩
  case failing =>
    have hp : ∀ q ∈ [offering, failing, offering], q.OffersTexts := by simpa using ⟨ho, hf, ho⟩
    have hb : ∀ q ∈ [offering], q.Returns "a.js" "z" := List.forall_mem_singleton.mpr ⟨_, rfl⟩
    exact (source_exact hp "a.js" "z").failing rfl hb rfl
  case taken =>
    have hp : ∀ q ∈ [silent, offering], q.OffersTexts := by simpa using ⟨hs, ho⟩
    have hb : ∀ q ∈ [silent, offering], q.Returns "a.js" "z" := by simpa using ⟨⟨_, rfl⟩, ⟨_, rfl⟩⟩
    have hc : ∀ c ∈ ["const =;"], Refuses "a.js" c := List.forall_mem_singleton.mpr (by rwa [Refuses, hl])
    have hd : Takes "a.js" pageQuery ⟨.javascript, .ofString pageQuery, .pageQuery⟩ :=
      ⟨rfl, ht, [], [.tsx], hl, by simp⟩
    have he : [silent, offering].flatMap (·.offered "a.js" "z") = ["const =;"] ++ pageQuery :: ["graphql"] := rfl
    have h := (source_exact hp "a.js" "z").candidateTaken hb he hc hd
    simpa [failures, hl, candidateFailure, Language.name] using h

end Reading

end QueryGlean
