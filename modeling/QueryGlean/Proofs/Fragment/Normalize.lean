import QueryGlean.Fragment.OfTree
import QueryGlean.Proofs.Outcome

namespace QueryGlean

open Outcome

variable {m : Matcher} {src : Source} {path : String} {warned : List Nat} {f : Find} {fs : List Find}
variable {g : Fragment} {gs : List Fragment} {q : Query} {d : Graphql.Placed} {w : Diagnostic}

namespace Find

theorem fragment_eq_ok_iff :
    f.fragment src path q d = .ok g ↔ ∃ e, named path q.hash d.definition = .ok e ∧ e.2.isDefining ∧ g = {
      name := e.1
      sourceText := q.rawText
      contentHash := q.hash
      kind := f.kind
      locationKey := locationKey (src.byteOffset f.template.start) d.start
      filePath := path
      line := src.line f.template.start
      column := src.column f.template.start
      definition := e.2 } := by
  unfold fragment
  constructor
  case mp =>
    intro h
    have ⟨e, he, h⟩ := ok_of_bind h
    dsimp only at h
    split at h
    case isFalse   => cases h
    case isTrue hd => exact ⟨e, he, hd, (Except.ok.inj h).symm⟩
  case mpr =>
    intro ⟨e, he, hd, hg⟩
    rw [he, hg]
    change (if e.2.isDefining then _ else _) = _
    rw [if_pos hd]
    rfl

theorem fragment_eq_ok (h : f.fragment src path q d = .ok g) :
    g.kind = f.kind ∧ g.locationKey = locationKey (src.byteOffset f.template.start) d.start := by
  have ⟨_, _, _, hg⟩ := fragment_eq_ok_iff.mp h
  exact hg ▸ ⟨rfl, rfl⟩

end Find

namespace Matcher

def Gives (m : Matcher) (src : Source) (path : String) (f : Find) (gs : List Fragment) : Prop :=
  ∃ q, m.extract src path f.template = .ok q ∧ f.fragments src path q = .ok gs

theorem gives_of_normalize (h : (m.normalize src path warned f).result = .ok gs) :
    m.Gives src path f gs := by
  unfold normalize at h
  split at h
  case _ => cases h
  case _ q hq =>
    dsimp only at h
    split at h
    · exact ⟨q, hq, h⟩
    · exact ⟨q, hq, h⟩

namespace Gives

theorem mem_iff (h : m.Gives src path f gs) (hq : m.extract src path f.template = .ok q) :
    g ∈ gs ↔ ∃ d ∈ q.definitions, f.fragment src path q d = .ok g := by
  have ⟨q', hq', hg⟩ := h
  cases Except.ok.inj (hq ▸ hq')
  exact mem_of_mapM hg

theorem exists_fragment (h : m.Gives src path f gs) (hq : m.extract src path f.template = .ok q)
    (hd : d ∈ q.definitions) : ∃ g, f.fragment src path q d = .ok g := by
  have ⟨q', hq', hg⟩ := h
  cases Except.ok.inj (hq ▸ hq')
  exact ok_of_mem_mapM hg hd

theorem kind_eq (h : m.Gives src path f gs) (hg : g ∈ gs) : g.kind = f.kind := by
  have ⟨_, hq, _⟩ := h
  have ⟨_, _, hf⟩ := (h.mem_iff hq).mp hg
  exact (Find.fragment_eq_ok hf).left

end Gives

def given (m : Matcher) (src : Source) (path : String) (f : Find) : List Fragment :=
  (m.normalize src path [] f).result.toOption.getD []

theorem Gives.given_eq (h : m.Gives src path f gs) : m.given src path f = gs := by
  have ⟨q, hq, hg⟩ := h
  unfold given normalize
  rw [hq]
  dsimp only
  split <;> simp [hg, Except.toOption]

-- The core lemma for what a file gives: no find is lost, and the finds do not mix.
theorem normalizeAll_eq_ok (h : (m.normalizeAll src path warned fs).1 = .ok gs) :
    gs = fs.flatMap (m.given src path) ∧ ∀ f ∈ fs, m.Gives src path f (m.given src path f) := by
  induction fs generalizing warned gs
  case nil =>
    cases h
    simp
  case cons f fs hi =>
    unfold normalizeAll at h
    dsimp only at h
    split at h
    case _ => cases h
    case _ here hh =>
      have ⟨rest, hr, hg⟩ := ok_of_map h
      have ⟨hi₁, hi₂⟩ := hi hr
      have hf := gives_of_normalize hh
      have he := hf.given_eq
      constructor
      case left  => rw [List.flatMap_cons, he, ← hi₁, hg]
      case right =>
        intro f' hf'
        cases List.mem_cons.mp hf'
        case inl h => exact h ▸ he.symm ▸ hf
        case inr h => exact hi₂ f' h

theorem eq_globalTag_of_mem_normalize (h : w ∈ (m.normalize src path warned f).warnings) :
    w = .globalTag path m.settings.tagName m.settings.moduleName := by
  unfold normalize at h
  split at h
  case h_1 => cases h
  case h_2 =>
    dsimp only at h
    split at h
    case isTrue  => exact List.mem_singleton.mp h
    case isFalse => cases h

theorem eq_globalTag_of_mem_normalizeAll (h : w ∈ (m.normalizeAll src path warned fs).2) :
    w = .globalTag path m.settings.tagName m.settings.moduleName := by
  induction fs generalizing warned
  case nil => cases h
  case cons f fs hi =>
    unfold normalizeAll at h
    dsimp only at h
    split at h
    case h_1 => exact eq_globalTag_of_mem_normalize h
    case h_2 => exact (List.mem_append.mp h).elim eq_globalTag_of_mem_normalize hi

end Matcher

end QueryGlean
