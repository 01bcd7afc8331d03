import QueryGlean.Proofs.Query.Spelling
import QueryGlean.Proofs.Extraction.Basic
import QueryGlean.Proofs.FileTree

namespace QueryGlean

theorem occursIn_iff_isInfix {part cs : List Char} : occursIn part cs ↔ part <:+: cs := by
  induction cs
  case nil => cases part <;> simp [occursIn]
  case cons c cs hi =>
    simp only [occursIn, Bool.or_eq_true, List.isPrefixOf_iff_prefix, hi]
    exact List.infix_cons_iff.symm

theorem Source.spells_ofString_iff {text name : String} :
    (Source.ofString text).Spells name ↔ occursIn name.toList text.toList := by
  simp [Spells, ofString, occursIn_iff_isInfix]

variable {settings : Settings} {src : Source} {path text : String}

-- The tree need not be one that a reader makes of the text.
theorem Fragment.ofTree_eq_ok_nil (root : Tree)
    (hd : settings.tagName ≠ Binding.defaultExport) (hw : settings.tagName ≠ Binding.wholeModule)
    (h : ¬src.Spells settings.tagName) : (Fragment.ofTree settings path src root).1 = .ok [] := by
  have hf : ((Matcher.ofTree settings src root).locate src root).filterMap Sighting.find? = [] :=
    Matcher.finds_eq_nil hd hw h
  simp only [Fragment.ofTree, hf, Matcher.normalizeAll]
  rfl

theorem Parsed.source_of_first? {ls : List Language} {p : Parsed} (h : first? src ls = some p) :
    p.source = src := by
  induction ls
  case nil => simp [first?] at h
  case cons l ls hi =>
    simp only [first?] at h
    split at h
    · cases h; rfl
    · exact hi h

theorem Reading.fst_source_nil (path text : String) :
    (Reading.source [] path text).1 =
      .ok (Parsed.first? (Source.ofString text) (Language.candidates (Path.ofString path))) := by
  rw [← Parsed.fst_attempt]
  simp only [source, Preprocessor.candidates]
  split <;> simp_all

namespace Extractor

variable {x : Extractor} {files : FileTree} {cache : Cache}

theorem sight_eq_settled (hr : files.readText (Path.ofString path) = .ok text)
    (ht : ¬occursIn x.settings.tagName.toList text.toList) :
    x.sight files path = .settled (.ok { filePath := path, status := .notQueryFile }) [] := by
  simp only [sight, hr, ht, Bool.false_eq_true, ↓reduceIte]

theorem fst_outcome_of_source_none (h : (Reading.source x.preprocessors path text).1 = .ok none) :
    (x.outcome path text).1 = .ok ⟨[], .parseError⟩ := by
  unfold outcome
  split <;> simp_all

theorem fst_outcome_of_fragments_nil {p : Parsed}
    (h : (Reading.source x.preprocessors path text).1 = .ok (some p))
    (hf : (p.fragments x.settings path).1 = .ok []) :
    (x.outcome path text).1 = .ok ⟨[], .noFragments⟩ := by
  unfold outcome
  split <;> simp_all

-- Neither an entry nor an outcome has the status of a file that is not looked at.
theorem status_eq_notQueryFile_iff {r : ExtractionResult}
    (hc : ∀ key e, cache.find? key = some e → e.WellFormed) (hr : files.readText (Path.ofString path) = .ok text)
    (h : (x.extract files cache path).result = .ok r) :
    r.status = .notQueryFile ↔ ¬occursIn x.settings.tagName.toList text.toList := by
  -- Every entry comes from a file that has been looked at.
  have looked {e : CacheEntry} {b : Bool} (he : e.WellFormed) : (answer path e b).status ≠ .notQueryFile := by
    rw [answer_status he]
    intro hs
    have hm := he.status_mem
    simp [hs] at hm
  cases hs : x.sight files path
  case settled r' es =>
    rw [extract_of_settled hs] at h
    cases h
    cases settlesAtSight hs
    case unreadable hn _ => cases hr.symm.trans hn
    case untagged hn ht =>
      cases hr.symm.trans hn
      exact iff_of_true rfl ht
  case contents t =>
    have ⟨hn, ht⟩ := sight_eq_contents_iff.mp hs
    cases hr.symm.trans hn
    refine iff_of_false ?_ (not_not_intro ht)
    cases he : cache.find? (contentKey path text)
    case some e =>
      rw [extract_of_hit hs he] at h
      cases h
      exact looked (hc _ e he)
    case none =>
      rw [result_of_miss hs he] at h
      obtain ⟨e, ho, rfl⟩ := Outcome.ok_of_map h
      exact looked (wellFormed_of_outcome ho)

theorem fastPath_loses_nothing (path : String) (hx : x.preprocessors = [])
    (hd : x.settings.tagName ≠ Binding.defaultExport) (hw : x.settings.tagName ≠ Binding.wholeModule) :
    (∀ files cache r, (∀ key e, cache.find? key = some e → e.WellFormed) →
      files.readText (Path.ofString path) = .ok text → (x.extract files cache path).result = .ok r →
      (r.status = .notQueryFile ↔ ¬x.settings.tagName.toList <:+: text.toList)) ∧
    (¬x.settings.tagName.toList <:+: text.toList →
      (∀ files cache, files.readText (Path.ofString path) = .ok text →
        x.extract files cache path = ⟨.ok { filePath := path, status := .notQueryFile }, cache, []⟩) ∧
      (∀ l root, parseIn l (Source.ofString text) = some root →
        (Parsed.fragments ⟨l, Source.ofString text, root⟩ x.settings path).1 = .ok []) ∧
      (x.outcome path text).1 = .ok ⟨[],
        if (Parsed.first? (Source.ofString text) (Language.candidates (Path.ofString path))).isSome
        then .noFragments else .parseError⟩) := by
  rw [← occursIn_iff_isInfix]
  refine ⟨fun files cache r hc hr h => status_eq_notQueryFile_iff hc hr h, fun ht => ?_⟩
  have hs : ¬(Source.ofString text).Spells x.settings.tagName := mt Source.spells_ofString_iff.mp ht
  refine ⟨?_, fun l root _ => Fragment.ofTree_eq_ok_nil root hd hw hs, ?_⟩
  case refine_1 =>
    intro files cache hr
    simp only [extract, sight_eq_settled hr ht]
  case refine_2 =>
    have h := hx ▸ Reading.fst_source_nil path text
    cases hp : Parsed.first? (Source.ofString text) (Language.candidates (Path.ofString path))
    case none => exact fst_outcome_of_source_none (hp ▸ h)
    case some p =>
      have hf : (p.fragments x.settings path).1 = .ok [] :=
        Fragment.ofTree_eq_ok_nil p.root hd hw (Parsed.source_of_first? hp ▸ hs)
      exact fst_outcome_of_fragments_nil (hp ▸ h) hf

-- A template with the tag of another library.
theorem fastPath_loses_nothing_of_otherTag :
    let x : Extractor := { settings := {} }
    let text := "css\x60a\x60"
    let files : FileTree := { entries := [(["a.js"], .file [0x63, 0x73, 0x73, 0x60, 0x61, 0x60])] }
    ¬x.settings.tagName.toList <:+: text.toList ∧ files.readText (Path.ofString "a.js") = .ok text ∧
      x.extract files {} "a.js" = ⟨.ok { filePath := "a.js", status := .notQueryFile }, {}, []⟩ ∧
      (∀ l root, parseIn l (Source.ofString text) = some root →
        (Parsed.fragments ⟨l, Source.ofString text, root⟩ x.settings "a.js").1 = .ok []) ∧
      (x.outcome "a.js" text).1 = .ok ⟨[],
        if (Parsed.first? (Source.ofString text) [.javascript, .tsx]).isSome then .noFragments else .parseError⟩ := by
  intro x text files
  have ht : ¬x.settings.tagName.toList <:+: text.toList := by
    rw [← occursIn_iff_isInfix]
    decide
  have hn : FileTree.hasNul (Path.ofString "a.js") = false := FileTree.hasNul_eq_false (by decide +kernel)
  have hd : Utf8.decode [0x63, 0x73, 0x73, 0x60, 0x61, 0x60] = .ok text := Outcome.ok_of_toOption (by decide +kernel)
  have hr : files.readText (Path.ofString "a.js") = .ok text :=
    FileTree.readText_eq_ok_iff.mpr ⟨hn, ["a.js"], _, _, rfl, hd, by decide +kernel⟩
  have ⟨hx, hf, ho⟩ := (fastPath_loses_nothing (x := x) "a.js" rfl (by decide) (by decide)).right ht
  have hl : Language.candidates (Path.ofString "a.js") = [.javascript, .tsx] := by decide +kernel
  exact ⟨ht, hr, hx files {} hr, hf, hl ▸ ho⟩

end Extractor

end QueryGlean
