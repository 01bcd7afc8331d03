import Mathlib
import QueryGlean.Proofs.Extraction.Errors
import QueryGlean.Proofs.Fragment.AllOrNothing
import QueryGlean.Proofs.Fragment.Name
import QueryGlean.Proofs.Graphql.Faults

namespace QueryGlean

open Markup (Inert not_mem_append not_mem_toString)
open Outcome

variable {s path text name usage error : String} {cs : List Char} {c : Char} {p : Path}

theorem mem_of_mem_split {part : List Char} (h : part ∈ Path.split cs) (hc : c ∈ part) : c ∈ cs := by
  fun_induction Path.split cs generalizing part <;> grind

theorem Path.not_mem_toString (h : ∀ part ∈ p.parts, '[' ∉ part.toList) : '[' ∉ (toString p).toList := by
  have ha : '[' ∉ p.anchor.text.toList := by cases p.anchor <;> simp [Anchor.text]
  have hs : '[' ∉ ("/".intercalate p.parts).toList := by
    rw [String.toList_intercalate]
    intro hm
    rcases Graphql.mem_of_mem_intercalate hm with hm | ⟨cs, hcs, hm⟩
    · simp at hm
    · obtain ⟨part, hp, rfl⟩ := List.mem_map.mp hcs
      exact h part hp hm
  change '[' ∉ (Path.toString p).toList
  unfold Path.toString
  split
  case h_1 => simp
  case h_2 => exact not_mem_append ha hs

theorem Path.not_mem_parts_ofString (h : '[' ∉ s.toList) : ∀ part ∈ (ofString s).parts, '[' ∉ part.toList := by
  intro part hp
  simp only [ofString, List.mem_map, List.mem_filter] at hp
  obtain ⟨cs, ⟨hs, _⟩, rfl⟩ := hp
  rw [String.toList_ofList]
  exact fun hm => h (mem_of_mem_split hs hm)

theorem not_mem_hexDigits (n k : Nat) : '[' ∉ hexDigits n k := by
  induction k generalizing n
  case zero => simp [hexDigits]
  case succ k hi =>
    have hd : ∀ m < 16, '[' ≠ hexDigit m := by decide
    have hn := hd (n % 16) (Nat.mod_lt _ (by decide))
    simp [hexDigits, hi, hn]

theorem not_mem_escapeChar {quote : Char} (hc : c ≠ '[') : '[' ∉ Quoted.escapeChar quote c := by
  have hx (n k : Nat) : '[' ∉ hexDigits n k := not_mem_hexDigits n k
  unfold Quoted.escapeChar
  dsimp only
  split_ifs <;> simp [hx, hc.symm]

theorem not_mem_quoted (h : '[' ∉ s.toList) : '[' ∉ (quoted s).toList := by
  have hq : Quoted.quoteFor s.toList ≠ '[' := by
    unfold Quoted.quoteFor
    split <;> decide
  have he : ∀ c ∈ s.toList, '[' ∉ Quoted.escapeChar (Quoted.quoteFor s.toList) c := fun c hc =>
    not_mem_escapeChar fun hb => h (hb ▸ hc)
  simpa [quoted, hq.symm] using he

theorem Utf8.Fault.not_mem_message (f : Utf8.Fault) : '[' ∉ f.message.toList := by
  have hn (n : Nat) : '[' ∉ (toString n).toList := not_mem_toString n
  have hf : '[' ∉ f.flaw.message.toList := by cases f.flaw <;> simp [Utf8.Flaw.message]
  have hx : '[' ∉ (String.ofList (hexDigits f.first.toNat 2)).toList := by simp [not_mem_hexDigits]
  unfold Utf8.Fault.message
  refine not_mem_append (not_mem_append (not_mem_append ?_ ?bytes) ?_) hf
  case bytes =>
    split
    case isTrue =>
      exact not_mem_append (not_mem_append (by simp) hx) (not_mem_append (by simp [toString]) (hn _))
    case isFalse =>
      exact not_mem_append (not_mem_append (not_mem_append (by simp [toString]) (hn _)) (by simp [toString])) (hn _)
  all_goals simp [toString]

-- The number of an error stands in brackets, and opens no tag.
theorem FileTree.inert_of_readText {files : FileTree} {e : ReadError} (h : files.readText p = .error e)
    (hp : '[' ∉ (toString p).toList) : Inert e.message := by
  have system (e : FileError) : Inert (e.message p) := by
    have ht : '[' ∉ e.text.toList := by cases e <;> simp [FileError.text]
    have hn : '[' ∉ (toString e.number).toList := not_mem_toString e.number
    refine (((Inert.append ?_ (.of_not_mem hn)).append ?_).append (.of_not_mem ht)).append ?_ |>.append
      (.of_not_mem (not_mem_quoted hp))
    all_goals decide +kernel
  unfold readText at h
  split at h
  case isTrue =>
    cases h
    exact .of_not_mem (by simp [ReadError.message])
  case isFalse =>
    split at h
    case h_1 e _ => cases h; exact system e
    case h_2     => cases h; exact system .isDirectory
    case h_3 =>
      split at h
      case h_1 fault _ => cases h; exact .of_not_mem fault.not_mem_message
      case h_2         => cases h

namespace Diagnostic

theorem inert_unknownQueryVariable (hp : '[' ∉ path.toList) (hn : '[' ∉ name.toList) (hu : '[' ∉ usage.toList) :
    Inert (unknownQueryVariable path name usage).message := by
  -- Two texts in one sentence.
  have sentence {s t u : String} (hs : '[' ∉ s.toList) (ht : '[' ∉ t.toList) (hr : '[' ∉ u.toList) :
      '[' ∉ (s ++ usage ++ t ++ path ++ u).toList :=
    not_mem_append (not_mem_append (not_mem_append (not_mem_append hs hu) ht) hp) hr
  refine .of_not_mem (not_mem_append (not_mem_append (not_mem_append (not_mem_append ?_ ?_) ?_) ?_) ?_)
  · exact not_mem_append (not_mem_append (by simp [toString]) hn) (by simp [toString])
  · exact sentence (by simp [toString]) (by simp [toString]) (by simp [toString])
  · simp
  · simp
  · exact sentence (by simp [toString]) (by simp [toString]) (by simp [toString])

theorem inert_globalTag {tagName moduleName : String} (hp : '[' ∉ path.toList) (ht : '[' ∉ tagName.toList)
    (hm : '[' ∉ moduleName.toList) : Inert (globalTag path tagName moduleName).message := by
  refine .of_not_mem ?_
  simp [globalTag, toString, hp, ht, hm]

theorem inert_readFailed (hp : '[' ∉ path.toList) (he : Inert error) : Inert (readFailed path error).message := by
  have hs : '[' ∉ (s!"There was a problem reading the file: {path}\n\n").toList := by simp [toString, hp]
  exact (Inert.of_not_mem hs).append he

theorem inert_parseFailed (hp : '[' ∉ path.toList) : Inert (parseFailed path).message := by
  refine .of_not_mem (not_mem_append (not_mem_append (not_mem_append ?_ ?_) ?_) ?_)
  · exact not_mem_append (not_mem_append (by simp [toString]) hp) (by simp [toString])
  all_goals simp

theorem inert_queryInvalid (hp : '[' ∉ path.toList) (he : Inert error) : Inert (queryInvalid path error).message := by
  have hs : '[' ∉ (s!"There was a problem parsing the GraphQL query in file: {path}\n\n").toList := by
    simp [toString, hp]
  exact (Inert.of_not_mem hs).append he

end Diagnostic

variable {settings : Settings} {m : Matcher} {src : Source} {root t : Tree} {r : Unresolved} {q : Query}
variable {kind : FragmentKind} {ignored : List String} {T : TaggedTemplate} {gs : List Fragment}

theorem Source.Spells.not_mem (h : src.Spells name) (hs : '[' ∉ src.chars.toList) : '[' ∉ name.toList :=
  fun hm => hs (h.subset hm)

theorem spells_of_identifier (h : Item.ofTree src t = .identifier name) : src.Spells name := by
  cases Item.isOf h
  case identifier ht => exact ht ▸ Source.spells_text t

theorem spells_of_element (h : Item.ofTree src t = .element (some name)) : src.Spells name := by
  have inTag {tag : Option Tree} (h : (tag.bind fun u => (u.child? .name).bind fun n =>
      if n.kind = .identifier then some (n.text src) else none) = some name) : src.Spells name := by
    obtain ⟨u, _, h⟩ := Option.bind_eq_some_iff.mp h
    obtain ⟨n, _, hn⟩ := Option.bind_eq_some_iff.mp h
    split at hn
    case isTrue  => cases hn; exact Source.spells_text n
    case isFalse => cases hn
  cases Item.isOf h
  case element hn =>
    unfold Item.elementName at hn
    split at hn
    case isTrue  => exact inTag hn
    case isFalse => exact inTag hn

namespace Matcher

theorem spells_of_resolve (h : .unresolved r ∈ m.resolve src kind usage ignored t) :
    src.Spells r.name ∧ r.usage = usage := by
  obtain ⟨u, _, h⟩ := List.mem_flatMap.mp h
  unfold resolveNode at h
  split at h
  case h_1 =>
    dsimp only at h
    split at h <;> simp at h
  case h_3 => cases h
  case h_2 hn =>
    split at h
    case isTrue => cases h
    case isFalse =>
      unfold resolveName at h
      split at h
      case h_1 =>
        cases List.mem_singleton.mp h
        exact ⟨spells_of_identifier hn, rfl⟩
      case h_2 => simp at h

theorem spells_of_componentSightings (h : .unresolved r ∈ m.componentSightings src root) :
    src.Spells r.name ∧ src.Spells m.settings.component ∧ r.usage = s!"<{m.settings.component}>" := by
  obtain ⟨u, _, h⟩ := List.mem_flatMap.mp h
  split at h
  case h_2 => cases h
  case h_1 n he =>
    split at h
    case isFalse => cases h
    case isTrue hn =>
      obtain ⟨t, _, h⟩ := List.mem_flatMap.mp h
      split at h
      case h_2 => cases h
      case h_1 =>
        split at h
        case isFalse => cases h
        case isTrue =>
          have ⟨hr, hu⟩ := spells_of_resolve h
          exact ⟨hr, spells_of_element (hn ▸ he), hu⟩

theorem spells_of_hookSightings (h : .unresolved r ∈ m.hookSightings src root) :
    src.Spells r.name ∧ src.Spells m.settings.hookName ∧ r.usage = m.settings.hookName := by
  obtain ⟨u, _, h⟩ := List.mem_flatMap.mp h
  split at h
  case h_2 => cases h
  case h_1 callee _ =>
    split at h
    case isFalse => cases h
    case isTrue hc =>
      have ⟨hr, hu⟩ := spells_of_resolve h
      exact ⟨hr, hc.right.left ▸ Source.spells_text callee, hu⟩

theorem not_mem_of_unresolved (h : .unresolved r ∈ m.locate src root) (hs : '[' ∉ src.chars.toList) :
    '[' ∉ r.name.toList ∧ '[' ∉ r.usage.toList := by
  rcases List.mem_append.mp h with h | h
  case inr =>
    obtain ⟨u, _, h⟩ := List.mem_flatMap.mp h
    split at h
    case h_1 =>
      obtain ⟨T, _, h⟩ := List.mem_filterMap.mp h
      split at h <;> cases h
    case h_2 => cases h
  case inl =>
    rcases List.mem_append.mp h with h | h
    case inl =>
      have ⟨hn, hc, hu⟩ := spells_of_componentSightings h
      refine ⟨hn.not_mem hs, hu ▸ not_mem_append (not_mem_append ?_ (hc.not_mem hs)) ?_⟩ <;> simp [toString]
    case inr =>
      have ⟨hn, hc, hu⟩ := spells_of_hookSightings h
      exact ⟨hn.not_mem hs, hu ▸ hc.not_mem hs⟩

theorem inert_of_extract {e : QueryError} (h : m.extract src path T = .error e)
    (hs : Graphql.IsPlain src.chars.toList) : Inert e.message := by
  have hr : Graphql.IsPlain (T.rawText src).toList := hs.of_infix (Source.spells_inside T.template)
  have plain : Inert QueryError.Cause.interpolation.message ∧ Inert QueryError.Cause.empty.message := by
    constructor <;> decide +kernel
  cases h ▸ m.extracts src path T
  case interpolated => exact plain.left
  case blank        => exact plain.right
  case invalid he   =>
    have hm := Graphql.SyntaxError.inert_message (Graphql.isInert_of_parse hr he) hr.bracket
    refine ((Inert.append ?_ (.of_not_mem hr.bracket)).append ?_).append hm <;> decide +kernel

end Matcher

theorem not_mem_camelCase (path : String) : '[' ∉ (Name.camelCase path).toList := by
  intro h
  have hm : '['.toLower ∈ (Name.camelCase path).toList.map Char.toLower := List.mem_map_of_mem h
  rw [Name.map_toLower_camelCase] at hm
  obtain ⟨c, hc, he⟩ := List.mem_map.mp hm
  have hw := (List.mem_filter.mp hc).right
  by_cases hu : c.isUpper
  case pos =>
    have hl : c.toLower.isLower := by simp [Char.isAlpha, hu]
    rw [he] at hl
    revert hl
    decide
  case neg =>
    rw [Char.toLower_eq_of_not_isUpper hu] at he
    rw [he] at hw
    revert hw
    decide

-- A fragment has a name of the query's text, or one that is made up of letters and digits.
theorem Matcher.Makes.not_mem_name {f : Find} {d : Graphql.Placed} {g : Fragment} (h : m.Makes src path f d g)
    (hs : Graphql.IsPlain src.chars.toList) : '[' ∉ g.name.toList := by
  have hr : Graphql.IsPlain (f.template.rawText src).toList := hs.of_infix (Source.spells_inside f.template.template)
  cases hd : d.definition.name?
  case none =>
    have ⟨hc, hn, _⟩ := h.of_anonymous hd
    rw [hn, hc]
    exact not_mem_append (not_mem_camelCase path) (not_mem_toString (Digest.ofText _).a.toNat)
  case some n =>
    have ⟨ds, hp, hm⟩ := h.exists_parse
    obtain ⟨q, _, _, hf⟩ := h
    obtain ⟨e, he, _, rfl⟩ := Find.fragment_eq_ok_iff.mp hf
    simp only [named, hd] at he
    cases he
    exact Graphql.isNamedPlainly_of_parse hr hp d hm n hd

namespace Extractor

variable {x : Extractor} {files : FileTree} {es : List Event} {o : Except Breakdown CacheEntry}

theorem inert_of_sight {r : Except Breakdown ExtractionResult} (h : x.sight files path = .settled r es)
    (hp : '[' ∉ path.toList) {d : Diagnostic} (hd : .reported d ∈ es) : Inert d.message := by
  have hs : '[' ∉ (toString (Path.ofString path)).toList := Path.not_mem_toString (Path.not_mem_parts_ofString hp)
  cases settlesAtSight h
  case nulPath  => cases hd
  case untagged => cases hd
  case unreadable he _ =>
    simp only [List.mem_cons, Event.reported.injEq, List.not_mem_nil, or_false, reduceCtorEq] at hd
    exact hd ▸ Diagnostic.inert_readFailed hp (FileTree.inert_of_readText he hs)

theorem inert_of_fragments {p : Parsed} (hs : Graphql.IsPlain p.source.chars.toList) (hp : '[' ∉ path.toList)
    (ht : '[' ∉ settings.tagName.toList) (hm : '[' ∉ settings.moduleName.toList) :
    ∀ d ∈ (p.fragments settings path).2, Inert d.message := by
  refine List.forall_mem_append.mpr ⟨List.forall_mem_map.mpr fun r hr => ?_, fun d hd => ?_⟩
  · obtain ⟨s, hl, hr⟩ := List.mem_filterMap.mp hr
    cases s <;> cases hr
    have ⟨hn, hu⟩ := Matcher.not_mem_of_unresolved hl hs.bracket
    exact Diagnostic.inert_unknownQueryVariable hp hn hu
  · rw [Matcher.eq_globalTag_of_mem_normalizeAll hd]
    exact Diagnostic.inert_globalTag hp ht hm

theorem inert_of_fragments_error {p : Parsed} {e : QueryError} (hs : Graphql.IsPlain p.source.chars.toList)
    (h : (p.fragments settings path).1 = .error (.query e)) : Inert e.message := by
  have hf := p.error?_fragments settings path
  rw [h] at hf
  obtain ⟨f, _, hf⟩ := List.exists_of_findSome?_eq_some (f := _) hf.symm
  unfold Matcher.failure? at hf
  split at hf
  case h_1 he =>
    cases hf
    exact Matcher.inert_of_extract he hs
  case h_2 =>
    obtain ⟨u, _, hu⟩ := Option.map_eq_some_iff.mp hf
    cases hu

theorem not_mem_name_of_fragments {p : Parsed} (hs : Graphql.IsPlain p.source.chars.toList)
    (h : (p.fragments settings path).1 = .ok gs) : ∀ g ∈ gs, '[' ∉ g.name.toList := by
  obtain ⟨all, hn, rfl⟩ := ok_of_map h
  intro g hg
  have hm : g ∈ all := List.mem_of_find?_eq_some (Fragment.mem_dedupe.mp hg)
  obtain ⟨f, _, d, hf⟩ := (Matcher.mem_normalizeAll hn).mp hm
  exact hf.not_mem_name hs

theorem isPlain_of_source {p : Parsed} (hs : Graphql.IsPlain text.toList)
    (h : Reading.source [] path text = (.ok (some p), es)) : Graphql.IsPlain p.source.chars.toList := by
  have hf := Reading.fst_source_nil path text
  rw [h] at hf
  rw [Parsed.source_of_first? (Except.ok.inj hf).symm]
  simpa [Source.ofString] using hs

theorem inert_of_outcome (hx : x.preprocessors = []) (hs : Graphql.IsPlain text.toList) (hp : '[' ∉ path.toList)
    (ht : '[' ∉ x.settings.tagName.toList) (hm : '[' ∉ x.settings.moduleName.toList) {d : Diagnostic}
    (hd : .reported d ∈ (x.outcome path text).2) : Inert d.message := by
  -- What is told before the queries are read, and what is told once they are.
  have told {es : List Event} {o} (he : Reading.source x.preprocessors path text = (o, es))
      (hd : .reported d ∈ es) : Inert d.message := by
    have hd : .reported d ∈ (Reading.source [] path text).2 := by rwa [← hx, he]
    rw [(Reading.of_reported_source hd).left]
    exact Diagnostic.inert_parseFailed hp
  have known {p : Parsed} {es : List Event} (he : Reading.source x.preprocessors path text = (.ok (some p), es))
      (hd : .reported d ∈ es ++ (p.fragments x.settings path).2.map .reported) : Inert d.message := by
    rcases List.mem_append.mp hd with hd | hd
    case inl => exact told he hd
    case inr => exact inert_of_fragments (isPlain_of_source hs (hx ▸ he)) hp ht hm d (by simpa using hd)
  have hc := x.comesTo_outcome path text
  generalize x.outcome path text = o at hd hc
  cases hc
  case broken he        => exact told he hd
  case unparsed he      => exact told he hd
  case bare he _        => exact known he hd
  case extracted he _ _ => exact known he hd
  case unfit he _       => exact known he hd
  case refused he hf =>
    rcases List.mem_append.mp hd with hd | hd
    case inl => exact known he hd
    case inr =>
      simp only [List.mem_cons, Event.reported.injEq, List.not_mem_nil, or_false, reduceCtorEq] at hd
      exact hd ▸ Diagnostic.inert_queryInvalid hp (inert_of_fragments_error (isPlain_of_source hs (hx ▸ he)) hf)

theorem not_mem_name_of_outcome {e : CacheEntry} (hx : x.preprocessors = []) (hs : Graphql.IsPlain text.toList)
    (h : (x.outcome path text).1 = .ok e) : ∀ f ∈ e.fragments, '[' ∉ f.name.toList := by
  have hc := x.comesTo_outcome path text
  generalize x.outcome path text = o at h hc
  cases hc <;> cases h
  case unparsed          => simp
  case bare              => simp
  case refused           => simp
  case extracted he hf _ => exact not_mem_name_of_fragments (isPlain_of_source hs (hx ▸ he)) hf

end Extractor

end QueryGlean
