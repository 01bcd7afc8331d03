import Mathlib
import QueryGlean.Proofs.Fragment.Name

namespace QueryGlean

namespace Name

variable {c : Char} {cs w v h : List Char} {ws : List (List Char)}

def isNumber (w : List Char) : Bool :=
  w.all isDecimalDigit

theorem not_isDecimalDigit_of_isAlpha (h : c.isAlpha) : isDecimalDigit c = false := by
  by_contra hd
  have hp : Graphql.Lexer.isNamePart c := by simp [Graphql.Lexer.isNamePart, Char.isAlphanum, h]
  have hd := isDigit_of_isDecimalDigit (Bool.of_not_eq_false hd) hp
  simp [Char.isAlpha, Char.isUpper, Char.isLower, Char.isDigit, UInt32.le_iff_toNat_le] at h hd
  omega

@[simp]
theorem isDecimalDigit_toLower (c : Char) : isDecimalDigit c.toLower = isDecimalDigit c := by
  by_cases h : c.isUpper
  case neg => rw [Char.toLower_eq_of_not_isUpper h]
  case pos =>
    have ha : c.isAlpha := by simp [Char.isAlpha, h]
    rw [not_isDecimalDigit_of_isAlpha ha, not_isDecimalDigit_of_isAlpha (by simpa using ha)]

@[simp]
theorem isNumber_map_toLower (w : List Char) : isNumber (w.map Char.toLower) = isNumber w := by
  simp [isNumber, Function.comp_def]

@[simp]
theorem isNumber_capitalize (w : List Char) : isNumber (capitalize w) = isNumber w := by
  rw [← isNumber_map_toLower, map_toLower_capitalize, isNumber_map_toLower]

theorem map_toLower_of_isNumber (h : isNumber w) : w.map Char.toLower = w := by
  have lower {c} (hc : c ∈ w) : c.toLower = c := by
    refine Char.toLower_eq_of_not_isUpper fun hu => ?_
    have hd := List.all_eq_true.mp h c hc
    simp [not_isDecimalDigit_of_isAlpha (c := c) (by simp [Char.isAlpha, hu])] at hd
  exact (List.map_congr_left fun c => lower).trans (List.map_id' w)

theorem capitalize_of_isNumber (h : isNumber w) : capitalize w = w := by
  cases w
  case nil => rfl
  case cons c cs =>
    have hl := map_toLower_of_isNumber h
    have hd := List.all_eq_true.mp h c List.mem_cons_self
    have hu : c.toUpper = c := by
      refine Char.toUpper_eq_of_not_isLower fun hl => ?_
      simp [not_isDecimalDigit_of_isAlpha (c := c) (by simp [Char.isAlpha, hl])] at hd
    simp_all [capitalize]

namespace IsWord

theorem isAlpha_eq (h : IsWord w) (hc : c ∈ w) : c.isAlpha = !isNumber w := by
  cases h.pure
  case inl ha =>
    have hn : isNumber w = false := List.all_eq_false.mpr ⟨c, hc, by simp [not_isDecimalDigit_of_isAlpha (ha c hc)]⟩
    simp [hn, ha c hc]
  case inr hd =>
    have hn : isNumber w := List.all_eq_true.mpr hd
    have ha : ¬c.isAlpha := fun ha => by simpa [not_isDecimalDigit_of_isAlpha ha] using hd c hc
    simp [hn, ha]

theorem map_toLower (h : IsWord w) : IsWord (w.map Char.toLower) := by
  refine ⟨by simpa using h.ne_nil, h.pure.imp (fun h => ?_) (fun h => ?_)⟩ <;> simpa using h

theorem capitalize (h : IsWord w) : IsWord (capitalize w) := by
  have ⟨hn, hp⟩ := h.map_toLower
  rw [← map_toLower_capitalize] at hn hp
  refine ⟨by simpa using hn, hp.imp (fun h => ?_) (fun h => ?_)⟩ <;> simpa using h

end IsWord

theorem isWord_of_mem_wordsWithin {fuel : Nat} (h : w ∈ wordsWithin fuel cs) : IsWord w := by
  fun_induction wordsWithin fuel cs
  case case1 => cases h
  case case2 => cases h
  case case3 hw hi =>
    cases h
    case head   => exact (word?_eq_some hw).2
    case tail h => exact hi h
  case case4 hi => exact hi h

theorem isWord_of_mem_words {s : String} (h : w ∈ words s) : IsWord w :=
  isWord_of_mem_wordsWithin h

def spelled : List (List Char) → List (List Char)
  | [] => []
  | w :: ws =>
    match spelled ws with
    | []      => [w.map Char.toLower]
    | v :: vs => if isNumber w && isNumber v then (w ++ v) :: vs else w.map Char.toLower :: v :: vs

def cased : List (List Char) → List (List Char)
  | [] => []
  | w :: ws => w.map Char.toLower :: ws.map capitalize

theorem camelCase_eq (s : String) : camelCase s = String.ofList (cased (words s)).flatten := by
  rw [camelCase]
  cases words s
  case nil  => rfl
  case cons => simp [cased, List.flatMap_def]

theorem isWord_of_mem_spelled (h : ∀ w ∈ ws, IsWord w) (hv : v ∈ spelled ws) : IsWord v := by
  fun_induction spelled ws generalizing v
  case case1 => cases hv
  case case2 w ws hs hi =>
    cases List.mem_singleton.mp hv
    exact (h w List.mem_cons_self).map_toLower
  case case3 w ws u vs hs hn hi =>
    rw [Bool.and_eq_true] at hn
    have hi {v} (hv : v ∈ u :: vs) : IsWord v := hi (fun w hw => h w (List.mem_cons_of_mem _ hw)) (hs ▸ hv)
    cases hv
    case tail hv => exact hi (List.mem_cons_of_mem _ hv)
    case head =>
      refine ⟨by simp [(h w List.mem_cons_self).ne_nil], .inr ?_⟩
      exact List.forall_mem_append.mpr ⟨List.all_eq_true.mp hn.1, List.all_eq_true.mp hn.2⟩
  case case4 w ws u vs hs hn hi =>
    cases hv
    case head    => exact (h w List.mem_cons_self).map_toLower
    case tail hv => exact hi (fun w hw => h w (List.mem_cons_of_mem _ hw)) (hs ▸ hv)

theorem map_toLower_of_mem_spelled (hv : v ∈ spelled ws) : v.map Char.toLower = v := by
  fun_induction spelled ws generalizing v
  case case1 => cases hv
  case case2 => simp_all [Function.comp_def]
  case case3 w ws u vs hs hn hi =>
    cases hv
    case head    => exact map_toLower_of_isNumber (by simpa [isNumber] using hn)
    case tail hv => exact hi (hs ▸ List.mem_cons_of_mem _ hv)
  case case4 w ws u vs hs hn hi =>
    cases hv
    case head    => simp [Function.comp_def]
    case tail hv => exact hi (hs ▸ hv)

theorem isNumber_append (w v : List Char) : isNumber (w ++ v) = (isNumber w && isNumber v) :=
  List.all_append

theorem isChain_spelled (ws : List (List Char)) :
    (spelled ws).IsChain fun v u => (isNumber v && isNumber u) = false := by
  fun_induction spelled ws
  case case1 => exact .nil
  case case2 => exact .singleton _
  case case3 w ws u vs hs hn hi =>
    rw [hs, List.isChain_cons] at hi
    exact List.isChain_cons.mpr ⟨fun x hx => by simp_all [isNumber_append], hi.2⟩
  case case4 w ws u vs hs hn hi =>
    exact List.isChain_cons_cons.mpr ⟨by simpa using hn, hs ▸ hi⟩

theorem flatMap_capitalize_spelled (ws : List (List Char)) :
    (spelled ws).flatMap capitalize = ws.flatMap capitalize := by
  have lower (w : List Char) : capitalize (w.map Char.toLower) = capitalize w := by
    cases w <;> simp [capitalize, Function.comp_def]
  fun_induction spelled ws
  case case1 => rfl
  case case2 w ws hs hi =>
    rw [hs] at hi
    simp [← hi, lower]
  case case3 w ws u vs hs hn hi =>
    have hc := capitalize_of_isNumber (isNumber_append w u ▸ hn)
    rw [Bool.and_eq_true] at hn
    rw [hs] at hi
    simp [← hi, hc, capitalize_of_isNumber hn.1, capitalize_of_isNumber hn.2]
  case case4 w ws u vs hs hn hi =>
    rw [hs] at hi
    simp [← hi, lower]

theorem flatten_cased_spelled (ws : List (List Char)) : (cased (spelled ws)).flatten = (cased ws).flatten := by
  have hc := flatMap_capitalize_spelled ws.tail
  simp only [List.flatMap_def] at hc
  fun_cases spelled ws
  case case1 => rfl
  case case2 w ws hs =>
    simp only [List.tail_cons, hs] at hc
    simp [cased, ← hc, Function.comp_def]
  case case3 w ws u vs hs hn =>
    rw [Bool.and_eq_true] at hn
    simp only [List.tail_cons, hs] at hc
    simp [cased, ← hc, map_toLower_of_isNumber hn.2, capitalize_of_isNumber hn.2]
  case case4 w ws u vs hs hn =>
    simp only [List.tail_cons, hs] at hc
    simp [cased, ← hc, Function.comp_def]

def goesOn (c d : Char) : Bool :=
  !d.isUpper && c.isAlpha == d.isAlpha

theorem isChain_goesOn (hw : IsWord w) (ht : ∀ c ∈ w.tail, c.isUpper = false) : w.IsChain (goesOn · ·) := by
  have hp : w.Pairwise fun _ _ => True := List.pairwise_of_forall fun _ _ => trivial
  refine hp.isChain.imp_of_mem_tail_imp fun c d hc hd _ => ?_
  simp [goesOn, ht d hd, hw.isAlpha_eq hc, hw.isAlpha_eq (List.mem_of_mem_tail hd)]

theorem isChain_map_toLower (hw : IsWord w) : (w.map Char.toLower).IsChain (goesOn · ·) := by
  refine isChain_goesOn hw.map_toLower fun c hc => ?_
  obtain ⟨d, _, rfl⟩ := List.mem_map.mp (List.mem_of_mem_tail hc)
  exact Char.isUpper_toLower_eq_false d

theorem isChain_capitalize (hw : IsWord w) : (capitalize w).IsChain (goesOn · ·) := by
  refine isChain_goesOn hw.capitalize fun c hc => ?_
  cases w
  case nil => cases hc
  case cons =>
    obtain ⟨d, _, rfl⟩ := List.mem_map.mp hc
    exact Char.isUpper_toLower_eq_false d

theorem breaks_capitalize (hv : IsWord v) (hw : IsWord w) (hn : (isNumber v && isNumber w) = false) :
    ∃ hv hw, goesOn (v.getLast hv) ((capitalize w).head hw) = false := by
  refine ⟨hv.ne_nil, hw.capitalize.ne_nil, ?_⟩
  have hl := hv.isAlpha_eq (List.getLast_mem hv.ne_nil)
  have hh := hw.capitalize.isAlpha_eq (List.head_mem hw.capitalize.ne_nil)
  rw [isNumber_capitalize] at hh
  cases hw' : isNumber w
  case true =>
    rw [hw', Bool.and_true] at hn
    simp [goesOn, hl, hh, hn, hw']
  case false =>
    cases w
    case nil => cases hw.ne_nil rfl
    case cons c cs =>
      have hc : c.isAlpha := by simp [hw.isAlpha_eq List.mem_cons_self, hw']
      simp [goesOn, capitalize, hc]

theorem isWord_of_mem_cased (h : ∀ w ∈ ws, IsWord w) (hv : v ∈ cased ws) : IsWord v := by
  cases ws
  case nil => cases hv
  case cons w ws =>
    have ⟨hw, ht⟩ := List.forall_mem_cons.mp h
    refine List.forall_mem_cons.mpr ⟨hw.map_toLower, ?_⟩ v hv
    exact List.forall_mem_map.mpr fun v hv => (ht v hv).capitalize

theorem splitBy_cased (h : ∀ w ∈ ws, IsWord w) (hs : ws.IsChain fun v w => (isNumber v && isNumber w) = false) :
    (cased ws).flatten.splitBy goesOn = cased ws := by
  cases ws
  case nil => rfl
  case cons w ws =>
    have ⟨hw, ht⟩ := List.forall_mem_cons.mp h
    have ⟨hb, hs⟩ := List.isChain_cons.mp hs
    refine List.splitBy_flatten ?words ?within ?between
    case words  => exact fun hn => (isWord_of_mem_cased h hn).ne_nil rfl
    case within =>
      refine List.forall_mem_cons.mpr ⟨isChain_map_toLower hw, ?_⟩
      exact List.forall_mem_map.mpr fun v hv => isChain_capitalize (ht v hv)
    case between =>
      refine List.isChain_cons.mpr ⟨fun u hu => ?_, ?_⟩
      case refine_1 =>
        obtain ⟨v, hv, rfl⟩ := Option.mem_map.mp (List.head?_map ▸ hu)
        have hm := List.mem_of_mem_head? hv
        exact breaks_capitalize hw.map_toLower (ht v hm) (by simpa using hb v hv)
      case refine_2 =>
        refine (List.isChain_map capitalize).mpr (hs.imp_of_mem_imp fun u v hu hv hn => ?_)
        exact breaks_capitalize (ht u hu).capitalize (ht v hv) (by simpa using hn)

theorem map_map_toLower_cased (h : ∀ w ∈ ws, w.map Char.toLower = w) : (cased ws).map (·.map Char.toLower) = ws := by
  cases ws
  case nil => rfl
  case cons w ws =>
    have ⟨hw, ht⟩ := List.forall_mem_cons.mp h
    have hc : ∀ v ∈ ws, (capitalize v).map Char.toLower = v := fun v hv => by rw [map_toLower_capitalize, ht v hv]
    simp [cased, hw, Function.comp_def, List.map_id'', List.map_congr_left hc]

theorem flatten_cased_inj {vs : List (List Char)} (hv : ∀ v ∈ vs, IsWord v) (hw : ∀ w ∈ ws, IsWord w) :
    (cased vs).flatten = (cased ws).flatten ↔ spelled vs = spelled ws := by
  rw [← flatten_cased_spelled vs, ← flatten_cased_spelled ws]
  refine ⟨fun h => ?_, fun h => by rw [h]⟩
  have h := congrArg (·.splitBy goesOn) h
  simp only [splitBy_cased (fun _ => isWord_of_mem_spelled hv) (isChain_spelled vs),
    splitBy_cased (fun _ => isWord_of_mem_spelled hw) (isChain_spelled ws)] at h
  have h := congrArg (·.map (·.map Char.toLower)) h
  simpa only [map_map_toLower_cased fun _ => map_toLower_of_mem_spelled] using h

theorem toList_generate {path hash : String} (h : isNumber hash.toList) :
    (generate path hash).toList = (cased (words path ++ [hash.toList])).flatten := by
  rw [generate, String.toList_append, camelCase_eq, String.toList_ofList]
  cases words path
  case nil  => simp [cased, map_toLower_of_isNumber h]
  case cons => simp [cased, capitalize_of_isNumber h]

theorem spelled_ne_nil (w : List Char) (ws : List (List Char)) : spelled (w :: ws) ≠ [] := by
  unfold spelled
  split
  case h_1 => simp
  case h_2 => split_ifs <;> simp

theorem spelled_append_of_isNumber (hh : isNumber h) (hw : ∀ w ∈ ws.getLast?, isNumber w = false) :
    spelled (ws ++ [h]) = spelled ws ++ [h] := by
  induction ws
  case nil => simp [spelled, map_toLower_of_isNumber hh]
  case cons w ws hi =>
    cases ws
    case nil => simp_all [spelled, map_toLower_of_isNumber hh]
    case cons v vs =>
      have hi := hi (by simpa using hw)
      have ⟨u, us, hu⟩ := List.exists_cons_of_ne_nil (spelled_ne_nil v vs)
      rw [hu] at hi
      rw [List.cons_append, spelled, spelled, hi, hu, List.cons_append]
      dsimp only
      split_ifs <;> rfl

def endsInLetter (path : String) : Bool :=
  (path.toList.filter isWordPart).getLast?.all Char.isAlpha

theorem isNumber_of_mem_getLast? {path : String} (h : endsInLetter path) (hw : w ∈ (words path).getLast?) :
    isNumber w = false := by
  have hm := isWord_of_mem_words (List.mem_of_mem_getLast? hw)
  have ⟨ws, hs⟩ := List.getLast?_eq_some_iff.mp hw
  rw [endsInLetter, ← flatten_words, hs, List.flatten_append, List.flatten_singleton,
    List.getLast?_append_of_ne_nil _ hm.ne_nil, List.getLast?_eq_some_getLast hm.ne_nil, Option.all_some] at h
  simpa [h] using hm.isAlpha_eq (List.getLast_mem hm.ne_nil)

theorem generate_eq_iff {p₁ p₂ h₁ h₂ : String} (i₁ : IsWord h₁.toList) (i₂ : IsWord h₂.toList)
    (n₁ : isNumber h₁.toList) (n₂ : isNumber h₂.toList) :
    generate p₁ h₁ = generate p₂ h₂ ↔
      spelled (words p₁ ++ [h₁.toList]) = spelled (words p₂ ++ [h₂.toList]) := by
  have all {p h : String} (hh : IsWord h.toList) : ∀ w ∈ words p ++ [h.toList], IsWord w := fun w hw => by
    cases List.mem_append.mp hw
    case inl hw => exact isWord_of_mem_words hw
    case inr hw => exact List.mem_singleton.mp hw ▸ hh
  rw [← String.toList_inj, toList_generate n₁, toList_generate n₂, flatten_cased_inj (all i₁) (all i₂)]

theorem isWord_contentHash (text : String) : IsWord (contentHash text).toList ∧ isNumber (contentHash text).toList := by
  have ⟨d, ds, hh, hd⟩ := toList_contentHash text
  have hd c hc := isDecimalDigit_of_isDigit (hd c hc)
  rw [hh]
  exact ⟨⟨List.cons_ne_nil d ds, .inr hd⟩, List.all_eq_true.mpr hd⟩

end Name

namespace Matcher

variable {m₁ m₂ : Matcher} {src₁ src₂ : Source} {p₁ p₂ : String} {f₁ f₂ : Find} {d₁ d₂ : Graphql.Placed}
variable {g₁ g₂ : Fragment}

open Name

theorem Makes.name_eq_iff_of_files (h₁ : m₁.Makes src₁ p₁ f₁ d₁ g₁) (h₂ : m₂.Makes src₂ p₂ f₂ d₂ g₂)
    (a₁ : d₁.definition.name? = none) (a₂ : d₂.definition.name? = none) :
    (g₁.name = g₂.name ↔
        spelled (words p₁ ++ [g₁.contentHash.toList]) = spelled (words p₂ ++ [g₂.contentHash.toList])) ∧
      (endsInLetter p₁ → endsInLetter p₂ →
        (g₁.name = g₂.name ↔ spelled (words p₁) = spelled (words p₂) ∧ g₁.contentHash = g₂.contentHash)) := by
  have ⟨c₁, n₁, _⟩ := h₁.of_anonymous a₁
  have ⟨c₂, n₂, _⟩ := h₂.of_anonymous a₂
  have ⟨w₁, i₁⟩ : IsWord g₁.contentHash.toList ∧ isNumber g₁.contentHash.toList := c₁ ▸ isWord_contentHash _
  have ⟨w₂, i₂⟩ : IsWord g₂.contentHash.toList ∧ isNumber g₂.contentHash.toList := c₂ ▸ isWord_contentHash _
  have hn : g₁.name = g₂.name ↔
      spelled (words p₁ ++ [g₁.contentHash.toList]) = spelled (words p₂ ++ [g₂.contentHash.toList]) := by
    rw [n₁, n₂, generate_eq_iff w₁ w₂ i₁ i₂]
  refine ⟨hn, fun e₁ e₂ => ?_⟩
  rw [hn, spelled_append_of_isNumber i₁ fun _ => isNumber_of_mem_getLast? e₁,
    spelled_append_of_isNumber i₂ fun _ => isNumber_of_mem_getLast? e₂]
  refine ⟨fun h => ?_, fun ⟨hw, hc⟩ => by rw [hw, hc]⟩
  have ⟨hw, hc⟩ := List.append_inj' h rfl
  exact ⟨hw, String.toList_inj.mp (List.singleton_inj.mp hc)⟩

theorem Makes.name_ne_of_numbers :
    let src := Source.ofString "graphql\x60\x7ba\x7d\x60"
    let T := TaggedTemplate.spanning 0 12
    let m := Matcher.ofTree {} src T.node
    let d := Graphql.Placed.anonymous "a" 0
    ∃ g₁ g₂, m.Makes src "src/a1/b2.js" ⟨.pageQuery, T⟩ d g₁ ∧ m.Makes src "src/a1/b3.js" ⟨.pageQuery, T⟩ d g₂ ∧
      d.definition.name? = none ∧ endsInLetter "src/a1/b2.js" ∧ endsInLetter "src/a1/b3.js" ∧ g₁.name ≠ g₂.name := by
  intro src T m d
  have hp : Graphql.parse (T.rawText src) = .ok [d] := by cbv
  obtain ⟨g₁, h₁⟩ : ∃ g, m.Makes src "src/a1/b2.js" ⟨.pageQuery, T⟩ d g :=
    exists_makes (by decide +kernel) hp List.mem_cons_self
  obtain ⟨g₂, h₂⟩ : ∃ g, m.Makes src "src/a1/b3.js" ⟨.pageQuery, T⟩ d g :=
    exists_makes (by decide +kernel) hp List.mem_cons_self
  have e₁ : endsInLetter "src/a1/b2.js" := by decide +kernel
  have e₂ : endsInLetter "src/a1/b3.js" := by decide +kernel
  have hs : spelled (words "src/a1/b2.js") ≠ spelled (words "src/a1/b3.js") := by decide +kernel
  have hn := (h₁.name_eq_iff_of_files h₂ rfl rfl).right e₁ e₂
  exact ⟨g₁, g₂, h₁, h₂, rfl, e₁, e₂, fun h => hs (hn.mp h).left⟩

-- A hyphen and a slash separate words alike.
theorem name_eq_of_files :
    let src := Source.ofString "graphql\x60\x7ba\x7d\x60"
    let T := TaggedTemplate.spanning 0 12
    let m := Matcher.ofTree {} src T.node
    let d := Graphql.Placed.anonymous "a" 0
    ∃ g₁ g₂, m.Makes src "src/pages/blog-post.js" ⟨.pageQuery, T⟩ d g₁ ∧
      m.Makes src "src/pages/blog/post.js" ⟨.pageQuery, T⟩ d g₂ ∧ d.definition.name? = none ∧ g₁.name = g₂.name := by
  intro src T m d
  have hp : Graphql.parse (T.rawText src) = .ok [d] := by cbv
  obtain ⟨g₁, h₁⟩ : ∃ g, m.Makes src "src/pages/blog-post.js" ⟨.pageQuery, T⟩ d g :=
    exists_makes (by decide +kernel) hp List.mem_cons_self
  obtain ⟨g₂, h₂⟩ : ∃ g, m.Makes src "src/pages/blog/post.js" ⟨.pageQuery, T⟩ d g :=
    exists_makes (by decide +kernel) hp List.mem_cons_self
  obtain ⟨c₁, n₁, _⟩ := h₁.of_anonymous rfl
  obtain ⟨c₂, n₂, _⟩ := h₂.of_anonymous rfl
  have hw : camelCase "src/pages/blog-post.js" = camelCase "src/pages/blog/post.js" := by decide +kernel
  refine ⟨g₁, g₂, h₁, h₂, rfl, ?_⟩
  rw [n₁, n₂, c₁, c₂, generate, generate, hw]

end Matcher

end QueryGlean
