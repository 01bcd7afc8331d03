import QueryGlean.Proofs.Discovery
import QueryGlean.Proofs.FileTree

namespace QueryGlean

namespace FileTree

-- A scan of a directory gets to the path `rel` below it if no path below it that is too long comes before:
-- 1. directories are listed first, so none of them is too long
-- 2. files are looked at in the order of components, so those that are too long stand behind
def IsInReach (t : FileTree) (p : Path) (place rel : List String) : Prop :=
  ∀ f ∈ t.below place, isTooLong (p.join f.1) → f.2.isDirectory = false ∧ rel < f.1

end FileTree

variable {t : FileTree} {place rel : List String} {argument : String} {p q root home : Path}
variable {bytes : List UInt8}

namespace Path

@[simp]
theorem parts_join : (p.join rel).parts = p.parts ++ rel :=
  rfl

@[simp]
theorem anchor_join : (p.join rel).anchor = p.anchor :=
  rfl

theorem join_injective (p : Path) : Function.Injective p.join := by
  intro rel rel' h
  simpa using congrArg parts h

theorem isSupported_join (h : rel ≠ []) :
    Language.isSupported (p.join rel) = Language.isSupported ⟨.relative, rel⟩ := by
  have hn : (p.join rel).name = name ⟨.relative, rel⟩ := by simp [name, List.getLast?_append_of_ne_nil _ h]
  simp [Language.isSupported, Language.extension, suffix, hn]

theorem isIgnored_join : (p.join rel).isIgnored = (p.isIgnored || isIgnored ⟨.relative, rel⟩) :=
  List.any_append

theorem isIgnored_eq_of_parts (h : p.parts = q.parts) : p.isIgnored = q.isIgnored := by
  rw [isIgnored, h, isIgnored]

theorem relativeTo?_join : (root.join rel).relativeTo? root = some ⟨.relative, rel⟩ := by
  simp [relativeTo?]

theorem relativeTo?_of_anchor_ne (h : p.anchor ≠ root.anchor) : p.relativeTo? root = none := by
  simp [relativeTo?, h]

theorem isWatched_join (h : rel ≠ []) :
    (root.join rel).isWatched root ↔
      Language.isSupported ⟨.relative, rel⟩ ∧ isIgnored ⟨.relative, rel⟩ = false := by
  simp [isWatched, isSupported_join h, relativeTo?_join]

theorem isWatched_of_anchor_ne (h : p.anchor ≠ root.anchor) :
    p.isWatched root ↔ Language.isSupported p ∧ p.isIgnored = false := by
  simp [isWatched, relativeTo?_of_anchor_ne h]

end Path

theorem mem_takeWhile_iff {α : Type} {r : α → α → Prop} {accepts : α → Bool} {l : List α} {a : α}
    (hl : l.Pairwise r) (hr : ∀ a b, r a b → ¬ r b a) :
    a ∈ l.takeWhile accepts ↔ a ∈ l ∧ ∀ b ∈ l, accepts b = false → r a b := by
  induction l
  case nil => simp
  case cons c l hi =>
    have ⟨hc, hl⟩ := List.pairwise_cons.mp hl
    cases h : accepts c
    case true =>
      rw [List.takeWhile_cons_of_pos h, List.mem_cons, List.mem_cons, hi hl]
      constructor
      case mp =>
        rintro (rfl | ⟨ha, hb⟩)
        · exact ⟨.inl rfl, by simpa [h] using fun b hb _ => hc b hb⟩
        · exact ⟨.inr ha, by simpa [h] using hb⟩
      case mpr =>
        intro ⟨ha, hb⟩
        exact ha.imp_right fun ha => ⟨ha, fun b hm => hb b (List.mem_cons_of_mem _ hm)⟩
    case false =>
      -- Nothing is taken, and nothing comes before the first.
      rw [List.takeWhile_cons_of_neg (by simp [h])]
      refine iff_of_false List.not_mem_nil fun ⟨ha, hb⟩ => ?_
      have hac := hb c List.mem_cons_self h
      cases List.mem_cons.mp ha
      case inl he => exact hr a c hac (he ▸ hac)
      case inr hm => exact hr a c hac (hc a hm)

namespace FileTree

theorem Proper.mem_sourcesBelow (ht : t.Proper) :
    q ∈ (t.sourcesBelow p place).1 ↔
      ∃ f ∈ t.below place, isSource f ∧ p.join f.1 = q ∧ t.IsInReach p place f.1 := by
  simp only [sourcesBelow]
  split
  case h_1 g hg =>
    have hm := List.mem_of_find?_eq_some hg
    have hl := List.find?_some hg
    simp only [Bool.and_eq_true] at hl
    refine iff_of_false List.not_mem_nil ?_
    rintro ⟨f, -, -, -, hf⟩
    exact absurd (hf g (mem_sortedBelow.mp hm) hl.right).left (by simp [hl.left])
  case h_2 hn =>
    have hd : ∀ f ∈ t.below place, isTooLong (p.join f.1) → f.2.isDirectory = false := by
      intro f hf hl
      simpa [hl] using List.find?_eq_none.mp hn f (mem_sortedBelow.mpr hf)
    have hw (f : List String × Node) :
        f ∈ (t.sortedBelow place).takeWhile (fun f => ! isTooLong (p.join f.1)) ↔
          f ∈ t.below place ∧ t.IsInReach p place f.1 := by
      rw [mem_takeWhile_iff (ht.ascending_sortedBelow place) fun _ _ => lt_asymm, mem_sortedBelow]
      refine and_congr_right fun _ => ?_
      simp only [mem_sortedBelow, Bool.not_eq_false', IsInReach]
      exact forall₂_congr fun g hg => ⟨fun h hl => ⟨hd g hg hl, h hl⟩, fun h hl => (h hl).right⟩
    simp only [List.mem_map, List.mem_filter, hw]
    exact exists_congr fun f => by tauto

-- Of the files below a root, a scan of the root finds those that a watch of it takes up and that it gets to.
-- It gets to all of them unless a path is too long.
theorem Proper.isWatched_exact (ht : t.Proper) (hd : t.isDirectory (.ofString argument) = .ok true)
    (hr : t.resolve (.ofString argument) = .ok (place, .directory))
    (hf : t.node? (place ++ rel) = some (.file bytes)) :
    let root := Path.ofString argument
    (root.join rel ∈ (t.sources [argument]).1 ↔ (root.join rel).isWatched root ∧ t.IsInReach root place rel) ∧
    (¬ t.IsLong argument → (t.sources [argument]).2 = none ∧
      (root.join rel ∈ (t.sources [argument]).1 ↔ (root.join rel).isWatched root)) := by
  intro root
  have hn := hasNul_of_isDirectory hd
  -- The root itself is a directory.
  have hb : rel ≠ [] := by
    rintro rfl
    simp [node?_of_resolve hr] at hf
  have hm : (rel, .file bytes) ∈ t.below place :=
    mem_below.mpr ⟨hb, (ht.node?_eq_some_iff (by simp [hb])).mp hf⟩
  have hw : root.join rel ∈ (t.sourcesBelow root place).1 ↔
      (root.join rel).isWatched root ∧ t.IsInReach root place rel := by
    rw [ht.mem_sourcesBelow, Path.isWatched_join hb]
    constructor
    case mp =>
      rintro ⟨⟨_, n⟩, hf, hs, hj, hi⟩
      cases Path.join_injective root hj
      simp only [isSource, Bool.and_eq_true, Bool.not_eq_true'] at hs
      exact ⟨⟨hs.left.right, hs.right⟩, hi⟩
    case mpr =>
      rintro ⟨⟨hs, hk⟩, hi⟩
      exact ⟨_, hm, by simp [isSource, Node.isFile, hs, hk], rfl, hi⟩
  have hs : t.sources [argument] =
      ((t.sourcesBelow root place).1, (t.sourcesBelow root place).2.map (.system .nameTooLong)) := by
    simp only [sources, sourcesOf_of_directory hn hr, root]
    cases (t.sourcesBelow (Path.ofString argument) place).2 <;> simp
  rw [hs]
  refine ⟨hw, fun hl => ?_⟩
  have hl : ∀ f ∈ t.below place, isTooLong (root.join f.1) = false := by
    simpa [isLong_iff_of_directory hn hr] using hl
  refine ⟨by simp [sourcesBelow_of_not_isTooLong hl], hw.trans (and_iff_left fun f hf hl' => ?_)⟩
  simp [hl f hf] at hl'

theorem isWatched_exact_site :
    let src := Path.ofString "src"
    (Tree.site.Proper ∧ Tree.site.isDirectory src = .ok true ∧ Tree.site.resolve src = .ok (["src"], .directory) ∧
      Tree.site.node? (["src"] ++ ["a", "z.js"]) = some (.file []) ∧ ¬ Tree.site.IsLong "src") ∧
    (src.join ["a", "z.js"] ∈ (Tree.site.sources ["src"]).1 ↔ (src.join ["a", "z.js"]).isWatched src) := by
  have hd : Tree.site.isDirectory (.ofString "src") = .ok true := by cbv
  have hr : Tree.site.resolve (.ofString "src") = .ok (["src"], .directory) := by cbv
  have hf : Tree.site.node? (["src"] ++ ["a", "z.js"]) = some (.file []) := by decide
  have hl : ¬ Tree.site.IsLong "src" := by
    have hs : (Tree.site.below ["src"]).all fun f => ! isTooLong ((Path.ofString "src").join f.1) := by
      decide +kernel
    simpa [isLong_iff_of_directory (hasNul_of_isDirectory hd) hr] using hs
  exact ⟨⟨Tree.proper_site, hd, hr, hf, hl⟩,
    ((Tree.proper_site.isWatched_exact hd hr hf).right hl).right⟩

namespace Tree

def page : FileTree where
  entries := [(["src"], .directory), (["src", "a.js"], .file [])]

-- The directory `src` by a way that first goes in and out of it again and again.
def winding (rounds : Nat) : List String :=
  (List.replicate rounds ["src", ".."]).flatten ++ ["src"]

theorem proper_page : page.Proper where
  apart := by decide
  named := by decide

theorem sortedBelow_page : page.sortedBelow ["src"] = [(["a.js"], .file [])] := by
  decide +kernel

theorem winding_succ (rounds : Nat) : winding (rounds + 1) = "src" :: ".." :: winding rounds := by
  simp [winding, List.replicate_succ]

theorem winding_ne_nil (rounds : Nat) : winding rounds ≠ [] := by
  simp [winding]

theorem follow_winding (rounds : Nat) : page.follow [] (winding rounds) = .ok (["src"], .directory) := by
  have hs : ¬ longestName < "src".utf8ByteSize := by decide
  induction rounds
  case zero         => cbv
  case succ rounds hi =>
    rw [winding_succ]
    simpa [follow, node?, page, hs] using hi

theorem utf8ByteSize_winding (rounds : Nat) (rest : List String) :
    ("/".intercalate (winding rounds ++ rest)).utf8ByteSize =
      7 * rounds + ("/".intercalate ("src" :: rest)).utf8ByteSize := by
  induction rounds
  case zero => simp [winding]
  case succ rounds hi =>
    have hn : winding rounds ++ rest ≠ [] := by simp [winding]
    have hs : "src".utf8ByteSize = 3 ∧ "..".utf8ByteSize = 2 ∧ "/".utf8ByteSize = 1 := by decide
    rw [winding_succ, List.cons_append, List.cons_append, String.intercalate_cons_cons,
      String.intercalate_cons_of_ne_nil hn]
    simp only [String.utf8ByteSize_append, hi, hs]
    omega

theorem eq_of_mem_winding {rounds : Nat} {part : String} (h : part ∈ winding rounds) :
    part = "src" ∨ part = ".." := by
  simp only [winding, List.mem_append, List.mem_flatten, List.mem_replicate, List.mem_singleton] at h
  rcases h with ⟨_, ⟨_, rfl⟩, h⟩ | h
  · simpa using h
  · exact .inl h

theorem ofString_winding (rounds : Nat) :
    Path.ofString ("/".intercalate (winding rounds)) = ⟨.relative, winding rounds⟩ := by
  refine Path.ofString_intercalate (winding_ne_nil rounds) fun part hm => ?_
  rcases eq_of_mem_winding hm with rfl | rfl <;> decide

theorem utf8ByteSize_toString_winding (rounds : Nat) (rest : List String) :
    (toString (⟨.relative, winding rounds ++ rest⟩ : Path)).utf8ByteSize =
      7 * rounds + ("/".intercalate ("src" :: rest)).utf8ByteSize := by
  rw [← utf8ByteSize_winding]
  cases h : winding rounds ++ rest
  case nil  => simp [winding] at h
  case cons => simp [toString, Path.toString, Path.Anchor.text]

theorem sources_winding {rounds : Nat} (hd : 7 * rounds + 3 ≤ longestPath) (hf : longestPath < 7 * rounds + 8) :
    let root := Path.ofString ("/".intercalate (winding rounds))
    page.isDirectory root = .ok true ∧ page.resolve root = .ok (["src"], .directory) ∧
      page.sources ["/".intercalate (winding rounds)] =
        ([], some (.system .nameTooLong (root.join ["a.js"]))) := by
  intro root
  have he : root = ⟨.relative, winding rounds⟩ := ofString_winding rounds
  have hr : page.resolve root = .ok (["src"], .directory) := by
    have hs := utf8ByteSize_toString_winding rounds []
    rw [List.append_nil, show ("/".intercalate ["src"]).utf8ByteSize = 3 by decide] at hs
    rw [resolve, he, if_neg (by omega)]
    exact follow_winding rounds
  have hn : hasNul root = false := by
    refine he ▸ hasNul_eq_false fun part hm => ?_
    rcases eq_of_mem_winding hm with rfl | rfl <;> decide
  have hl : isTooLong (root.join ["a.js"]) := by
    have hs := utf8ByteSize_toString_winding rounds ["a.js"]
    rw [show ("/".intercalate ["src", "a.js"]).utf8ByteSize = 8 by decide] at hs
    simpa [isTooLong, he, Path.join, hs] using hf
  refine ⟨by simp [isDirectory, leadsTo, hn, hr, Node.isDirectory], hr, ?_⟩
  have hs : page.sourcesBelow (.ofString ("/".intercalate (winding rounds))) ["src"] =
      ([], some (root.join ["a.js"])) := by
    simp [sourcesBelow, sortedBelow_page, root, hl, Node.isDirectory]
  simp [sources, sourcesOf_of_directory hn hr, hs]

end Tree

-- A watch takes up a source whose path is too long for the scan.
theorem not_found_of_winding :
    let argument := "/".intercalate (Tree.winding 584)
    let root := Path.ofString argument
    Tree.page.Proper ∧ Tree.page.isDirectory root = .ok true ∧
      Tree.page.resolve root = .ok (["src"], .directory) ∧ Tree.page.node? ["src", "a.js"] = some (.file []) ∧
      (root.join ["a.js"]).isWatched root ∧
      Tree.page.sources [argument] = ([], some (.system .nameTooLong (root.join ["a.js"]))) := by
  intro argument root
  have ⟨hd, hr, hs⟩ := @Tree.sources_winding 584 (by decide) (by decide)
  refine ⟨Tree.proper_page, hd, hr, by decide, ?_, hs⟩
  exact (Path.isWatched_join (List.cons_ne_nil _ _)).mpr ⟨by decide +kernel, by decide⟩

end FileTree

namespace Path

-- A file is reported by its whole path. Where the root is spelled in full too, the file is judged by its path
-- below the root. Where the root is spelled from the current directory, all that stands above the file counts
-- as well.
theorem isWatched_of_home (hh : home.anchor ≠ .relative) (hr : root.anchor = .relative) (hf : rel ≠ []) :
    (((home.join root.parts).join rel).isWatched (home.join root.parts) ↔
      Language.isSupported ⟨.relative, rel⟩ ∧ isIgnored ⟨.relative, rel⟩ = false) ∧
    (((home.join root.parts).join rel).isWatched root ↔
      (Language.isSupported ⟨.relative, rel⟩ ∧ isIgnored ⟨.relative, rel⟩ = false) ∧
        home.isIgnored = false ∧ root.isIgnored = false) := by
  refine ⟨isWatched_join hf, ?_⟩
  have ha : ((home.join root.parts).join rel).anchor ≠ root.anchor := by simpa [hr] using hh
  have hi : isIgnored ⟨.relative, root.parts⟩ = root.isIgnored := isIgnored_eq_of_parts rfl
  rw [isWatched_of_anchor_ne ha, isSupported_join hf, isIgnored_join, isIgnored_join, hi]
  simp only [Bool.or_eq_false_iff]
  tauto

theorem isWatched_of_home_site :
    let home := ofString "/home/work"
    let root := ofString "../site"
    (home.anchor ≠ .relative ∧ root.anchor = .relative ∧ ["src", "a.js"] ≠ []) ∧
      ((home.join root.parts).join ["src", "a.js"]).isWatched root := by
  intro home root
  have hh : home.anchor ≠ .relative := by decide
  have hr : root.anchor = .relative := by cbv
  have hf : ["src", "a.js"] ≠ [] := List.cons_ne_nil _ _
  refine ⟨⟨hh, hr, hf⟩, (isWatched_of_home hh hr hf).right.mpr ⟨⟨?_, ?_⟩, ?_, ?_⟩⟩ <;> decide +kernel

-- Below a hidden directory, a watch of the current directory takes up nothing.
theorem not_isWatched_of_hiddenHome :
    let home := ofString "/home/.work/site"
    let root := ofString "."
    Language.isSupported ⟨.relative, ["src", "a.js"]⟩ ∧ isIgnored ⟨.relative, ["src", "a.js"]⟩ = false ∧
      ((home.join root.parts).join ["src", "a.js"]).isWatched root = false := by
  intro home root
  have hi : ((home.join root.parts).join ["src", "a.js"]).isIgnored := by cbv
  refine ⟨by decide +kernel, by decide, eq_false_of_ne_true fun hw => ?_⟩
  have ha : ((home.join root.parts).join ["src", "a.js"]).anchor ≠ root.anchor := by decide
  have hk := ((isWatched_of_anchor_ne ha).mp hw).right
  simp [hk] at hi

end Path

end QueryGlean
