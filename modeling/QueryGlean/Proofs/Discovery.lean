import Mathlib
import QueryGlean.Discovery
import QueryGlean.Proofs.FileTree

namespace QueryGlean

namespace FileTree

-- The entries of a tree stand at different places, and their components are names.
structure Proper (t : FileTree) : Prop where
  apart : (t.entries.map Prod.fst).Nodup
  named : ∀ e ∈ t.entries, "." ∉ e.1 ∧ ".." ∉ e.1

-- A source below a place, by its components from there:
-- 1. it is a file with the extension of a source
-- 2. neither it nor any directory on the way is hidden or a directory that holds no sources
structure IsSource (t : FileTree) (place rel : List String) : Prop where
  below     : rel ≠ []
  file      : ∃ bytes, t.node? (place ++ rel) = some (.file bytes)
  supported : Language.isSupported ⟨.relative, rel⟩
  kept      : ∀ part ∈ rel, part ∉ Path.skippedDirectories ∧ part.toList.head? ≠ some '.'

inductive StandsFor (t : FileTree) (argument : String) : List Path → Prop
  | file (isFile : t.isFile (.ofString argument) = .ok true) : StandsFor t argument [.ofString argument]
  | directory {place : List String} {rels : List (List String)}
      (isDirectory : t.isDirectory (.ofString argument) = .ok true)
      (leads : t.resolve (.ofString argument) = .ok (place, .directory))
      (sources : ∀ rel, rel ∈ rels ↔ t.IsSource place rel) (ascending : rels.Pairwise (· < ·)) :
      StandsFor t argument (rels.map (Path.ofString argument).join)

def IsMissing (t : FileTree) (argument : String) : Prop :=
  t.isFile (.ofString argument) = .ok false ∧ t.isDirectory (.ofString argument) = .ok false

-- The argument is itself too long for the system, or a path below it is.
def IsLong (t : FileTree) (argument : String) : Prop :=
  let p := Path.ofString argument
  t.isFile p = .error .nameTooLong ∨
    t.isDirectory p = .ok true ∧
      ∃ place, t.resolve p = .ok (place, .directory) ∧ ∃ f ∈ t.below place, isTooLong (p.join f.1)

end FileTree

variable {t : FileTree} {place rel : List String} {argument : String} {p : Path} {n : FileTree.Node}
variable {f : List String × FileTree.Node}

namespace Path

theorem partsLt_iff {xs ys : List String} : partsLt xs ys ↔ xs < ys := by
  induction xs generalizing ys
  case nil => cases ys <;> simp [partsLt]
  case cons x xs hi =>
    cases ys
    case nil => simp [partsLt]
    case cons y ys =>
      rw [partsLt, List.cons_lt_cons_iff]
      split
      case isTrue he  => simp [he, hi]
      case isFalse he => simp [he]

theorem isSkippedPart_iff {part : String} (h : part ≠ "." ∧ part ≠ "..") :
    isSkippedPart part ↔ part ∈ skippedDirectories ∨ part.toList.head? = some '.' := by
  have hf : part.front = '.' ↔ part.toList.head? = some '.' := by
    rw [String.front_eq, String.front?_eq]
    cases part.toList.head? <;> simp
  have he (h : part.toList.head? = some '.') : part ≠ "" := by
    rintro rfl
    simp at h
  simp only [isSkippedPart, Bool.or_eq_true, List.contains_iff_mem, Bool.and_eq_true, beq_iff_eq, bne_iff_ne,
    hf, and_iff_left h.left, and_iff_left h.right]
  exact or_congr_right (and_iff_left_of_imp he)

theorem split_of_not_mem {cs : List Char} (h : '/' ∉ cs) : split cs = [cs] := by
  induction cs
  case nil => rfl
  case cons c cs hi =>
    have ⟨hc, hs⟩ := List.ne_and_not_mem_of_not_mem_cons h
    simp [split, hc.symm, hi hs]

theorem split_append_slash {cs rest : List Char} (h : '/' ∉ cs) :
    split (cs ++ '/' :: rest) = cs :: split rest := by
  induction cs
  case nil => simp [split]
  case cons c cs hi =>
    have ⟨hc, hs⟩ := List.ne_and_not_mem_of_not_mem_cons h
    simp [split, hc.symm, hi hs]

theorem split_intercalate {css : List (List Char)} (hn : css ≠ []) (h : ∀ cs ∈ css, '/' ∉ cs) :
    split (['/'].intercalate css) = css := by
  induction css
  case nil => exact absurd rfl hn
  case cons cs css hi =>
    have ⟨hc, hs⟩ := List.forall_mem_cons.mp h
    cases css
    case nil => simpa using split_of_not_mem hc
    case cons => simp [List.intercalate_cons_cons, split_append_slash hc, hi (List.cons_ne_nil _ _) hs]

-- Only a text with nothing before its first slash starts at a root.
theorem ofText_eq_relative {cs : List Char} (h : [] ∉ split cs) : Anchor.ofText cs = .relative := by
  cases cs
  case nil => rfl
  case cons c cs =>
    have hc : c ≠ '/' := by
      rintro rfl
      simp [split] at h
    unfold Anchor.ofText
    split <;> simp_all

theorem ofString_intercalate {parts : List String} (hn : parts ≠ [])
    (h : ∀ part ∈ parts, part ≠ "" ∧ part ≠ "." ∧ '/' ∉ part.toList) :
    ofString ("/".intercalate parts) = ⟨.relative, parts⟩ := by
  have hs : split ("/".intercalate parts).toList = parts.map String.toList := by
    rw [String.toList_intercalate]
    exact split_intercalate (by simpa using hn) (by simpa using fun part hm => (h part hm).right.right)
  have ha : Anchor.ofText ("/".intercalate parts).toList = .relative := by
    refine ofText_eq_relative fun hm => ?_
    rw [hs] at hm
    have ⟨part, hm, he⟩ := List.mem_map.mp hm
    exact (h part hm).left (by simpa using he)
  have hf : (parts.map String.toList).filter (fun p => p ≠ [] ∧ p ≠ ['.']) = parts.map String.toList := by
    refine List.filter_eq_self.mpr fun cs hm => ?_
    obtain ⟨part, hp, rfl⟩ := List.mem_map.mp hm
    have hd : part.toList ≠ ['.'] := fun he => (h part hp).right.left (String.toList_injective he)
    simpa [hd] using (h part hp).left
  simp only [ofString, ha, hs, hf, List.map_map]
  simp

theorem ofString_name {name : List Char} (hs : '/' ∉ name) (he : name ≠ []) (hd : name ≠ ['.']) :
    ofString (String.ofList name) = ⟨.relative, [String.ofList name]⟩ := by
  have hd : String.ofList name ≠ "." := fun h => hd (String.ofList_injective h)
  simpa [hd, hs, he] using ofString_intercalate (List.cons_ne_nil (String.ofList name) [])

end Path

namespace FileTree

theorem Proper.node?_eq_some_iff (h : t.Proper) (hp : place ≠ []) :
    t.node? place = some n ↔ (place, n) ∈ t.entries := by
  rw [node?, if_neg hp]
  constructor
  case mp =>
    intro hl
    have ⟨_, _, he, _⟩ := List.lookup_eq_some_iff.mp hl
    simp [he]
  case mpr =>
    intro hm
    have ⟨before, after, he⟩ := List.append_of_mem hm
    refine List.lookup_eq_some_iff.mpr ⟨before, after, he, fun q hq => ?_⟩
    have ha := h.apart
    rw [he, List.map_append, List.map_cons] at ha
    have hn := (List.nodup_append.mp ha).right.right q.1 (List.mem_map_of_mem hq) place (by simp)
    simpa using hn.symm

theorem mem_below : (rel, n) ∈ t.below place ↔ rel ≠ [] ∧ (place ++ rel, n) ∈ t.entries := by
  simp only [below, List.mem_filterMap, Option.ite_none_right_eq_some, Bool.and_eq_true,
    List.isPrefixOf_iff_prefix, bne_iff_ne, Option.some.injEq, Prod.mk.injEq]
  constructor
  case mp =>
    rintro ⟨⟨q, m⟩, hm, ⟨⟨rest, rfl⟩, hn⟩, hr, rfl⟩
    rw [List.drop_left] at hr
    subst hr
    exact ⟨by simpa using hn, hm⟩
  case mpr =>
    intro ⟨hr, hm⟩
    exact ⟨_, hm, ⟨⟨rel, rfl⟩, by simpa using hr⟩, List.drop_left, rfl⟩

theorem Proper.nodup_below (h : t.Proper) (place : List String) : ((t.below place).map Prod.fst).Nodup := by
  have hs : ((t.below place).map fun f => place ++ f.1).Sublist (t.entries.map Prod.fst) := by
    rw [below, List.map_filterMap]
    induction t.entries
    case nil => exact .slnil
    case cons e es hi =>
      obtain ⟨q, n⟩ := e
      rw [List.filterMap_cons, List.map_cons]
      by_cases hq : place.isPrefixOf q && q != place
      case neg => simpa [hq] using hi.cons q
      case pos =>
        obtain ⟨rest, rfl⟩ := List.isPrefixOf_iff_prefix.mp (Bool.and_eq_true _ _ ▸ hq).left
        simpa [hq] using hi.cons_cons (place ++ rest)
  refine List.Nodup.of_map (place ++ ·) ?_
  rw [List.map_map]
  exact hs.nodup h.apart

theorem Proper.isSource_iff (h : t.Proper) :
    t.IsSource place rel ↔ ∃ n, (rel, n) ∈ t.below place ∧ isSource (rel, n) := by
  have kept {n : Node} (hm : (place ++ rel, n) ∈ t.entries) :
      (∀ part ∈ rel, part ∉ Path.skippedDirectories ∧ part.toList.head? ≠ some '.') ↔
        Path.isIgnored ⟨.relative, rel⟩ = false := by
    have ⟨h₁, h₂⟩ := h.named _ hm
    rw [Path.isIgnored, List.any_eq_false]
    refine forall₂_congr fun part hp => ?_
    have hn : part ≠ "." ∧ part ≠ ".." := by
      refine ⟨?_, ?_⟩ <;> rintro rfl <;> simp_all
    rw [Path.isSkippedPart_iff hn, not_or]
  constructor
  case mp =>
    intro ⟨hb, ⟨bytes, hf⟩, hs, hk⟩
    have hm := (h.node?_eq_some_iff (by simp [hb])).mp hf
    exact ⟨_, mem_below.mpr ⟨hb, hm⟩, by simp [isSource, Node.isFile, hs, (kept hm).mp hk]⟩
  case mpr =>
    intro ⟨n, hn, hs⟩
    have ⟨hb, hm⟩ := mem_below.mp hn
    cases n
    case directory  => simp [isSource, Node.isFile] at hs
    case file bytes =>
      simp only [isSource, Node.isFile, Bool.true_and, Bool.and_eq_true, Bool.not_eq_true'] at hs
      exact ⟨hb, ⟨bytes, (h.node?_eq_some_iff (by simp [hb])).mpr hm⟩, hs.left, (kept hm).mpr hs.right⟩

theorem Proper.ascending_sortedBelow (h : t.Proper) (place : List String) :
    (t.sortedBelow place).Pairwise fun f g => f.1 < g.1 := by
  have hs : (t.sortedBelow place).Pairwise fun f g => f.1 ≤ g.1 := by
    have hs : (t.sortedBelow place).Pairwise fun f g => !Path.partsLt g.1 f.1 := List.pairwise_mergeSort
      (fun a b c => by simpa [← Bool.not_eq_true, Path.partsLt_iff] using le_trans)
      (fun a b => by simpa [← Bool.not_eq_true, Path.partsLt_iff] using le_total a.1 b.1) _
    simpa [← Bool.not_eq_true, Path.partsLt_iff] using hs
  have hn : ((t.sortedBelow place).map Prod.fst).Nodup :=
    ((List.mergeSort_perm _ _).map _).nodup_iff.mpr (h.nodup_below place)
  exact (hs.and (List.pairwise_map.mp hn)).imp fun ⟨hl, hne⟩ => lt_of_le_of_ne hl hne

theorem mem_sortedBelow : f ∈ t.sortedBelow place ↔ f ∈ t.below place :=
  List.mem_mergeSort

theorem IsMissing.not_isLong (h : t.IsMissing argument) : ¬ t.IsLong argument := by
  simp [IsLong, h.left, h.right]

theorem StandsFor.not_isMissing {found : List Path} (h : t.StandsFor argument found) : ¬ t.IsMissing argument := by
  rintro ⟨hf, hd⟩
  cases h
  case file isFile          => simp [hf] at isFile
  case directory isDirectory _ _ _ => simp [hd] at isDirectory

theorem sourcesBelow_of_isTooLong (h : ∃ f ∈ t.below place, isTooLong (p.join f.1)) :
    ∃ found q, t.sourcesBelow p place = (found, some q) := by
  have ⟨f, hf, hl⟩ := h
  simp only [sourcesBelow]
  split
  case h_1 => exact ⟨_, _, rfl⟩
  case h_2 =>
    have hs : ((t.sortedBelow place).find? fun f => isTooLong (p.join f.1)).isSome :=
      List.find?_isSome.mpr ⟨f, mem_sortedBelow.mpr hf, hl⟩
    have ⟨g, hg⟩ := Option.isSome_iff_exists.mp hs
    exact ⟨_, p.join g.1, Prod.ext rfl (by simp [hg])⟩

theorem sourcesBelow_of_not_isTooLong (h : ∀ f ∈ t.below place, isTooLong (p.join f.1) = false) :
    t.sourcesBelow p place = (((t.sortedBelow place).filter isSource).map (p.join ·.1), none) := by
  have hs : ∀ f ∈ t.sortedBelow place, isTooLong (p.join f.1) = false := fun f hf => h f (mem_sortedBelow.mp hf)
  have hd : (t.sortedBelow place).find? (fun f => f.2.isDirectory && isTooLong (p.join f.1)) = none :=
    List.find?_eq_none.mpr fun f hf => by simp [hs f hf]
  have hn : (t.sortedBelow place).find? (fun f => isTooLong (p.join f.1)) = none :=
    List.find?_eq_none.mpr fun f hf => by simp [hs f hf]
  have ht : (t.sortedBelow place).takeWhile (fun f => ! isTooLong (p.join f.1)) = t.sortedBelow place :=
    List.takeWhile_eq_self_iff.mpr fun f hf => by simp [hs f hf]
  simp [sourcesBelow, hd, hn, ht]

theorem Proper.standsFor_of_directory (ht : t.Proper) (hn : hasNul (.ofString argument) = false)
    (hr : t.resolve (.ofString argument) = .ok (place, .directory)) :
    t.StandsFor argument (((t.sortedBelow place).filter isSource).map ((Path.ofString argument).join ·.1)) := by
  rw [show (fun f => (Path.ofString argument).join f.1) = (Path.ofString argument).join ∘ Prod.fst from rfl,
    ← List.map_map]
  refine .directory ?_ hr (fun rel => ?_) ?_
  case refine_1 => simp [isDirectory, leadsTo, hn, hr, Node.isDirectory]
  case refine_2 => simp [ht.isSource_iff, mem_sortedBelow]
  case refine_3 => exact List.pairwise_map.mpr ((ht.ascending_sortedBelow place).filter _)

theorem hasNul_of_isDirectory (h : t.isDirectory p = .ok true) : hasNul p = false := by
  by_contra hn
  simp [isDirectory, leadsTo, eq_true_of_ne_false hn] at h

theorem isLong_iff_of_directory (hn : hasNul (.ofString argument) = false)
    (hr : t.resolve (.ofString argument) = .ok (place, .directory)) :
    t.IsLong argument ↔ ∃ f ∈ t.below place, isTooLong ((Path.ofString argument).join f.1) := by
  simp [IsLong, isFile, isDirectory, leadsTo, hn, hr, Node.isFile, Node.isDirectory]

theorem sources_of_readText {a text : String} (h : t.readText (.ofString a) = .ok text) :
    t.sources [a] = ([.ofString a], none) := by
  obtain ⟨hn, _, _, _, hr, _⟩ := readText_eq_ok_iff.mp h
  simp [sources, sourcesOf, hn, hr]

theorem sourcesOf_of_directory (hn : hasNul (.ofString argument) = false)
    (hr : t.resolve (.ofString argument) = .ok (place, .directory)) :
    t.sourcesOf argument = ((t.sourcesBelow (.ofString argument) place).1,
      (t.sourcesBelow (.ofString argument) place).2.map (.system .nameTooLong)) := by
  simp [sourcesOf, hn, hr]

-- An argument is missing or long, or it stands for what is found.
theorem Proper.sourcesOf_cases (ht : t.Proper) (argument : String) :
    (t.IsMissing argument ∧ t.sourcesOf argument = ([], some (.missing argument))) ∨
    (t.IsLong argument ∧ ∃ found q, t.sourcesOf argument = (found, some (.system .nameTooLong q))) ∨
    (¬ t.IsLong argument ∧ ∃ found, t.StandsFor argument found ∧ t.sourcesOf argument = (found, none)) := by
  cases hn : hasNul (.ofString argument)
  case true => exact .inl (by simp [IsMissing, isFile, isDirectory, leadsTo, sourcesOf, hn])
  case false =>
    cases hr : t.resolve (.ofString argument)
    case error e =>
      by_cases he : e = .nameTooLong
      case pos => exact .inr (.inl (by simp [IsLong, isFile, leadsTo, sourcesOf, hn, hr, he]))
      case neg => exact .inl (by cases e <;> simp_all [IsMissing, isFile, isDirectory, leadsTo, sourcesOf])
    case ok r =>
      obtain ⟨place, _ | _⟩ := r
      case file =>
        have hf : t.isFile (.ofString argument) = .ok true := by simp [isFile, leadsTo, hn, hr, Node.isFile]
        refine .inr (.inr ⟨?_, _, .file hf, by simp [sourcesOf, hn, hr]⟩)
        simp [IsLong, hf, isDirectory, leadsTo, hn, hr, Node.isDirectory]
      case directory =>
        -- A directory can be looked at, so only a path below it can be too long.
        rw [sourcesOf_of_directory hn hr, isLong_iff_of_directory hn hr]
        by_cases hb : ∃ f ∈ t.below place, isTooLong ((Path.ofString argument).join f.1)
        case pos =>
          have ⟨found, q, he⟩ := sourcesBelow_of_isTooLong hb
          exact .inr (.inl ⟨hb, found, q, by simp [he]⟩)
        case neg =>
          refine .inr (.inr ⟨hb, _, ht.standsFor_of_directory hn hr, ?_⟩)
          rw [sourcesBelow_of_not_isTooLong (by simpa using hb)]
          rfl

theorem Proper.sources_append (ht : t.Proper) {before : List String}
    (hb : ∀ a ∈ before, ¬ t.IsMissing a ∧ ¬ t.IsLong a) :
    ∃ parts, List.Forall₂ t.StandsFor before parts ∧ ∀ after,
      t.sources (before ++ after) = (parts.flatten ++ (t.sources after).1, (t.sources after).2) := by
  induction before
  case nil => exact ⟨[], .nil, fun after => by simp⟩
  case cons a before hi =>
    have ⟨parts, hp, hs⟩ := hi fun b h => hb b (List.mem_cons_of_mem _ h)
    have ⟨hm, hl⟩ := hb a List.mem_cons_self
    rcases ht.sourcesOf_cases a with ⟨h, _⟩ | ⟨h, _⟩ | ⟨_, found, hf, he⟩
    case inl       => exact absurd h hm
    case inr.inl   => exact absurd h hl
    case inr.inr   => exact ⟨found :: parts, .cons hf hp, fun after => by simp [sources, he, hs after]⟩

-- What is found is what the arguments before the first missing or long one stand for. A missing argument
-- ends the search right there, a long one possibly after some of the sources below it.
theorem Proper.sources_exact (ht : t.Proper) {before : List String}
    (hb : ∀ a ∈ before, ¬ t.IsMissing a ∧ ¬ t.IsLong a) :
    ∃ parts, List.Forall₂ t.StandsFor before parts ∧
      t.sources before = (parts.flatten, none) ∧ ∀ argument after,
        (t.IsMissing argument → t.sources (before ++ argument :: after) =
          (parts.flatten, some (.missing argument))) ∧
        (t.IsLong argument → ∃ found q, t.sources (before ++ argument :: after) =
          (parts.flatten ++ found, some (.system .nameTooLong q))) := by
  have ⟨parts, hp, hs⟩ := ht.sources_append hb
  refine ⟨parts, hp, by simpa [sources] using hs [], fun argument after => ⟨fun hm => ?_, fun hl => ?_⟩⟩
  case refine_1 =>
    rcases ht.sourcesOf_cases argument with ⟨_, he⟩ | ⟨h, _⟩ | ⟨_, found, hf, _⟩
    case inl     => simp [hs, sources, he]
    case inr.inl => exact absurd h hm.not_isLong
    case inr.inr => exact absurd hm hf.not_isMissing
  case refine_2 =>
    rcases ht.sourcesOf_cases argument with ⟨h, _⟩ | ⟨_, found, q, he⟩ | ⟨h, _⟩
    case inl     => exact absurd hl h.not_isLong
    case inr.inl => exact ⟨found, q, by simp [hs, sources, he]⟩
    case inr.inr => exact absurd hl h

namespace Tree

def site : FileTree where
  entries := [
    (["src"], .directory), (["src", "a-b"], .directory), (["src", "a-b", "c.js"], .file []),
    (["src", "a"], .directory), (["src", "a", "z.js"], .file []), (["src", "a", ".z.js"], .file []),
    (["src", "public"], .directory), (["src", "public", "app.js"], .file []),
    (["src", "list.ts"], .directory), (["src", "list.ts", "notes.txt"], .file []), (["notes.txt"], .file [])]

theorem proper_site : site.Proper where
  apart := by decide
  named := by decide

end Tree

theorem sources_exact_site :
    (Tree.site.Proper ∧ ∀ a ∈ ["src", "notes.txt"], ¬ Tree.site.IsMissing a ∧ ¬ Tree.site.IsLong a) ∧
      Tree.site.IsMissing "gone" ∧
      ∃ parts, List.Forall₂ Tree.site.StandsFor ["src", "notes.txt"] parts ∧
        Tree.site.sources ["src", "notes.txt", "gone", "src"] = (parts.flatten, some (.missing "gone")) := by
  have hd : Tree.site.isDirectory (.ofString "src") = .ok true := by cbv
  have hr : Tree.site.resolve (.ofString "src") = .ok (["src"], .directory) := by cbv
  have hf : Tree.site.isFile (.ofString "notes.txt") = .ok true := by cbv
  have hn : Tree.site.isFile (.ofString "src") = .ok false := by cbv
  have hl : (Tree.site.below ["src"]).all fun f => ! isTooLong ((Path.ofString "src").join f.1) := by cbv
  have hb : ∀ a ∈ ["src", "notes.txt"], ¬ Tree.site.IsMissing a ∧ ¬ Tree.site.IsLong a := by
    simp only [List.forall_mem_cons, List.not_mem_nil, false_implies, implies_true, and_true]
    refine ⟨⟨by simp [IsMissing, hd], ?_⟩, StandsFor.not_isMissing (.file hf), ?_⟩
    case refine_1 => simpa [IsLong, hn, hd, hr] using hl
    case refine_2 =>
      have hd : Tree.site.isDirectory (.ofString "notes.txt") = .ok false := by cbv
      simp [IsLong, hf, hd]
  have hm : Tree.site.IsMissing "gone" := ⟨by cbv, by cbv⟩
  obtain ⟨parts, hp, _, hs⟩ := Tree.proper_site.sources_exact hb
  exact ⟨⟨Tree.proper_site, hb⟩, hm, parts, hp, (hs "gone" ["src"]).left hm⟩

theorem utf8Len_replicate (n : Nat) (c : Char) : String.utf8Len (.replicate n c) = n * c.utf8Size := by
  induction n
  case zero      => simp
  case succ n hi => rw [List.replicate_succ, String.utf8Len_cons, hi, Nat.succ_mul]

-- A name that is longer than any file's cannot be looked at, so it is never told to be missing.
theorem sourcesOf_of_longName {name : List Char} (hc : t.node? t.current = some .directory) (hs : '/' ∉ name)
    (hn : '\x00' ∉ name) (hl : longestName < (String.ofList name).utf8ByteSize) :
    t.sourcesOf (String.ofList name) =
      ([], some (.system .nameTooLong ⟨.relative, [String.ofList name]⟩)) := by
  have hp := Path.ofString_name hs (by rintro rfl; simp at hl) (by rintro rfl; exact absurd hl (by decide))
  have hr : t.resolve ⟨.relative, [String.ofList name]⟩ = .error .nameTooLong := by
    have hu : String.ofList name ≠ ".." := fun he => by
      rw [he] at hl
      exact absurd hl (by decide)
    simp [resolve, follow, hc, hu, hl]
  simp [sourcesOf, hp, hr, hasNul, hn]

theorem sources_of_longName {name : List Char} (hs : '/' ∉ name) (hn : '\x00' ∉ name)
    (hl : longestName < (String.ofList name).utf8ByteSize) :
    Tree.site.node? [String.ofList name] = none ∧
      Tree.site.sources ["notes.txt", String.ofList name] =
        ([.ofString "notes.txt"], some (.system .nameTooLong ⟨.relative, [String.ofList name]⟩)) := by
  constructor
  case left =>
    have he : ∀ e ∈ Tree.site.entries, ∀ part ∈ e.1, part.utf8ByteSize ≤ longestName := by decide
    rw [node?, if_neg (List.cons_ne_nil _ _), List.lookup_eq_none_iff]
    intro e hm
    refine bne_iff_ne.mpr fun h => ?_
    exact absurd hl (he e hm _ (h ▸ List.mem_singleton_self _)).not_gt
  case right =>
    have hn' : hasNul (.ofString "notes.txt") = false := by cbv
    have hr : Tree.site.resolve (.ofString "notes.txt") = .ok (["notes.txt"], .file []) := by cbv
    have hf : Tree.site.sourcesOf "notes.txt" = ([.ofString "notes.txt"], none) := by simp [sourcesOf, hn', hr]
    have hs := Tree.site.sourcesOf_of_longName rfl hs hn hl
    simp only [sources, hf, hs, List.append_nil]

theorem sources_longName :
    Tree.site.node? [String.ofList (.replicate 256 'b')] = none ∧
      Tree.site.sources ["notes.txt", String.ofList (.replicate 256 'b')] =
        ([.ofString "notes.txt"],
          some (.system .nameTooLong ⟨.relative, [String.ofList (.replicate 256 'b')]⟩)) := by
  have hb {c : Char} (hc : c ∈ List.replicate 256 'b') : c = 'b' := List.eq_of_mem_replicate hc
  refine sources_of_longName (fun h => absurd (hb h) (by decide)) (fun h => absurd (hb h) (by decide)) ?_
  rw [String.utf8ByteSize_ofList, utf8Len_replicate]
  decide

end FileTree

end QueryGlean
