import QueryGlean.FileTree

namespace QueryGlean.FileTree

variable {t : FileTree} {p : Path} {text : String}

theorem readText_eq_ok_iff :
    t.readText p = .ok text ↔
      hasNul p = false ∧ ∃ place bytes s, t.resolve p = .ok (place, .file bytes) ∧
        Utf8.decode bytes = .ok s ∧ String.ofList (Utf8.unifyLineEnds s.toList) = text := by
  unfold readText
  split
  case isTrue hn => simp [hn]
  case isFalse hn =>
    split
    case h_1 hr => simp [hr]
    case h_2 hr => simp [hr]
    case h_3 place bytes hr =>
      have hn : hasNul p = false := by simpa using hn
      split
      case h_1 hd => simp [hr, hd]
      case h_2 s hd =>
        constructor
        case mp => exact fun h => ⟨hn, place, bytes, s, hr, hd, Except.ok.inj h⟩
        case mpr =>
          intro ⟨_, place', bytes', s', hr', hd', h⟩
          cases hr.symm.trans hr'
          cases hd.symm.trans hd'
          rw [h]

theorem readText_eq_nulByte_iff : t.readText p = .error .nulByte ↔ hasNul p := by
  unfold readText
  split
  case isTrue hn => simp [hn]
  case isFalse hn =>
    simp only [hn]
    split
    case h_1 => simp
    case h_2 => simp
    case h_3 => split <;> simp

theorem hasNul_eq_false (h : ∀ part ∈ p.parts, '\x00' ∉ part.toList) : hasNul p = false := by
  simpa [hasNul] using h

theorem node?_of_follow {place place' parts : List String} {n : Node} (h : t.follow place parts = .ok (place', n)) :
    t.node? place' = some n := by
  fun_induction follow t place parts <;> simp_all

theorem node?_of_resolve {place : List String} {n : Node} (h : t.resolve p = .ok (place, n)) :
    t.node? place = some n := by
  unfold resolve at h
  split at h
  case isTrue  => cases h
  case isFalse => exact node?_of_follow h

-- What is read are the bytes of a file that is in the tree.
theorem exists_file_of_readText (h : t.readText p = .ok text) :
    ∃ place bytes s, (place, .file bytes) ∈ t.entries ∧ Utf8.decode bytes = .ok s ∧
      String.ofList (Utf8.unifyLineEnds s.toList) = text := by
  obtain ⟨_, place, bytes, s, hr, hd, ht⟩ := readText_eq_ok_iff.mp h
  have hn := node?_of_resolve hr
  unfold node? at hn
  split at hn
  case isTrue => cases hn
  case isFalse =>
    have ⟨before, after, he, _⟩ := List.lookup_eq_some_iff.mp hn
    exact ⟨place, bytes, s, by simp [he], hd, ht⟩

end QueryGlean.FileTree
