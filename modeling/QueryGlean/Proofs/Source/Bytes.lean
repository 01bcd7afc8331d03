import QueryGlean.Proofs.Source.Spans

namespace QueryGlean

def utf8 (cs : List Char) : List UInt8 :=
  cs.flatMap String.utf8EncodeChar

def lineFeed : UInt8 := 0x0A

namespace Source

def bytes (src : Source) : List UInt8 :=
  utf8 src.chars.toList

def bytesBetween (src : Source) (first last : Nat) : List UInt8 :=
  (src.bytes.take last).drop first

end Source

variable {c : Char} {cs ds : List Char} {src : Source} {i j : Nat}

theorem utf8_toList (s : String) : utf8 s.toList = s.toUTF8.data.toList := by
  have h : s.toUTF8 = s.toList.utf8Encode := by
    rw [← String.toByteArray_ofList, String.ofList_toList, String.toUTF8]
  rw [h, List.utf8Encode, List.data_toByteArray, utf8]

theorem utf8_cons (c : Char) (cs : List Char) : utf8 (c :: cs) = String.utf8EncodeChar c ++ utf8 cs :=
  List.flatMap_cons

theorem utf8_append (cs ds : List Char) : utf8 (cs ++ ds) = utf8 cs ++ utf8 ds :=
  List.flatMap_append

theorem length_utf8 (cs : Array Char) : (utf8 cs.toList).length = Source.byteCount cs := by
  have hf (n : Nat) (cs : List Char) : cs.foldl (fun n c => n + c.utf8Size) n = n + (utf8 cs).length := by
    induction cs generalizing n
    case nil          => rfl
    case cons c cs hi => rw [List.foldl_cons, hi, utf8_cons, List.length_append, String.length_utf8EncodeChar]; omega
  rw [Source.byteCount, ← Array.foldl_toList, hf, Nat.zero_add]

theorem utf8EncodeChar_lineFeed : String.utf8EncodeChar '\n' = [lineFeed] := rfl

theorem lineFeed_not_mem_utf8EncodeChar (hc : c ≠ '\n') : lineFeed ∉ String.utf8EncodeChar c := by
  have other (n : Nat) (hn : n % 256 ≠ 10) : lineFeed ≠ UInt8.ofNat n :=
    fun he => hn (congrArg UInt8.toNat he).symm
  have hn : c.val.toNat ≠ 10 := fun he => hc <| Char.ext <| UInt32.toNat_inj.mp he
  unfold String.utf8EncodeChar
  dsimp only
  repeat' split
  all_goals
    simp only [List.mem_cons, List.not_mem_nil, or_false, not_or]
    and_intros
    all_goals exact other _ (by omega)

theorem count_lineFeed_utf8 (cs : List Char) : (utf8 cs).count lineFeed = cs.count '\n' := by
  induction cs
  case nil => rfl
  case cons c cs hi =>
    rw [utf8_cons, List.count_append, hi]
    by_cases hc : c = '\n'
    case pos => simp [hc, utf8EncodeChar_lineFeed, Nat.add_comm]
    case neg => simp [hc, List.count_eq_zero.mpr (lineFeed_not_mem_utf8EncodeChar hc)]

theorem reverse_utf8_reverse_cons (c : Char) (cs : List Char) :
    (utf8 (c :: cs).reverse).reverse = (String.utf8EncodeChar c).reverse ++ (utf8 cs.reverse).reverse := by
  simp [utf8]

theorem takeWhile_reverse_utf8 (cs : List Char) :
    (utf8 cs.reverse).reverse.takeWhile (· ≠ lineFeed) = (utf8 (cs.takeWhile (· ≠ '\n')).reverse).reverse := by
  induction cs
  case nil => rfl
  case cons c cs hi =>
    rw [reverse_utf8_reverse_cons]
    by_cases hc : c = '\n'
    case pos => simp [hc, utf8EncodeChar_lineFeed, utf8]
    case neg =>
      have hb : ∀ b ∈ (String.utf8EncodeChar c).reverse, decide (b ≠ lineFeed) := fun b hb =>
        decide_eq_true fun h => lineFeed_not_mem_utf8EncodeChar hc <| h ▸ List.mem_reverse.mp hb
      have ht : (c :: cs).takeWhile (· ≠ '\n') = c :: cs.takeWhile (· ≠ '\n') := by simp [hc]
      rw [List.takeWhile_append_of_pos hb, hi, ht, reverse_utf8_reverse_cons]

namespace Source

theorem slice_append_slice {k : Nat} (hi : i ≤ j) (hj : j ≤ k) : src.slice i j ++ src.slice j k = src.slice i k := by
  rw [slice, slice, slice, ← String.ofList_append, ← Array.toList_append, Array.extract_append_extract,
    Nat.min_eq_left hi, Nat.max_eq_right hj]

theorem toList_before (src : Source) (i : Nat) : (src.before i).toList = src.chars.toList.take i := by
  simp [before]

theorem take_byteOffset (src : Source) (i : Nat) :
    src.bytes.take (src.byteOffset i) = utf8 (src.chars.toList.take i) := by
  have hb : src.bytes = utf8 (src.chars.toList.take i) ++ utf8 (src.chars.toList.drop i) := by
    rw [← utf8_append, List.take_append_drop, bytes]
  rw [hb, byteOffset, ← length_utf8, toList_before, List.take_left]

-- The bytes of a slice are a slice of the bytes.
theorem bytesBetween_byteOffset (h : i ≤ j) :
    src.bytesBetween (src.byteOffset i) (src.byteOffset j) = utf8 (src.slice i j).toList := by
  have ht : src.chars.toList.take j = src.chars.toList.take i ++ (src.slice i j).toList := by
    rw [slice, String.toList_ofList, Array.toList_extract, List.extract_eq_take_drop, ← List.take_add]
    congr
    omega
  rw [bytesBetween, take_byteOffset, ht, utf8_append, byteOffset, ← length_utf8, toList_before, List.drop_left]

theorem line_eq (src : Source) (i : Nat) : src.line i = 1 + (src.bytes.take (src.byteOffset i)).count lineFeed := by
  rw [take_byteOffset, count_lineFeed_utf8, line, ← Array.count_toList, toList_before]

theorem column_eq (src : Source) (i : Nat) :
    src.column i = 1 + ((src.bytes.take (src.byteOffset i)).reverse.takeWhile (· ≠ lineFeed)).length := by
  rw [take_byteOffset, ← List.reverse_reverse (src.chars.toList.take i), takeWhile_reverse_utf8, column, ← length_utf8,
    Array.toList_takeWhile, Array.toList_reverse, toList_before]
  simp [utf8, List.length_flatMap]

end Source

end QueryGlean
