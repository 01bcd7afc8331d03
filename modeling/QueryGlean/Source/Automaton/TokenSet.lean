
namespace QueryGlean

structure TokenSet where
  bits : Nat
deriving DecidableEq, Hashable, Repr, Inhabited

namespace TokenSet

instance : EmptyCollection TokenSet := ⟨⟨0⟩⟩
instance : Union TokenSet := ⟨fun a b => ⟨a.bits ||| b.bits⟩⟩
instance : Inter TokenSet := ⟨fun a b => ⟨a.bits &&& b.bits⟩⟩

def single (i : Nat) : TokenSet :=
  ⟨1 <<< i⟩

def contains (s : TokenSet) (i : Nat) : Bool :=
  s.bits.testBit i

def isEmpty (s : TokenSet) : Bool :=
  s.bits == 0

def ofList (is : List Nat) : TokenSet :=
  is.foldl (fun s i => s ∪ single i) ∅

theorem contains_union (a b : TokenSet) (i : Nat) :
    (a ∪ b).contains i = (a.contains i || b.contains i) :=
  Nat.testBit_or ..

theorem contains_inter (a b : TokenSet) (i : Nat) :
    (a ∩ b).contains i = (a.contains i && b.contains i) :=
  Nat.testBit_and ..

theorem contains_single (i j : Nat) : (single i).contains j = decide (i = j) := by
  simp [single, contains, Nat.shiftLeft_eq, Nat.testBit_two_pow]

end TokenSet

end QueryGlean
