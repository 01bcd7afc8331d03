import QueryGlean.Digest
import QueryGlean.Document
import QueryGlean.Keyed

namespace QueryGlean

def contentBytes (path text : String) : List UInt8 :=
  path.toUTF8.data.toList ++ text.toUTF8.data.toList

def contentKey (path text : String) : String :=
  (Digest.ofBytes (contentBytes path text)).toHex

structure CacheEntry where
  fragments : List Fragment
  status : ExtractionStatus
deriving Repr, Inhabited, BEq

structure Cache where
  entries : Keyed CacheEntry := []
  hits : Nat := 0
  misses : Nat := 0
deriving Repr, Inhabited

namespace Cache

def find? (c : Cache) (key : String) : Option CacheEntry :=
  c.entries.lookup key

def contains (c : Cache) (key : String) : Bool :=
  (c.find? key).isSome

def size (c : Cache) : Nat :=
  c.entries.length

def get (c : Cache) (key : String) : Option CacheEntry × Cache :=
  match c.find? key with
  | some e => (some e, { c with hits := c.hits + 1 })
  | none => (none, { c with misses := c.misses + 1 })

def put (c : Cache) (key : String) (e : CacheEntry) : Cache :=
  { c with entries := Keyed.insert key e c.entries }

def clear (_ : Cache) : Cache :=
  {}

@[simp]
theorem fst_get (c : Cache) (key : String) : (c.get key).1 = c.find? key := by
  unfold get; split <;> simp_all

theorem get_eq (c : Cache) (key : String) : c.get key = (c.find? key, (c.get key).2) :=
  Prod.ext (fst_get c key) rfl

@[simp]
theorem entries_get (c : Cache) (key : String) : (c.get key).2.entries = c.entries := by
  unfold get; split <;> rfl

theorem hits_get (c : Cache) (key : String) :
    (c.get key).2.hits = c.hits + if (c.find? key).isSome then 1 else 0 := by
  unfold get; split <;> simp_all

@[simp]
theorem find?_get (c : Cache) (key k : String) : (c.get key).2.find? k = c.find? k := by
  simp [find?]

theorem find?_put (c : Cache) (key k : String) (e : CacheEntry) :
    (c.put key e).find? k = if k = key then some e else c.find? k :=
  Keyed.lookup_insert key k e c.entries

end Cache

end QueryGlean
