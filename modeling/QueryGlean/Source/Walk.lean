import QueryGlean.Source.Tree

namespace QueryGlean.Tree

mutual

def size : Tree → Nat
  | node _ _ _ _ cs => sizes cs + 1

def sizes : List Tree → Nat
  | [] => 0
  | t :: ts => size t + sizes ts

end

theorem sizes_append (ss ts : List Tree) : sizes (ss ++ ts) = sizes ss + sizes ts := by
  induction ss <;> simp_all [sizes, Nat.add_assoc]

theorem size_eq (t : Tree) : t.size = sizes t.children + 1 := by
  cases t; simp [size, children]

-- Visits what is on the stack, top first; the nodes seen so far are in `seen`, latest first.
def visit (stops : Tree → Bool) (seen : List Tree) : List Tree → List Tree
  | [] => seen.reverse
  | t :: stack =>
    if stops t then visit stops (t :: seen) stack
    else visit stops (t :: seen) (t.children ++ stack)
termination_by stack => sizes stack
decreasing_by
  · simp only [sizes, size_eq]; omega
  · simp only [sizes, sizes_append, size_eq]; omega

def walkUntil (stops : Tree → Bool) (t : Tree) : List Tree :=
  visit stops [] [t]

def walk (t : Tree) : List Tree :=
  walkUntil (fun _ => false) t

mutual

def preorderUntil (stops : Tree → Bool) : Tree → List Tree
  | node k r s e cs =>
    let t := node k r s e cs
    t :: if stops t then [] else preordersUntil stops cs

def preordersUntil (stops : Tree → Bool) : List Tree → List Tree
  | [] => []
  | t :: ts => preorderUntil stops t ++ preordersUntil stops ts

end

def preorder (t : Tree) : List Tree :=
  preorderUntil (fun _ => false) t

theorem preordersUntil_append (stops : Tree → Bool) (ss ts : List Tree) :
    preordersUntil stops (ss ++ ts) = preordersUntil stops ss ++ preordersUntil stops ts := by
  induction ss <;> simp_all [preordersUntil]

theorem preorderUntil_eq (stops : Tree → Bool) (t : Tree) :
    preorderUntil stops t = t :: if stops t then [] else preordersUntil stops t.children := by
  cases t; simp [preorderUntil, children]

theorem visit_eq (stops : Tree → Bool) (seen stack : List Tree) :
    visit stops seen stack = seen.reverse ++ preordersUntil stops stack := by
  fun_induction visit stops seen stack <;>
    simp_all [preordersUntil, preordersUntil_append, preorderUntil_eq]

theorem walkUntil_eq_preorderUntil (stops : Tree → Bool) (t : Tree) :
    walkUntil stops t = preorderUntil stops t := by
  simp [walkUntil, visit_eq, preordersUntil]

end QueryGlean.Tree
