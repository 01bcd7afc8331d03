
namespace QueryGlean.Outcome

variable {ε α β : Type} {a : α} {b : β} {as : List α} {bs : List β}

theorem ok_of_bind {x : Except ε α} {f : α → Except ε β} (h : x >>= f = .ok b) :
    ∃ a, x = .ok a ∧ f a = .ok b := by
  cases x
  case error => cases h
  case ok a  => exact ⟨a, rfl, h⟩

theorem error_of_bind {x : Except ε α} {f : α → Except ε β} {e : ε} (h : x >>= f = .error e) :
    x = .error e ∨ ∃ a, x = .ok a ∧ f a = .error e := by
  cases x
  case error => exact .inl (by cases h; rfl)
  case ok a  => exact .inr ⟨a, rfl, h⟩

theorem ok_of_map {x : Except ε α} {f : α → β} (h : x.map f = .ok b) : ∃ a, x = .ok a ∧ f a = b := by
  cases x
  case error => cases h
  case ok a  => exact ⟨a, rfl, Except.ok.inj h⟩

theorem ok_of_toOption {x : Except ε α} (h : x.toOption = some a) : x = .ok a := by
  cases x
  case error => cases h
  case ok a' => exact congrArg Except.ok (Option.some.inj h)

theorem ok_of_mapM_cons {f : α → Except ε β} (h : (a :: as).mapM f = .ok bs) :
    ∃ b bs', f a = .ok b ∧ as.mapM f = .ok bs' ∧ bs = b :: bs' := by
  rw [List.mapM_cons] at h
  have ⟨b, hb, h⟩ := ok_of_bind h
  have ⟨bs', hbs, h⟩ := ok_of_bind h
  exact ⟨b, bs', hb, hbs, (Except.ok.inj h).symm⟩

theorem mem_of_mapM {f : α → Except ε β} (h : as.mapM f = .ok bs) : b ∈ bs ↔ ∃ a ∈ as, f a = .ok b := by
  induction as generalizing bs
  case nil =>
    cases h
    simp
  case cons a as hi =>
    have ⟨b', bs', hb, hbs, he⟩ := ok_of_mapM_cons h
    simp [he, hi hbs, hb, eq_comm (a := b)]

theorem ok_of_mem_mapM {f : α → Except ε β} (h : as.mapM f = .ok bs) (ha : a ∈ as) :
    ∃ b, f a = .ok b := by
  induction as generalizing bs
  case nil => cases ha
  case cons a' as hi =>
    have ⟨b, bs', hb, hbs, _⟩ := ok_of_mapM_cons h
    cases List.mem_cons.mp ha
    case inl he => exact ⟨b, he ▸ hb⟩
    case inr ha => exact hi hbs ha

theorem exists_ok_mapM_iff {f : α → Except ε β} : (∃ bs, as.mapM f = .ok bs) ↔ ∀ a ∈ as, ∃ b, f a = .ok b := by
  constructor
  case mp => exact fun ⟨bs, h⟩ a ha => ok_of_mem_mapM h ha
  case mpr =>
    intro h
    induction as
    case nil => exact ⟨[], rfl⟩
    case cons a as hi =>
      have ⟨ha, has⟩ := List.forall_mem_cons.mp h
      obtain ⟨b, hb⟩ := ha
      obtain ⟨bs, hbs⟩ := hi has
      exact ⟨b :: bs, by rw [List.mapM_cons, hb, hbs]; rfl⟩

def error? : Except ε α → Option ε
  | .ok _    => none
  | .error e => some e

theorem error?_eq_some_iff {x : Except ε α} {e : ε} : error? x = some e ↔ x = .error e := by
  cases x <;> simp [error?]

theorem error?_map (x : Except ε α) (f : α → β) : error? (x.map f) = error? x := by
  cases x <;> rfl

theorem error?_mapM (f : α → Except ε β) (as : List α) : error? (as.mapM f) = as.findSome? fun a => error? (f a) := by
  induction as
  case nil => rfl
  case cons a as hi =>
    rw [List.mapM_cons, List.findSome?_cons, ← hi]
    cases f a
    case error => rfl
    case ok b =>
      cases as.mapM f
      case error => rfl
      case ok bs => rfl

end QueryGlean.Outcome
