import Mathlib
import QueryGlean.Command.Run
import QueryGlean.Proofs.Command.Showing

namespace QueryGlean.Command

open Markup (Inert not_hasTag_of_not_mem not_hasTag_of_isInert)

namespace Showing

def Succeeds {α : Type} (a : Showing α) : Prop :=
  ∀ screen, ∃ v screen', a.run.run screen = (.ok v, screen')

variable {α β : Type} {a : Showing α} {f : α → Showing β} {s : String} {ds : Keyed Document} {c : Collector}

theorem Shows.succeeds {a : Showing Unit} {o : Output} {marked : List String} {parts : List Char → Prop}
    (h : a.Shows o marked parts) (hm : ∀ s ∈ marked, CanShow s) : a.Succeeds := by
  obtain ⟨text, hw, _⟩ := h.ends hm
  exact fun screen => ⟨(), _, hw screen⟩

namespace Succeeds

theorem bind (ha : a.Succeeds) (hf : ∀ v, (f v).Succeeds) : (a >>= f).Succeeds := by
  intro screen
  obtain ⟨v, screen', h⟩ := ha screen
  obtain ⟨w, screen'', h'⟩ := hf v screen'
  refine ⟨w, screen'', ?_⟩
  rw [ExceptT.run_bind, StateT.run_bind, h]
  exact h'

theorem echo (s : String) : (echo s).Succeeds :=
  fun _ => ⟨(), _, rfl⟩

theorem print (h : CanShow s) : (print s).Succeeds :=
  (shows_print s).succeeds (List.forall_mem_singleton.mpr h)

end Succeeds

structure IsShowable (path : String) (d : Document) : Prop where
  path  : '[' ∉ path.toList
  names : ∀ f ∈ d.definitions, '[' ∉ f.name.toList

theorem succeeds_printDocuments (h : ∀ p ∈ ds, IsShowable p.1 p.2) : (printDocuments ds).Succeeds := by
  refine (shows_printDocuments ds).succeeds fun s hs => (hasTag_or_canShow s).resolve_left (not_hasTag_of_not_mem ?_)
  obtain ⟨q, hq, hs⟩ := List.mem_flatMap.mp hs
  obtain ⟨p, hp, hq⟩ := List.mem_flatMap.mp hq
  obtain ⟨f, hf, rfl⟩ := List.mem_map.mp hq
  simp only [List.mem_cons, List.not_mem_nil, or_false] at hs
  rcases hs with rfl | rfl
  · exact (h p hp).path
  · exact (h p hp).names f hf

theorem succeeds_printGraphql (h : ∀ p ∈ ds, IsShowable p.1 p.2) : (printGraphql ds).Succeeds := by
  refine (shows_printGraphql ds).succeeds (List.forall_mem_map.mpr fun p hp => ?_)
  exact (hasTag_or_canShow_heading p.1).resolve_left (not_hasTag_of_not_mem (h p hp).path)

theorem succeeds_printDiagnostics (h : ∀ d ∈ c.diagnostics, Inert d.message) :
    (printDiagnostics c).Succeeds := by
  refine (shows_printDiagnostics c).succeeds (List.forall_mem_map.mpr fun d hd => ?_)
  exact (hasTag_or_canShow d.message).resolve_left (not_hasTag_of_isInert (h d hd))

end Showing

theorem Ending.showing_of_succeeds {a : Showing Unit} (h : a.Succeeds) (screen : Screen) (status : Nat) :
    (showing screen status a).status = status ∧ (showing screen status a).crash = none := by
  obtain ⟨_, screen', hs⟩ := h screen
  simp only [showing, hs, and_self]

end QueryGlean.Command
