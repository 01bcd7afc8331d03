import Mathlib
import QueryGlean.Graphql.Printer
import QueryGlean.Proofs.Runs

namespace QueryGlean.Graphql

def Mentions (s n : String) : Prop :=
  n.toList <:+: s.toList

instance (s n : String) : Decidable (Mentions s n) :=
  inferInstanceAs (Decidable (n.toList <:+: s.toList))

variable {s t n sep : String} {ss : List String} {d : Definition} {ds : List Definition}

namespace Mentions

theorem refl (s : String) : Mentions s s :=
  List.infix_rfl

theorem append_left (h : Mentions s n) (t : String) : Mentions (t ++ s) n := by
  rw [Mentions, String.toList_append]
  exact List.IsInfix.trans h (List.suffix_append _ _).isInfix

theorem append_right (h : Mentions s n) (t : String) : Mentions (s ++ t) n := by
  rw [Mentions, String.toList_append]
  exact List.IsInfix.trans h (List.prefix_append _ _).isInfix

theorem intercalate (h : Mentions s n) (hs : s ∈ ss) : Mentions (sep.intercalate ss) n := by
  rw [Mentions, String.toList_intercalate]
  exact List.IsInfix.trans h (infix_intercalate _ (List.mem_map_of_mem hs))

theorem join (h : Mentions s n) (hs : s ∈ ss) : Mentions (Print.join sep ss) n := by
  by_cases he : s.isEmpty
  case pos =>
    obtain rfl := String.isEmpty_iff.mp he
    rw [Mentions, List.infix_nil.mp h]
    exact List.nil_infix
  case neg => exact h.intercalate (List.mem_filter.mpr ⟨hs, by simpa using he⟩)

end Mentions

theorem mentions_blank {r : String} (hr : r ≠ "") (hs : s ≠ "") (ss : List String) :
    Mentions (Print.join " " (r :: s :: ss)) " " := by
  have hr : (!r.isEmpty) = true := by simpa using hr
  have hs : (!s.isEmpty) = true := by simpa using hs
  have hn : (s :: ss).filter (!·.isEmpty) ≠ [] := by simp [hs]
  rw [Print.join, List.filter_cons, if_pos hr, String.intercalate_cons_of_ne_nil hn]
  exact ((Mentions.refl " ").append_left r).append_right _

theorem mentions_operation (desc : Option Description) (k : OperationKind) (n : String)
    (vs : List VariableDefinition) (dirs : List Directive) (ss : List Selection) :
    Mentions (Print.definition (.operation desc k (some n) vs dirs ss)) n := by
  by_cases he : n = ""
  case pos => rw [he]; exact List.nil_infix
  case neg =>
    let called := n ++ Print.parenthesized (vs.map Print.variableDefinition) false
    let words := Print.join " " [k.name, called, Print.directives dirs]
    have hw : Mentions words n := ((Mentions.refl n).append_right _).join (s := called) (by simp)
    have hc : called ≠ "" := by simp [called, he]
    have hb : Mentions (Print.description desc ++ words) " " :=
      (mentions_blank (by cases k <;> decide) hc _).append_left _
    -- The keyword is not left out, since a name follows it.
    have hq : Print.description desc ++ words ≠ "query" := fun hq => absurd (hq ▸ hb) (by decide)
    rw [Print.definition, Option.getD_some, if_neg hq]
    exact ((hw.append_left _).append_right _).append_right _

theorem mentions_type (n : String) (dirs : List Directive) (b : TypeBody) : Mentions (Print.type n dirs b) n := by
  cases b <;> exact (Mentions.refl n).join List.mem_cons_self

theorem mentions_definition (h : d.name? = some n) : Mentions (Print.definition d) n := by
  cases d
  case operation desc k name vs dirs ss =>
    obtain rfl : name = some n := h
    exact mentions_operation desc k n vs dirs ss
  case fragment desc name c dirs ss =>
    cases h
    have he : s!"fragment {n} on {c} " = "fragment " ++ n ++ (" on " ++ c ++ " ") := by
      simp [toString, String.append_assoc]
    rw [Print.definition, he]
    exact (((((Mentions.refl n).append_left _).append_right _).append_left _).append_right _).append_right _
  case type =>
    cases h
    exact (mentions_type n _ _).append_left _
  case directive desc name as dirs r ls =>
    cases h
    have hn : Mentions (Print.description desc ++ "directive @" ++ n) n := (Mentions.refl n).append_left _
    exact ((((hn.append_right _).append_right _).append_right _).append_right _).append_right _
  case extendType =>
    cases h
    exact (mentions_type n _ _).append_left _
  case extendDirective =>
    cases h
    exact ((Mentions.refl n).append_left _).join List.mem_cons_self
  case schema | extendSchema => cases h

theorem mentions_document (hd : d ∈ ds) (hn : d.name? = some n) : Mentions (Print.document ds) n :=
  (mentions_definition hn).join (List.mem_map_of_mem hd)

end QueryGlean.Graphql
