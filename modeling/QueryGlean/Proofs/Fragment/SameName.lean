import QueryGlean.Proofs.Fragment.Name
import QueryGlean.Proofs.Graphql.Compact
import QueryGlean.Proofs.Graphql.Offsets

namespace QueryGlean

namespace Graphql

def ownSenses (text : String) (ds : List Placed) (d : Placed) : List (TokenKind × String) :=
  ((TokenStream.ofString text).tokens.filter fun t =>
    d.start ≤ t.start && ds.all fun e => e.start ≤ d.start || t.start < e.start).map (·.toLexeme.sense)

theorem ownSenses_of_single {text : String} {d : Placed} (h : parse text = .ok [d]) :
    ownSenses text [d] d = senses text := by
  rw [ownSenses, senses, List.filter_eq_self.mpr fun t ht => by simp [start_le_of_parse h t ht]]

end Graphql

theorem Name.generate_inj {path h₁ h₂ : String} : generate path h₁ = generate path h₂ ↔ h₁ = h₂ := by
  simp [generate]

namespace Matcher

variable {m : Matcher} {src : Source} {path : String} {f₁ f₂ : Find} {d₁ d₂ : Graphql.Placed} {g₁ g₂ : Fragment}

open Graphql

theorem Makes.name_eq_iff (h₁ : m.Makes src path f₁ d₁ g₁) (h₂ : m.Makes src path f₂ d₂ g₂)
    (a₁ : d₁.definition.name? = none) (a₂ : d₂.definition.name? = none)
    (hc : Name.contentHash (compact (f₁.template.rawText src)) = Name.contentHash (compact (f₂.template.rawText src)) →
      compact (f₁.template.rawText src) = compact (f₂.template.rawText src)) :
    (g₁.name = g₂.name ↔ senses (f₁.template.rawText src) = senses (f₂.template.rawText src)) ∧
      (parse (f₁.template.rawText src) = .ok [d₁] → parse (f₂.template.rawText src) = .ok [d₂] →
        (g₁.name = g₂.name ↔
          ownSenses (f₁.template.rawText src) [d₁] d₁ = ownSenses (f₂.template.rawText src) [d₂] d₂)) := by
  have ⟨c₁, n₁, _⟩ := h₁.of_anonymous a₁
  have ⟨c₂, n₂, _⟩ := h₂.of_anonymous a₂
  have hs : g₁.name = g₂.name ↔ senses (f₁.template.rawText src) = senses (f₂.template.rawText src) := by
    rw [n₁, n₂, Name.generate_inj, c₁, c₂, ← compact_eq_iff]
    exact ⟨hc, fun h => by rw [h]⟩
  exact ⟨hs, fun p₁ p₂ => by rw [ownSenses_of_single p₁, ownSenses_of_single p₂, hs]⟩

theorem Makes.name_eq_iff_of_two :
    let src := Source.ofString "graphql\x60\x7ba\x7d\x60 graphql\x60\x7bb\x7d\x60"
    let T₁ := TaggedTemplate.spanning 0 12
    let T₂ := TaggedTemplate.spanning 13 25
    let m := Matcher.ofTree {} src (.node .phrase none 0 25 [T₁.node, T₂.node])
    let d₁ := Placed.anonymous "a" 0
    let d₂ := Placed.anonymous "b" 0
    ∃ g₁ g₂, m.Makes src "a.js" ⟨.pageQuery, T₁⟩ d₁ g₁ ∧ m.Makes src "a.js" ⟨.pageQuery, T₂⟩ d₂ g₂ ∧
      ownSenses (T₁.rawText src) [d₁] d₁ ≠ ownSenses (T₂.rawText src) [d₂] d₂ ∧ g₁.name ≠ g₂.name := by
  intro src T₁ T₂ m d₁ d₂
  have r₁ : T₁.rawText src = "\x7ba\x7d" := by decide +kernel
  have r₂ : T₂.rawText src = "\x7bb\x7d" := by decide +kernel
  have p₁ : parse (T₁.rawText src) = .ok [d₁] := by rw [r₁]; cbv
  have p₂ : parse (T₂.rawText src) = .ok [d₂] := by rw [r₂]; cbv
  obtain ⟨g₁, h₁⟩ : ∃ g, m.Makes src "a.js" ⟨.pageQuery, T₁⟩ d₁ g :=
    exists_makes (by decide +kernel) p₁ List.mem_cons_self
  obtain ⟨g₂, h₂⟩ : ∃ g, m.Makes src "a.js" ⟨.pageQuery, T₂⟩ d₂ g :=
    exists_makes (by decide +kernel) p₂ List.mem_cons_self
  have hc : Name.contentHash (compact (T₁.rawText src)) ≠ Name.contentHash (compact (T₂.rawText src)) := by
    decide +kernel
  have ho : ownSenses (T₁.rawText src) [d₁] d₁ ≠ ownSenses (T₂.rawText src) [d₂] d₂ := by
    decide +kernel
  have hn := h₁.name_eq_iff h₂ rfl rfl fun h => absurd h hc
  exact ⟨g₁, g₂, h₁, h₂, ho, fun h => ho ((hn.right p₁ p₂).mp h)⟩

theorem name_eq_of_sameTemplate :
    let src := Source.ofString "graphql\x60\x7ba\x7d\x7bb\x7d\x60"
    let T := TaggedTemplate.spanning 0 15
    let m := Matcher.ofTree {} src T.node
    let d₁ := Placed.anonymous "a" 0
    let d₂ := Placed.anonymous "b" 3
    ∃ g₁ g₂, m.Makes src "a.js" ⟨.pageQuery, T⟩ d₁ g₁ ∧ m.Makes src "a.js" ⟨.pageQuery, T⟩ d₂ g₂ ∧
      ownSenses (T.rawText src) [d₁, d₂] d₁ ≠ ownSenses (T.rawText src) [d₁, d₂] d₂ ∧ g₁.name = g₂.name := by
  intro src T m d₁ d₂
  have ht : T.rawText src = "\x7ba\x7d\x7bb\x7d" := by decide +kernel
  have hp : parse (T.rawText src) = .ok [d₁, d₂] := by rw [ht]; cbv
  obtain ⟨g₁, h₁⟩ : ∃ g, m.Makes src "a.js" ⟨.pageQuery, T⟩ d₁ g :=
    exists_makes (by decide +kernel) hp List.mem_cons_self
  obtain ⟨g₂, h₂⟩ : ∃ g, m.Makes src "a.js" ⟨.pageQuery, T⟩ d₂ g :=
    exists_makes (by decide +kernel) hp (List.mem_cons_of_mem _ List.mem_cons_self)
  obtain ⟨c₁, n₁, _⟩ := h₁.of_anonymous rfl
  obtain ⟨c₂, n₂, _⟩ := h₂.of_anonymous rfl
  exact ⟨g₁, g₂, h₁, h₂, by decide +kernel, by rw [n₁, n₂, c₁, c₂]⟩

end Matcher

end QueryGlean
