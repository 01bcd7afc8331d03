import QueryGlean.Proofs.Fragment.Name
import QueryGlean.Proofs.Query.Extract

namespace QueryGlean

open Graphql

-- What a fragment is, apart from where and how it was found: its name, the hash of its query, its definition.
def Fragment.essence (g : Fragment) : String × String × Definition :=
  (g.name, g.contentHash, g.definition)

variable {m₁ m₂ : Matcher} {src₁ src₂ : Source} {path : String} {f₁ f₂ : Find} {ds₁ ds₂ : List Placed}

-- Neither the find nor the source has a say in it.
theorem Find.essence_fragment (f : Find) (src : Source) (path : String) (q : Query) (d : Placed) :
    (f.fragment src path q d).map Fragment.essence =
      (named path q.hash d.definition).bind fun e =>
        if e.2.isDefining then .ok (e.1, q.hash, e.2) else .error (.unfit (.undefining e.2)) := by
  unfold fragment
  cases named path q.hash d.definition
  case error => rfl
  case ok e =>
    change Except.map _ (if e.2.isDefining then _ else _) = if e.2.isDefining then _ else _
    split <;> rfl

namespace Matcher

theorem stable_of_lexemes (p₁ : parse (f₁.template.rawText src₁) = .ok ds₁)
    (p₂ : parse (f₂.template.rawText src₂) = .ok ds₂)
    (hl : lexemesOf (f₁.template.rawText src₁) = lexemesOf (f₂.template.rawText src₂)) :
    (m₁.extract src₁ path f₁.template).toOption.isSome = !f₁.template.hasSubstitutions ∧
    (m₂.extract src₂ path f₂.template).toOption.isSome = !f₂.template.hasSubstitutions ∧
    ∀ q₁ q₂ : Query, m₁.extract src₁ path f₁.template = .ok q₁ → m₂.extract src₂ path f₂.template = .ok q₂ →
      q₁.hash = q₂.hash ∧ q₁.definitions.length = q₂.definitions.length ∧
      ∀ (i : Nat) d₁ d₂, q₁.definitions[i]? = some d₁ → q₂.definitions[i]? = some d₂ →
        (f₁.fragment src₁ path q₁ d₁).map Fragment.essence = (f₂.fragment src₂ path q₂ d₂).map Fragment.essence := by
  refine ⟨isSome_extract_of_parse p₁, isSome_extract_of_parse p₂, fun q₁ q₂ h₁ h₂ => ?_⟩
  have hd := map_definition_eq_of_parse (parse_of_extract h₁) (parse_of_extract h₂) hl
  have hh : q₁.hash = q₂.hash := by
    rw [hash_of_extract h₁, hash_of_extract h₂, compact_eq_compactLexemes, hl, ← compact_eq_compactLexemes]
  refine ⟨hh, by simpa using congrArg List.length hd, fun i d₁ d₂ hi₁ hi₂ => ?_⟩
  have he : d₁.definition = d₂.definition := by
    simpa [hi₁, hi₂] using congrArg (fun ds : List Definition => ds[i]?) hd
  rw [Find.essence_fragment, Find.essence_fragment, hh, he]

-- A query that is moved, laid out anew and given a comment, and then found by another pass.
theorem stable_of_lexemes_of_comment :
    let src₁ := Source.ofString "graphql\x60\x7ba\x7d\x60"
    let src₂ := Source.ofString "x;graphql\x60\n\x7b a,#c\n\x7d\x60"
    let f₁ : Find := ⟨.pageQuery, .spanning 0 12⟩
    let f₂ : Find := ⟨.componentQuery, .spanning 2 20⟩
    let m₁ := Matcher.ofTree {} src₁ f₁.template.node
    let m₂ := Matcher.ofTree {} src₂ f₂.template.node
    ∃ q₁ q₂, m₁.extract src₁ "a.js" f₁.template = .ok q₁ ∧ m₂.extract src₂ "a.js" f₂.template = .ok q₂ ∧
      q₁.rawText ≠ q₂.rawText ∧ q₁.hash = q₂.hash ∧
      (f₁.fragment src₁ "a.js" q₁ (.anonymous "a" 0)).map Fragment.essence =
        (f₂.fragment src₂ "a.js" q₂ (.anonymous "a" 1)).map Fragment.essence := by
  intro src₁ src₂ f₁ f₂ m₁ m₂
  have r₁ : f₁.template.rawText src₁ = "\x7ba\x7d" := by decide +kernel
  have r₂ : f₂.template.rawText src₂ = "\n\x7b a,#c\n\x7d" := by decide +kernel
  have p₁ : parse (f₁.template.rawText src₁) = .ok [.anonymous "a" 0] := by rw [r₁]; cbv
  have p₂ : parse (f₂.template.rawText src₂) = .ok [.anonymous "a" 1] := by rw [r₂]; cbv
  have hl : lexemesOf (f₁.template.rawText src₁) = lexemesOf (f₂.template.rawText src₂) := by
    rw [r₁, r₂]
    decide
  have h₁ : m₁.extract src₁ "a.js" f₁.template = _ := extract_of_parse p₁
  have h₂ : m₂.extract src₂ "a.js" f₂.template = _ := extract_of_parse p₂
  obtain ⟨_, _, hs⟩ := stable_of_lexemes p₁ p₂ hl
  obtain ⟨hh, _, hd⟩ := hs _ _ h₁ h₂
  refine ⟨_, _, h₁, h₂, ?_, hh, hd 0 _ _ rfl rfl⟩
  simp [r₁, r₂]

end Matcher

end QueryGlean
