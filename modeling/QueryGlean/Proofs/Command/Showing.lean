import Mathlib
import QueryGlean.Command.Output
import QueryGlean.Proofs.Console.Table
import QueryGlean.Proofs.Console.Verbatim
import QueryGlean.Proofs.Graphql.Mentions

namespace QueryGlean.Command

open Console (HasRoom Table linesOf written)
open Markup (HasTag IsVerbatim not_hasTag_nil not_hasTag_of_not_mem)

inductive Output
  | out
  | err

def Screen.add (screen : Screen) : Output → String → Screen
  | .out, s => { screen with out := screen.out ++ s }
  | .err, s => { screen with err := screen.err ++ s }

theorem Screen.add_add (screen : Screen) (o : Output) (s t : String) :
    (screen.add o s).add o t = screen.add o (s ++ t) := by
  cases o <;> simp [add, String.append_assoc]

def CanShow (s : String) : Prop :=
  ∃ cs, Markup.render s = .ok cs

namespace Showing

def Writes (a : Showing Unit) (o : Output) (text : String) : Prop :=
  ∀ screen, a.run.run screen = (.ok (), screen.add o text)

def Fails {α : Type} (a : Showing α) : Prop :=
  ∀ screen, ∃ e screen', a.run.run screen = (.error e, screen')

-- How showing ends if it shows texts with markup:
-- 1. if all of them can be shown it writes a text, in which these parts stand
-- 2. otherwise it fails
structure Shows (a : Showing Unit) (o : Output) (marked : List String) (parts : List Char → Prop) : Prop where
  ends  : (∀ s ∈ marked, CanShow s) → ∃ text, a.Writes o text ∧ ∀ cs, parts cs → cs <:+: text.toList
  fails : (∃ s ∈ marked, ¬ CanShow s) → a.Fails

variable {α β : Type} {a b : Showing Unit} {o : Output} {s t : String} {marked marked' : List String}
variable {parts parts' : List Char → Prop} {cs : List Char}

theorem Writes.seq (ha : a.Writes o s) (hb : b.Writes o t) : Writes (a >>= fun _ => b) o (s ++ t) := by
  intro screen
  rw [ExceptT.run_bind, StateT.run_bind, ha screen]
  exact (hb _).trans (by rw [Screen.add_add])

theorem Writes.seq_fails (ha : a.Writes o s) (hb : b.Fails) : Fails (a >>= fun _ => b) := by
  intro screen
  obtain ⟨e, screen', h⟩ := hb (screen.add o s)
  refine ⟨e, screen', ?_⟩
  rw [ExceptT.run_bind, StateT.run_bind, ha screen]
  exact h

theorem Fails.bind {a : Showing α} (ha : a.Fails) (f : α → Showing β) : Fails (a >>= f) := by
  intro screen
  obtain ⟨e, screen', h⟩ := ha screen
  refine ⟨e, screen', ?_⟩
  rw [ExceptT.run_bind, StateT.run_bind, h]
  rfl

theorem join_lines (ls : List (List Char)) :
    String.join (ls.map fun l => String.ofList l ++ "\n") = String.ofList (written ls) := by
  rw [← String.toList_inj, String.toList_join, String.toList_ofList, List.flatMap_map, written]
  simp

theorem Writes.outLines (ls : List (List Char)) : (outLines ls).Writes .out (String.ofList (written ls)) :=
  fun _ => join_lines ls ▸ rfl

theorem Writes.errLines (ls : List (List Char)) : (errLines ls).Writes .err (String.ofList (written ls)) :=
  fun _ => join_lines ls ▸ rfl

namespace Shows

theorem mono (h : a.Shows o marked parts) (hm : (∀ s ∈ marked', CanShow s) ↔ ∀ s ∈ marked, CanShow s)
    (hp : ∀ cs, parts' cs → parts cs) : a.Shows o marked' parts' where
  ends hc := by
    obtain ⟨text, hw, ht⟩ := h.ends (hm.mp hc)
    exact ⟨text, hw, fun cs hcs => ht cs (hp cs hcs)⟩
  fails hc := h.fails (by simpa using mt hm.mpr (by simpa using hc))

theorem seq (ha : a.Shows o marked parts) (hb : b.Shows o marked' parts') :
    Shows (a >>= fun _ => b) o (marked ++ marked') fun cs => parts cs ∨ parts' cs where
  ends hc := by
    have ⟨hc, hc'⟩ := List.forall_mem_append.mp hc
    obtain ⟨s, hs, hp⟩ := ha.ends hc
    obtain ⟨t, ht, hp'⟩ := hb.ends hc'
    refine ⟨s ++ t, hs.seq ht, fun cs h => ?_⟩
    rw [String.toList_append]
    rcases h with h | h
    case inl => exact (hp cs h).trans (List.prefix_append _ _).isInfix
    case inr => exact (hp' cs h).trans (List.suffix_append _ _).isInfix
  fails hc := by
    -- What comes first fails, or it is written and the other fails.
    by_cases hm : ∀ s ∈ marked, CanShow s
    case pos =>
      obtain ⟨s, hs, _⟩ := ha.ends hm
      obtain ⟨t, ht, hn⟩ := hc
      exact hs.seq_fails (hb.fails ⟨t, (List.mem_append.mp ht).resolve_left fun h => hn (hm t h), hn⟩)
    case neg => exact (ha.fails (by simpa using hm)).bind _

theorem forM {xs : List α} {f : α → Showing Unit} {marked : α → List String} {parts : α → List Char → Prop}
    (h : ∀ x ∈ xs, (f x).Shows o (marked x) (parts x)) :
    (xs.forM f).Shows o (xs.flatMap marked) fun cs => ∃ x ∈ xs, parts x cs := by
  induction xs
  case nil =>
    refine ⟨fun _ => ⟨"", fun screen => ?_, by simp⟩, by simp⟩
    cases o <;> simp [Screen.add, List.forM_nil] <;> rfl
  case cons x xs hi =>
    have ⟨hx, hxs⟩ := List.forall_mem_cons.mp h
    exact (hx.seq (hi hxs)).mono (by rw [List.flatMap_cons]) fun cs hc => by simpa using hc

end Shows

def StandsIn (s : String) (cs : List Char) : Prop :=
  ∃ out, Markup.render s = .ok out ∧ cs <:+: out ∧ HasRoom consoleWidth out cs

theorem render_of_ok (h : Markup.render s = .ok cs) : render s = pure cs := by
  rw [render, h]

theorem fails_render (h : ¬ CanShow s) : (render s).Fails := by
  cases hr : Markup.render s
  case ok cs    => exact absurd ⟨cs, hr⟩ h
  case error e  => exact fun screen => ⟨e, screen, by rw [render, hr]; rfl⟩

theorem shows_wrapped {put : List (List Char) → Showing Unit}
    (hw : ∀ ls, (put ls).Writes o (String.ofList (written ls))) (s : String) :
    Shows (render s >>= fun cs => put (Console.wrap consoleWidth .fold cs)) o [s] (StandsIn s) where
  ends hc := by
    obtain ⟨out, hs⟩ := hc s (List.mem_singleton_self s)
    rw [render_of_ok hs, pure_bind]
    refine ⟨_, hw _, fun cs ⟨out', hs', hp, hr⟩ => ?_⟩
    cases hs.symm.trans hs'
    rw [String.toList_ofList]
    exact Console.infix_written_wrap hp hr .fold
  fails hc := (fails_render (by simpa using hc)).bind _

theorem shows_print (s : String) : (print s).Shows .out [s] (StandsIn s) :=
  shows_wrapped Writes.outLines s

theorem shows_printError (s : String) : (printError s).Shows .err [s] (StandsIn s) :=
  shows_wrapped Writes.errLines s

theorem shows_printPlain (s : String) : (printPlain s).Shows .out []
    fun cs => cs <:+: Markup.visible s.toList ∧ HasRoom consoleWidth (Markup.visible s.toList) cs where
  ends _ := ⟨_, Writes.outLines _, fun cs h => by
    rw [String.toList_ofList]
    exact Console.infix_written_wrap h.left h.right .fold⟩
  fails hc := by simp at hc

def labelled (d : Diagnostic) : String :=
  s!"[{colour d.severity}]{d.severity.name}[/{colour d.severity}] {d.message}"

def InMessages (c : Collector) (cs : List Char) : Prop :=
  ∃ d ∈ c.diagnostics, cs = d.message.toList ∧ IsVerbatim cs ∧
    HasRoom consoleWidth (d.severity.name.toList ++ ' ' :: cs) cs

theorem colour_mem_messageStyles (s : Severity) : colour s ∈ Markup.messageStyles := by
  cases s <;> decide

theorem render_labelled (d : Diagnostic) :
    Markup.render (labelled d) = (Markup.render d.message).map (d.severity.name.toList ++ ' ' :: ·) := by
  have hn : '[' ∉ d.severity.name.toList := by cases d.severity <;> decide
  have hs : ¬ ['\\'] <:+ d.severity.name.toList := by cases d.severity <;> decide
  have hv : IsVerbatim d.severity.name.toList :=
    .of_not_mem hn (by cases d.severity <;> simp [Severity.name, Markup.isControl])
  refine Markup.render_labelled (colour_mem_messageStyles d.severity) hn hv hs ?_
  simp [labelled, Markup.styled, toString]

theorem canShow_labelled (d : Diagnostic) : CanShow (labelled d) ↔ CanShow d.message := by
  rw [CanShow, CanShow, render_labelled]
  cases Markup.render d.message <;> simp [Except.map]

theorem shows_printDiagnostics (c : Collector) :
    (printDiagnostics c).Shows .err (c.diagnostics.map (·.message)) (InMessages c) := by
  have h := Shows.forM fun d (_ : d ∈ c.diagnostics) => shows_printError (labelled d)
  refine h.mono ?_ ?_
  case refine_1 => simp only [← List.map_eq_flatMap, List.forall_mem_map, canShow_labelled]
  case refine_2 =>
    rintro _ ⟨d, hd, rfl, hv, hr⟩
    refine ⟨d, hd, _, ?_, ?_, hr⟩
    case refine_1 => rw [render_labelled, Markup.render_eq_self_iff.mpr hv]; rfl
    case refine_2 => exact (List.suffix_append_of_suffix (List.suffix_cons ' ' _)).isInfix

def heading (path : String) : String :=
  s!"[bold]# {path}[/bold]"

def InGraphql (ds : Keyed Document) (cs : List Char) : Prop :=
  (∃ p ∈ ds, cs = p.1.toList ∧ IsVerbatim cs ∧ ¬ ['\\'] <:+ cs ∧ HasRoom consoleWidth ('#' :: ' ' :: cs) cs) ∨
    ∃ p ∈ ds, ∃ f ∈ p.2.definitions, f.definition.name? = some f.name ∧ cs = f.name.toList ∧
      (∀ c ∈ cs, Markup.isControl c = false) ∧ HasRoom consoleWidth (Markup.visible p.2.toGraphql.toList) cs

theorem render_heading {path : String} (hv : IsVerbatim path.toList) (hs : ¬ ['\\'] <:+ path.toList) :
    Markup.render (heading path) = .ok ('#' :: ' ' :: path.toList) := by
  have hb : "bold" ∈ Markup.messageStyles := by decide
  have hl : IsVerbatim ('#' :: ' ' :: path.toList) :=
    (hv.cons (by decide) (by decide) (by decide)).cons (by decide) (by decide) (by decide)
  have hs' : ¬ ['\\'] <:+ '#' :: ' ' :: path.toList := by
    rw [List.suffix_cons_iff, List.suffix_cons_iff]
    simpa using hs
  have he : (heading path).toList = Markup.styled "bold" ('#' :: ' ' :: path.toList) [] := by
    simp [heading, Markup.styled, toString]
  rw [Markup.render_label hb hl.untagged hs' he, hl.visible_unescape]
  simp [Markup.cut, Markup.shown, Except.map, Markup.unescape, Markup.visible]

theorem shows_printGraphql (ds : Keyed Document) :
    (printGraphql ds).Shows .out (ds.map fun p => heading p.1) (InGraphql ds) := by
  have h := Shows.forM fun p (_ : p ∈ ds) => (shows_print (heading p.1)).seq (shows_printPlain p.2.toGraphql)
  refine h.mono ?_ ?_
  case refine_1 => simp only [List.append_nil, ← List.map_eq_flatMap]
  case refine_2 =>
    rintro _ (⟨p, hp, rfl, hv, hs, hr⟩ | ⟨p, hp, f, hf, hn, rfl, hc, hr⟩)
    case inl =>
      refine ⟨p, hp, .inl ⟨_, render_heading hv hs, ?_, hr⟩⟩
      exact ((List.suffix_cons ' ' _).trans (List.suffix_cons '#' _)).isInfix
    case inr =>
      refine ⟨p, hp, .inr ⟨?_, hr⟩⟩
      have hm : f.name.toList <:+: p.2.toGraphql.toList :=
        Graphql.mentions_document (List.mem_map_of_mem hf) hn
      have hv : Markup.visible f.name.toList = f.name.toList := Markup.visible_eq_self_iff.mpr hc
      rw [← hv]
      exact hm.filter _

def fragmentsOf (ds : Keyed Document) : List (String × Fragment) :=
  ds.flatMap fun (path, d) => d.definitions.map (path, ·)

def rowOf (p : String × Fragment) : Except Markup.Error (List (List Char)) :=
  [p.1, toString p.2.line, p.2.kind.name, p.2.name].mapM Markup.render

def tableWith (rows : List (List (List Char))) : Table where
  title   := "Extracted queries"
  columns := [⟨"File", .left⟩, ⟨"Line", .right⟩, ⟨"Kind", .left⟩, ⟨"Name", .left⟩]
  rows    := rows

def tableOf (ds : Keyed Document) : Except Markup.Error Table :=
  ((fragmentsOf ds).mapM rowOf).map tableWith

def cellsOf (ds : Keyed Document) : List String :=
  (fragmentsOf ds).flatMap fun p => [p.1, p.2.name]

-- A table has room for a line in a cell, and the console for the table. What becomes of wider tables is left open.
structure HasRoomInTable (ds : Keyed Document) (line : List Char) : Prop where
  cell  : Table.Stands line
  table : ∀ t, tableOf ds = .ok t → ∀ l ∈ t.lines, Console.width l ≤ consoleWidth

def InTable (ds : Keyed Document) (cs : List Char) : Prop :=
  ∃ s ∈ cellsOf ds, IsVerbatim s.toList ∧ cs ∈ linesOf s.toList ∧ HasRoomInTable ds cs

variable {ds : Keyed Document} {tb : Table} {p : String × Fragment} {row : List (List Char)}

theorem mapM_ofExcept {as : List α} {f : α → Except Markup.Error β} {g : α → Showing β}
    (hg : ∀ a, g a = ofExcept (f a)) : as.mapM g = ofExcept (as.mapM f) := by
  induction as
  case nil => rfl
  case cons a as hi =>
    rw [List.mapM_cons, List.mapM_cons, hg, hi]
    cases f a
    case error => rfl
    case ok b => cases as.mapM f <;> rfl

theorem printDocuments_eq (h : ds ≠ []) :
    printDocuments ds = ofExcept (tableOf ds) >>= fun t => outLines t.lines := by
  have hr (s : String) : render s = ofExcept (Markup.render s) := by
    rw [render]
    cases Markup.render s <;> rfl
  have hm : (fragmentsOf ds).mapM (fun p => [p.1, toString p.2.line, p.2.kind.name, p.2.name].mapM render) =
      ofExcept ((fragmentsOf ds).mapM rowOf) := mapM_ofExcept fun _ => mapM_ofExcept hr
  rw [printDocuments, if_neg (by simpa using h)]
  refine (congrArg (· >>= _) hm).trans ?_
  rw [tableOf]
  cases (fragmentsOf ds).mapM rowOf <;> rfl

theorem writes_printDocuments (hn : ds ≠ []) (ht : tableOf ds = .ok tb) :
    (printDocuments ds).Writes .out (String.ofList (written tb.lines)) := by
  rw [printDocuments_eq hn, ht]
  exact Writes.outLines tb.lines

theorem isVerbatim_kind (k : FragmentKind) : IsVerbatim k.name.toList := by
  cases k <;> exact .of_not_mem (by simp [FragmentKind.name]) (by simp [FragmentKind.name, Markup.isControl])

theorem rowOf_eq_ok_iff : rowOf p = .ok row ↔ ∃ path name, Markup.render p.1 = .ok path ∧
    Markup.render p.2.name = .ok name ∧ row = [path, (toString p.2.line).toList, p.2.kind.name.toList, name] := by
  have hl := Markup.render_eq_self_iff.mpr (Markup.isVerbatim_toString p.2.line)
  have hk := Markup.render_eq_self_iff.mpr (isVerbatim_kind p.2.kind)
  simp only [rowOf, List.mapM_cons, List.mapM_nil, hl, hk]
  cases Markup.render p.1
  case error => simp [bind, Except.bind]
  case ok => cases Markup.render p.2.name <;> simp [bind, Except.bind, pure, Except.pure, eq_comm]

theorem exists_rowOf_iff : (∃ row, rowOf p = .ok row) ↔ CanShow p.1 ∧ CanShow p.2.name := by
  constructor
  case mp =>
    rintro ⟨row, h⟩
    obtain ⟨path, name, hp, hn, _⟩ := rowOf_eq_ok_iff.mp h
    exact ⟨⟨path, hp⟩, name, hn⟩
  case mpr =>
    rintro ⟨⟨path, hp⟩, name, hn⟩
    exact ⟨_, rowOf_eq_ok_iff.mpr ⟨path, name, hp, hn, rfl⟩⟩

theorem exists_tableOf_iff : (∃ t, tableOf ds = .ok t) ↔ ∀ s ∈ cellsOf ds, CanShow s := by
  have hm : (∃ t, tableOf ds = .ok t) ↔ ∃ rows, (fragmentsOf ds).mapM rowOf = .ok rows := by
    rw [tableOf]
    cases (fragmentsOf ds).mapM rowOf <;> simp [Except.map]
  rw [hm, Outcome.exists_ok_mapM_iff]
  simp only [exists_rowOf_iff, cellsOf, List.forall_mem_flatMap, List.forall_mem_cons]
  simp

theorem exists_cell (ht : tableOf ds = .ok tb) (hs : s ∈ cellsOf ds) (hv : IsVerbatim s.toList) :
    ∃ row ∈ tb.rows, ∃ (i : ℕ) (c : Console.Column), row[i]? = some s.toList ∧ tb.columns[i]? = some c := by
  obtain ⟨rows, hm, rfl⟩ := Outcome.ok_of_map ht
  obtain ⟨p, hp, hs⟩ := List.mem_flatMap.mp hs
  obtain ⟨row, hr⟩ := Outcome.ok_of_mem_mapM hm hp
  have hv := Markup.render_eq_self_iff.mpr hv
  refine ⟨row, (Outcome.mem_of_mapM hm).mpr ⟨p, hp, hr⟩, ?_⟩
  obtain ⟨path, name, hp, hn, rfl⟩ := rowOf_eq_ok_iff.mp hr
  simp only [List.mem_cons, List.not_mem_nil, or_false] at hs
  rcases hs with rfl | rfl
  case inl => exact ⟨0, _, congrArg some (Except.ok.inj (hp.symm.trans hv)), rfl⟩
  case inr => exact ⟨3, _, congrArg some (Except.ok.inj (hn.symm.trans hv)), rfl⟩

theorem shows_printDocuments (ds : Keyed Document) : (printDocuments ds).Shows .out (cellsOf ds) (InTable ds) := by
  by_cases hn : ds = []
  case pos =>
    have yellow : "yellow" ∈ Markup.messageStyles := by decide
    have hl : '[' ∉ "No queries found".toList := by simp
    have hs : CanShow "[yellow]No queries found[/yellow]" :=
      Markup.exists_render_of_styled yellow (not_hasTag_of_not_mem hl) not_hasTag_nil rfl
    subst hn
    refine (shows_print "[yellow]No queries found[/yellow]").mono ?_ ?_
    case refine_1 => simp [cellsOf, fragmentsOf, hs]
    case refine_2 => simp [InTable, cellsOf, fragmentsOf]
  case neg =>
    constructor
    case ends =>
      intro hc
      obtain ⟨t, ht⟩ := exists_tableOf_iff.mpr hc
      refine ⟨_, writes_printDocuments hn ht, fun cs ⟨s, hs, hv, hl, hst, _⟩ => ?_⟩
      obtain ⟨row, hr, i, c, hi, hcol⟩ := exists_cell ht hs hv
      obtain ⟨line, hm, hp⟩ := hst.exists_mem_lines hr hi hcol hl
      rw [String.toList_ofList]
      exact Console.infix_written hp hm
    case fails =>
      intro hc
      cases ht : tableOf ds
      case ok t => exact absurd (exists_tableOf_iff.mp ⟨t, ht⟩) (by simpa using hc)
      case error e => exact fun screen => ⟨e, screen, by rw [printDocuments_eq hn, ht]; rfl⟩

theorem hasTag_or_canShow (s : String) : HasTag s.toList ∨ CanShow s :=
  or_iff_not_imp_left.mpr fun h => ⟨_, Markup.render_of_not_hasTag h⟩

theorem hasTag_or_canShow_heading (path : String) : HasTag path.toList ∨ CanShow (heading path) := by
  refine or_iff_not_imp_left.mpr fun h => ?_
  have bold : "bold" ∈ Markup.messageStyles := by decide
  have hl : ¬ HasTag ('#' :: ' ' :: path.toList) := by
    rwa [Markup.hasTag_cons (by decide), Markup.hasTag_cons (by decide)]
  exact Markup.exists_render_of_styled bold hl not_hasTag_nil (by simp [heading, Markup.styled, toString])

-- How documents and diagnostics are shown:
-- 1. tables, GraphQL and diagnostics are shown to their end exactly if the markup of each cell, of each heading and of
--    each message is in order, and then what is plain and has room stands in the text
-- 2. the texts without tags are in order, and exactly those that are plain are shown character for character
-- Nothing is said of the names of emoji between colons, which the markup here does not know.
structure Exact (ds : Keyed Document) (c : Collector) : Prop where
  documents   : (printDocuments ds).Shows .out (cellsOf ds) (InTable ds)
  graphql     : (printGraphql ds).Shows .out (ds.map fun p => heading p.1) (InGraphql ds)
  diagnostics : (printDiagnostics c).Shows .err (c.diagnostics.map (·.message)) (InMessages c)
  verbatim    : ∀ s, Markup.render s = .ok s.toList ↔ IsVerbatim s.toList
  ordered     : ∀ s, HasTag s.toList ∨ CanShow s ∧ CanShow (heading s)

theorem printing_exact (ds : Keyed Document) (c : Collector) : Exact ds c where
  documents   := shows_printDocuments ds
  graphql     := shows_printGraphql ds
  diagnostics := shows_printDiagnostics c
  verbatim _  := Markup.render_eq_self_iff
  ordered s   := by
    by_cases h : HasTag s.toList
    case pos => exact .inl h
    case neg => exact .inr ⟨(hasTag_or_canShow s).resolve_left h, (hasTag_or_canShow_heading s).resolve_left h⟩

def page (path : String) : Fragment where
  name        := "Page"
  sourceText  := "query Page { a }"
  contentHash := "0"
  kind        := .pageQuery
  locationKey := "50-0"
  filePath    := path
  line        := 2
  column      := 25
  definition  := .operation none .query (some "Page") [] [] [.field none "a" [] [] none]

def listing (path : String) : Keyed Document :=
  [(path, ⟨page path, []⟩)]

def pageRow (shown : String) : List (List Char) :=
  [shown.toList, "2".toList, "page_query".toList, "Page".toList]

theorem tableOf_listing {path shown : String} (h : Markup.render path = .ok shown.toList) :
    tableOf (listing path) = .ok (tableWith [pageRow shown]) := by
  have hn : Markup.render "Page" = .ok "Page".toList := by decide +kernel
  have hl : (toString (2 : ℤ)).toList = "2".toList := by decide
  have hr : rowOf (path, page path) = .ok (pageRow shown) := rowOf_eq_ok_iff.mpr ⟨_, _, h, hn, by rw [page, hl]; rfl⟩
  simp only [tableOf, fragmentsOf, listing, List.flatMap_cons, List.flatMap_nil, Document.definitions, List.map_cons,
    List.map_nil, List.append_nil, List.mapM_cons, List.mapM_nil, hr]
  rfl

theorem hides_of_render {path shown : String} (h : Markup.render path = .ok shown.toList) (hb : '[' ∈ path.toList)
    (hn : '[' ∉ written (tableWith [pageRow shown]).lines) :
    ∃ text, (printDocuments (listing path)).Writes .out text ∧ ¬ path.toList <:+: text.toList := by
  refine ⟨_, writes_printDocuments (List.cons_ne_nil _ _) (tableOf_listing h), fun hi => hn ?_⟩
  rw [String.toList_ofList] at hi
  exact hi.subset hb

-- A route of which the part in brackets is not shown though there is room for it, and one that is not shown at all.
theorem hidden_of_route :
    (∀ line ∈ linesOf "src/pages/[id].js".toList, HasRoomInTable (listing "src/pages/[id].js") line) ∧
    (∃ text, (printDocuments (listing "src/pages/[id].js")).Writes .out text ∧
      ¬ "src/pages/[id].js".toList <:+: text.toList) ∧
    (printDocuments (listing "src/[/id].js")).Fails := by
  have hs : Markup.render "src/pages/[id].js" = .ok "src/pages/.js".toList := by decide +kernel
  refine ⟨?_, hides_of_render hs (by decide) (by decide +kernel), ?_⟩
  case refine_1 =>
    have hl : linesOf "src/pages/[id].js".toList = ["src/pages/[id].js".toList] := by decide
    have hw : ∀ l ∈ (tableWith [pageRow "src/pages/.js"]).lines, Console.width l ≤ consoleWidth := by decide +kernel
    rw [hl, List.forall_mem_singleton]
    constructor
    case cell  => exact ⟨⟨by decide, le_rfl, .inl (by decide +kernel)⟩, by simp [Table.isLineEnd]⟩
    case table => exact fun t ht => Except.ok.inj ((tableOf_listing hs).symm.trans ht) ▸ hw
  case refine_2 =>
    have hc : "src/[/id].js" ∈ cellsOf (listing "src/[/id].js") := by decide
    have he : Markup.render "src/[/id].js" = .error (.notOpen "id") := by decide +kernel
    refine (shows_printDocuments _).fails ⟨_, hc, fun ⟨cs, h⟩ => ?_⟩
    cases he.symm.trans h

end Showing
end QueryGlean.Command
