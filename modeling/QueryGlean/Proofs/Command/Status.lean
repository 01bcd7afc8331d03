import Mathlib
import QueryGlean.Proofs.Command.Output
import QueryGlean.Proofs.Discovery
import QueryGlean.Proofs.Extraction.Contents

namespace QueryGlean.Command

open Markup (Inert)

def resultsOf (settings : Settings) (files : FileTree) (found : List Path) :
    List (String × Except Breakdown ExtractionResult) :=
  (Extractor.gather ⟨settings, []⟩ files {} (found.map toString)).results

-- How the command ends:
-- 1. it comes to its end by itself
-- 2. the status for missing arguments means that there is one, and then nothing is shown but which one it is
-- 3. otherwise each file that the arguments stand for has a result, and the status tells of failures if it is to.
--    A file that breaks down has no failure for its result, so the status does not tell of it.
structure Ending.Exact (files : FileTree) (settings : Settings) (paths : List String) (strict : Bool) (e : Ending) :
    Prop where
  whole   : e.crash = none
  status  : e.status = badArgument ↔ ∃ a ∈ paths, files.IsMissing a
  missing : (∃ a ∈ paths, files.IsMissing a) → ∃ a ∈ paths, files.IsMissing a ∧
    e = .showing {} badArgument (Showing.print s!"[red]{(DiscoveryError.missing a).message}[/red]")
  found   : (∀ a ∈ paths, ¬ files.IsMissing a) → ∃ parts, List.Forall₂ files.StandsFor paths parts ∧
    let results := resultsOf settings files parts.flatten
    results.map Prod.fst = parts.flatten.map toString ∧
      e.status = if strict ∧ ∃ p ∈ results, FailedResult p.2 then failedExtraction else 0

-- Files and arguments that open no tags in console markup, neither by themselves nor by what is said of them.
structure IsPlain (files : FileTree) (settings : Settings) (paths : List String) : Prop where
  module    : '[' ∉ settings.moduleName.toList
  arguments : ∀ a ∈ paths, '[' ∉ a.toList
  names     : ∀ e ∈ files.entries, ∀ part ∈ e.1, '[' ∉ part.toList
  texts     : ∀ p text, files.readText p = .ok text → Graphql.IsPlain text.toList

variable {files : FileTree} {env : Settings.Environment} {settings : Settings} {paths : List String}
variable {json graphql strict : Bool} {parts : List (List Path)} {found : List Path} {a : String}

theorem sources_cases (ht : files.Proper) (hl : ∀ a ∈ paths, ¬ files.IsLong a) :
    (∃ a ∈ paths, files.IsMissing a ∧ (files.sources paths).2 = some (.missing a)) ∨
      ∃ parts, List.Forall₂ files.StandsFor paths parts ∧ files.sources paths = (parts.flatten, none) := by
  induction paths
  case nil => exact .inr ⟨[], .nil, rfl⟩
  case cons a paths hi =>
    have ⟨ha, hl⟩ := List.forall_mem_cons.mp hl
    rcases ht.sourcesOf_cases a with ⟨hm, he⟩ | ⟨h, _⟩ | ⟨_, found, hf, he⟩
    case inl     => exact .inl ⟨a, List.mem_cons_self, hm, by simp [FileTree.sources, he]⟩
    case inr.inl => exact absurd h ha
    case inr.inr =>
      rcases hi hl with ⟨b, hb, hm, hs⟩ | ⟨parts, hp, hs⟩
      case inl => exact .inl ⟨b, List.mem_cons_of_mem _ hb, hm, by simp [FileTree.sources, he, hs]⟩
      case inr => exact .inr ⟨found :: parts, .cons hf hp, by simp [FileTree.sources, he, hs]⟩

theorem not_isMissing_of_forall₂ (h : List.Forall₂ files.StandsFor paths parts) :
    ∀ a ∈ paths, ¬ files.IsMissing a := by
  induction h
  case nil          => simp
  case cons ha _ hi => exact List.forall_mem_cons.mpr ⟨ha.not_isMissing, hi⟩

theorem eq_singleton_of_standsFor (h : files.StandsFor a found) (hd : files.isDirectory (.ofString a) = .ok false) :
    found = [.ofString a] := by
  cases h
  case file => rfl
  case directory isDirectory _ _ _ => simp [hd] at isDirectory

theorem not_mem_of_standsFor (ht : files.Proper) (hn : ∀ e ∈ files.entries, ∀ part ∈ e.1, '[' ∉ part.toList)
    (ha : '[' ∉ a.toList) (h : files.StandsFor a found) : ∀ p ∈ found, '[' ∉ (toString p).toList := by
  have hp : ∀ part ∈ (Path.ofString a).parts, '[' ∉ part.toList := Path.not_mem_parts_ofString ha
  cases h
  case file => exact List.forall_mem_singleton.mpr (Path.not_mem_toString hp)
  case directory place rels _ _ sources _ =>
    refine List.forall_mem_map.mpr fun rel hr => Path.not_mem_toString ?_
    have hs := (sources rel).mp hr
    obtain ⟨bytes, hf⟩ := hs.file
    have hm := (ht.node?_eq_some_iff (by simp [hs.below])).mp hf
    exact List.forall_mem_append.mpr ⟨hp, fun part hm' => hn _ hm part (List.mem_append_right _ hm')⟩

theorem exists_of_mem_flatten {p : Path} (h : List.Forall₂ files.StandsFor paths parts) (hp : p ∈ parts.flatten) :
    ∃ a ∈ paths, ∃ found, files.StandsFor a found ∧ p ∈ found := by
  induction h
  case nil => simp at hp
  case cons a found _ _ ha _ hi =>
    rcases List.mem_append.mp hp with hp | hp
    case inl => exact ⟨a, List.mem_cons_self, found, ha, hp⟩
    case inr => exact (hi hp).imp fun b hb => hb.imp_left (List.mem_cons_of_mem _)

theorem IsPlain.extractor (h : IsPlain files settings paths) (ht : files.Proper)
    (hp : List.Forall₂ files.StandsFor paths parts) :
    Extractor.IsPlain ⟨settings, []⟩ files (parts.flatten.map toString) where
  alone  := rfl
  module := h.module
  texts  := h.texts
  paths  := by
    refine List.forall_mem_map.mpr fun p hm => ?_
    obtain ⟨a, ha, found, hs, hm⟩ := exists_of_mem_flatten hp hm
    exact not_mem_of_standsFor ht h.names (h.arguments a ha) hs p hm

theorem runExtract_of_missing (he : (files.sources paths).2 = some (.missing a)) :
    runExtract files env paths json graphql strict =
      .showing {} badArgument (Showing.print s!"[red]{(DiscoveryError.missing a).message}[/red]") := by
  unfold runExtract
  split <;> simp_all

def reportOf (settings : Settings) (files : FileTree) (found : List Path) (json graphql : Bool) : Showing Unit := do
  let (documents, _, events) := Extractor.documents ⟨settings, []⟩ files {} (found.map toString)
  if json then Showing.echo (Document.json documents)
  else if graphql then Showing.printGraphql documents
  else Showing.printDocuments documents
  Showing.printDiagnostics (({} : Collector).recordAll events)

theorem runExtract_of_found (hs : Settings.ofEnvironment env = .ok settings)
    (hf : files.sources paths = (found, none)) :
    runExtract files env paths json graphql strict =
      .showing {} (if strict ∧ ∃ p ∈ resultsOf settings files found, FailedResult p.2 then failedExtraction else 0)
        (reportOf settings files found json graphql) := by
  have ht := Extractor.tellsError_documents (x := ⟨settings, []⟩) rfl files (found.map toString)
  rw [← Collector.errors_recordAll] at ht
  have hc : (strict && !(({} : Collector).recordAll
      (Extractor.documents ⟨settings, []⟩ files {} (found.map toString)).2.2).errors.isEmpty) =
      decide (strict ∧ ∃ p ∈ resultsOf settings files found, FailedResult p.2) := by
    rw [Bool.eq_iff_iff, Bool.and_eq_true, Bool.not_eq_true', ht, decide_eq_true_iff]
    rfl
  simp only [runExtract, hf, hs, hc, decide_eq_true_eq]
  rfl

theorem succeeds_reportOf (h : Extractor.IsPlain ⟨settings, []⟩ files (found.map toString)) :
    (reportOf settings files found json graphql).Succeeds := by
  have ⟨hd, he⟩ := h.documents
  have hd : ∀ p ∈ (Extractor.documents ⟨settings, []⟩ files {} (found.map toString)).1, Showing.IsShowable p.1 p.2 :=
    fun p hp => ⟨(hd p hp).left, (hd p hp).right⟩
  have ht : (Showing.printDiagnostics (({} : Collector).recordAll
      (Extractor.documents ⟨settings, []⟩ files {} (found.map toString)).2.2)).Succeeds := by
    refine Showing.succeeds_printDiagnostics fun d hm => ?_
    rw [Collector.diagnostics_recordAll, List.nil_append, List.mem_filterMap] at hm
    obtain ⟨ev, hev, h⟩ := hm
    cases ev <;> simp [Event.diagnostic?] at h
    exact he d (h ▸ hev)
  unfold reportOf
  dsimp only
  split
  case isTrue => exact .bind (.echo _) fun _ => ht
  case isFalse =>
    split
    case isTrue  => exact .bind (Showing.succeeds_printGraphql hd) fun _ => ht
    case isFalse => exact .bind (Showing.succeeds_printDocuments hd) fun _ => ht

theorem succeeds_missing (h : '[' ∉ a.toList) :
    (Showing.print s!"[red]{(DiscoveryError.missing a).message}[/red]").Succeeds := by
  have hs : "red" ∈ Markup.messageStyles := by decide
  have hl : ¬ Markup.HasTag ("Path not found: ".toList ++ a.toList) := Markup.not_hasTag_of_not_mem (by simpa using h)
  exact .print (Markup.exists_render_of_styled hs hl Markup.not_hasTag_nil
    (by simp [Markup.styled, toString, DiscoveryError.message]))

theorem runExtract_exact (ht : files.Proper) (hs : Settings.ofEnvironment env = .ok settings)
    (hl : ∀ a ∈ paths, ¬ files.IsLong a) (hp : IsPlain files settings paths) (json graphql strict : Bool) :
    (runExtract files env paths json graphql strict).Exact files settings paths strict := by
  rcases sources_cases ht hl with ⟨a, ha, hm, he⟩ | ⟨parts, hf, he⟩
  case inl =>
    have ⟨hst, hc⟩ := Ending.showing_of_succeeds (succeeds_missing (hp.arguments a ha)) {} badArgument
    rw [runExtract_of_missing he]
    exact {
      whole   := hc
      status  := iff_of_true hst ⟨a, ha, hm⟩
      missing := fun _ => ⟨a, ha, hm, rfl⟩
      found   := fun hn => absurd hm (hn a ha) }
  case inr =>
    have hn : ¬ ∃ a ∈ paths, files.IsMissing a := by simpa using not_isMissing_of_forall₂ hf
    have hr : (reportOf settings files parts.flatten json graphql).Succeeds := succeeds_reportOf (hp.extractor ht hf)
    have ⟨hst, hc⟩ := Ending.showing_of_succeeds hr {}
      (if strict ∧ ∃ p ∈ resultsOf settings files parts.flatten, FailedResult p.2 then failedExtraction else 0)
    rw [runExtract_of_found hs he]
    exact {
      whole   := hc
      status  := iff_of_false (by rw [hst]; split <;> decide) hn
      missing := fun h => absurd h hn
      found   := fun _ => ⟨parts, hf, Extractor.map_fst_gather _ files _, hst⟩ }

def garbled : FileTree where
  entries := [(["a.js"], .file [0xFF]), (["b.js"], .file [])]

theorem isPlain_garbled : IsPlain garbled {} ["b.js", "a.js"] where
  module    := by decide
  arguments := by decide
  names     := by decide
  texts p text h := by
    obtain ⟨place, bytes, s, hm, hd, rfl⟩ := FileTree.exists_file_of_readText h
    have hb : bytes = [0xFF] ∨ bytes = [] := by
      simp only [garbled, List.mem_cons, Prod.mk.injEq, FileTree.Node.file.injEq, List.not_mem_nil, or_false] at hm
      exact hm.imp And.right And.right
    rcases hb with rfl | rfl
    case inl =>
      rw [show Utf8.decode [0xFF] = .error ⟨.startByte, 0, 1, 0xFF⟩ by cbv] at hd
      cases hd
    case inr =>
      rw [show Utf8.decode [] = .ok "" by cbv] at hd
      cases hd
      exact ⟨by decide, by simp [Utf8.unifyLineEnds]⟩

theorem runExtract_exact_garbled :
    (garbled.Proper ∧ Settings.ofEnvironment [] = .ok {} ∧ (∀ a ∈ ["b.js", "a.js"], ¬ garbled.IsLong a) ∧
      IsPlain garbled {} ["b.js", "a.js"]) ∧
    (runExtract garbled [] ["b.js", "a.js"] false false true).Exact garbled {} ["b.js", "a.js"] true ∧
      (runExtract garbled [] ["b.js", "a.js"] false false true).status = failedExtraction := by
  have ht : garbled.Proper := ⟨by decide, by decide⟩
  have hf : ∀ a ∈ ["b.js", "a.js"], garbled.isFile (.ofString a) = .ok true := by
    simp only [List.forall_mem_cons, List.not_mem_nil, false_implies, implies_true, and_true]
    exact ⟨by cbv, by cbv⟩
  have hd : ∀ a ∈ ["b.js", "a.js"], garbled.isDirectory (.ofString a) = .ok false := by
    simp only [List.forall_mem_cons, List.not_mem_nil, false_implies, implies_true, and_true]
    exact ⟨by cbv, by cbv⟩
  have hl : ∀ a ∈ ["b.js", "a.js"], ¬ garbled.IsLong a := fun a ha => by simp [FileTree.IsLong, hf a ha, hd a ha]
  have hs : Settings.ofEnvironment [] = .ok {} := rfl
  have he := runExtract_exact ht hs hl isPlain_garbled false false true
  refine ⟨⟨ht, hs, hl, isPlain_garbled⟩, he, ?_⟩
  obtain ⟨parts, hp, _, hst⟩ := he.found fun a ha => by simp [FileTree.IsMissing, hf a ha]
  have hp : parts.flatten = [.ofString "b.js", .ofString "a.js"] := by
    obtain _ | ⟨hb, _ | ⟨ha, ⟨⟩⟩⟩ := hp
    rw [eq_singleton_of_standsFor hb (hd _ (by simp)), eq_singleton_of_standsFor ha (hd _ (by simp))]
    rfl
  have ha : garbled.readText (.ofString "a.js") = .error (.undecodable ⟨.startByte, 0, 1, 0xFF⟩) := by cbv
  have hb : garbled.readText (.ofString "b.js") = .ok "" := by cbv
  -- The empty file does not hold the tag, and the other one is no text.
  have hr : resultsOf {} garbled parts.flatten = [("b.js", .ok { filePath := "b.js", status := .notQueryFile }),
      ("a.js", .ok { filePath := "a.js", status := .readError })] := by
    rw [hp]
    simp [resultsOf, Extractor.gather, Batch.schedule, Batch.run, Batch.ofPaths, Batch.step, Batch.startCaller,
      Extractor.sight, ha, hb, Batch.finish, Batch.setCaller, Batch.resumeCaller, Batch.results, occursIn,
      List.range_succ, show toString (Path.ofString "a.js") = "a.js" by cbv,
      show toString (Path.ofString "b.js") = "b.js" by cbv]
  rw [hst, hr, if_pos]
  decide

-- A file that breaks down: its schema has no place for a name. The status does not tell of it.
def exporting : FileTree where
  entries := [(["a.js"], .file exportedSchema.toUTF8.data.toList)]

theorem eq_of_readText_exporting {p : Path} {text : String} (h : exporting.readText p = .ok text) :
    text = exportedSchema := by
  obtain ⟨place, bytes, s, hm, hu, rfl⟩ := FileTree.exists_file_of_readText h
  -- There is one file, so its bytes are what is read.
  have hb : bytes = exportedSchema.toUTF8.data.toList := by
    simp only [exporting, List.mem_singleton, Prod.mk.injEq, FileTree.Node.file.injEq] at hm
    exact hm.right
  have hd : (Utf8.decode exportedSchema.toUTF8.data.toList).toOption = some exportedSchema := by decide +kernel
  rw [hb, Outcome.ok_of_toOption hd] at hu
  cases hu
  decide +kernel

theorem isPlain_exporting : Extractor.IsPlain ⟨{}, []⟩ exporting ["a.js"] where
  alone  := rfl
  module := by decide
  paths  := by decide
  texts p text h := by
    rw [eq_of_readText_exporting h]
    refine ⟨by decide, fun ds n hi => absurd (hi.subset List.mem_cons_self) (by decide)⟩

theorem resultsOf_of_broken {p : Path} {text : String} {b : Breakdown} (hc : settings.coalesce)
    (hs : Extractor.sight ⟨settings, []⟩ files (toString p) = .contents text)
    (hb : (Extractor.outcome ⟨settings, []⟩ (toString p) text).1 = .error b) :
    resultsOf settings files [p] = [(toString p, .error b)] := by
  have started := Batch.step_start_of_missed (b := .ofPaths {} [toString p]) (i := 0) rfl hs rfl hc
  simp only [resultsOf, Extractor.gather, Batch.schedule, hc, Batch.run, List.map_cons, List.map_nil,
    List.length_singleton, List.range_one, List.cons_append, List.nil_append, List.foldl_cons, List.foldl_nil,
    if_true, started]
  simp [Batch.ofPaths, Batch.join, Batch.step, Batch.runJob, Batch.landJob, Batch.setCaller, Batch.resumeCaller,
    Batch.finishWith, Batch.finish, Batch.results, hb, Except.map]

theorem status_of_exporting :
    exporting.readText (.ofString "a.js") = .ok exportedSchema ∧
    (parseIn .javascript (.ofString exportedSchema) = some .exportedSchema →
      resultsOf {} exporting [.ofString "a.js"] =
          [("a.js", .error (.unfit (.unnamable (.schema none [] [⟨.query, "Q"⟩]))))] ∧
        (runExtract exporting [] ["a.js"] false false true).status = 0) := by
  have hr : Call.Reads ⟨"a.js", exporting, {}⟩ exportedSchema := by
    refine reads_of_resolve ["a.js"] exportedSchema.toUTF8.data.toList ?_ ?_ ?_ ?_ <;> decide +kernel
  refine ⟨hr, fun ht => ?_⟩
  have hs : Extractor.sight ⟨{}, []⟩ exporting "a.js" = .contents exportedSchema :=
    Extractor.sight_eq_contents_iff.mpr ⟨hr, by decide +kernel⟩
  have hl : Language.candidates (.ofString "a.js") = [.javascript, .tsx] := by decide +kernel
  have hb := Extractor.outcome_of_unfit (x := ⟨{}, []⟩) (Reading.source_of_parseIn rfl hl ht)
    Parsed.fragments_exportedSchema
  have hp : toString (Path.ofString "a.js") = "a.js" := by cbv
  have results : resultsOf {} exporting [.ofString "a.js"] =
      [("a.js", .error (.unfit (.unnamable (.schema none [] [⟨.query, "Q"⟩]))))] := by
    have he := resultsOf_of_broken (p := .ofString "a.js") rfl (hp.symm ▸ hs) (hp.symm ▸ hb)
    rwa [hp] at he
  refine ⟨results, ?_⟩
  have found : exporting.sources ["a.js"] = ([.ofString "a.js"], none) := FileTree.sources_of_readText hr
  have shown : (reportOf {} exporting [.ofString "a.js"] false false).Succeeds :=
    succeeds_reportOf (hp.symm ▸ isPlain_exporting)
  have he : Settings.ofEnvironment [] = .ok {} := rfl
  rw [runExtract_of_found he found, (Ending.showing_of_succeeds shown ..).1, results, if_neg]
  simp [FailedResult]

end QueryGlean.Command
