import QueryGlean.Extraction.Reading
import QueryGlean.Cache
import QueryGlean.FileTree

namespace QueryGlean

def occursIn (part : List Char) : List Char → Bool
  | [] => part.isEmpty
  | c :: cs => part.isPrefixOf (c :: cs) || occursIn part cs

structure Extractor where
  settings : Settings
  preprocessors : List Preprocessor := []

structure Run (α : Type) where
  result : Except Breakdown α
  cache : Cache
  events : List Event

namespace Extractor

variable (x : Extractor)

def outcome (path text : String) : Except Breakdown CacheEntry × List Event :=
  match Reading.source x.preprocessors path text with
  | (.error b, events) => (.error b, events)
  | (.ok none, events) => (.ok ⟨[], .parseError⟩, events)
  | (.ok (some parsed), events) =>
    let (result, diagnostics) := parsed.fragments x.settings path
    let events := events ++ diagnostics.map .reported
    match result with
    | .ok [] => (.ok ⟨[], .noFragments⟩, events)
    | .ok fragments => (.ok ⟨fragments, .extracted⟩, events)
    | .error (.query e) =>
      (.ok ⟨[], .queryError⟩, events ++ [
        .reported (.queryInvalid path e.message),
        .failed path .query (some e.message)])
    | .error (.unfit u) => (.error (.unfit u), events)

-- Keeps an outcome, unless a query is invalid: it is looked at again the next time.
def keep (cache : Cache) (key : String) (e : CacheEntry) : Cache :=
  if e.status = .queryError then cache else cache.put key e

def keepOutcome (cache : Cache) (key : String) : Except Breakdown CacheEntry → Cache
  | .ok e => keep cache key e
  | .error _ => cache

def answer (path : String) (e : CacheEntry) (cached : Bool) : ExtractionResult :=
  match Document.ofList? e.fragments with
  | some d => ⟨path, .extracted, some d, cached⟩
  | none => ⟨path, e.status, none, cached⟩

def successOf (path : String) (e : CacheEntry) : List Event :=
  if e.fragments.isEmpty then [] else [.succeeded path]

def successOfOutcome (path : String) : Except Breakdown CacheEntry → List Event
  | .ok e => successOf path e
  | .error _ => []

inductive Sight
  | settled (result : Except Breakdown ExtractionResult) (events : List Event)
  | contents (text : String)

def sight (files : FileTree) (path : String) : Sight :=
  match files.readText (Path.ofString path) with
  -- A path that no file can have is no failure to read a file.
  | .error .nulByte => .settled (.error .nulPath) []
  | .error e =>
    .settled (.ok { filePath := path, status := .readError }) [
      .reported (.readFailed path e.message),
      .failed path .read (some e.message)]
  | .ok text =>
    if occursIn x.settings.tagName.toList text.toList then .contents text
    else .settled (.ok { filePath := path, status := .notQueryFile }) []

def extract (files : FileTree) (cache : Cache) (path : String) : Run ExtractionResult :=
  match x.sight files path with
  | .settled result events => ⟨result, cache, events⟩
  | .contents text =>
    let key := contentKey path text
    match cache.get key with
    | (some e, cache) => ⟨.ok (answer path e true), cache, successOf path e⟩
    | (none, cache) =>
      match x.outcome path text with
      | (.error b, events) => ⟨.error b, cache, events⟩
      | (.ok e, events) => ⟨.ok (answer path e false), keep cache key e, events ++ successOf path e⟩

end Extractor

end QueryGlean
