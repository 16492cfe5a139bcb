import OtterWorks.Lib.Fallible
import OtterWorks.Lib.Slices
import Mathlib.Algebra.Order.Ring.Int
import Mathlib.Data.List.Infix

namespace OtterWorks.Search

/-- A hit of the engine; `none` is an absent member. `formatted` is `_formatted`, the copies with the marks of the highlighter. -/
structure RawHit where
  formatted : Option (List (String × String)) := none
  id : Option String := none
  title : Option String := none
  name : Option String := none
  type : Option String := none
  ownerId : Option String := none
  tags : Option (List String) := none
  createdAt : Option String := none
  updatedAt : Option String := none
  mimeType : Option String := none
  folderId : Option String := none
  size : Option Int := none
  deriving DecidableEq, Repr

/-- `SearchHit` without `score`, which is always 0.0. -/
structure SearchHit where
  id : String
  title : String
  contentSnippet : String
  type : String
  ownerId : String
  tags : List String
  highlights : List (String × List String)
  createdAt : Option String
  updatedAt : Option String
  mimeType : Option String
  folderId : Option String
  size : Option Int
  deriving DecidableEq, Repr

structure SearchResponse where
  results : List SearchHit
  total : Nat
  page : Nat
  pageSize : Nat
  query : String
  deriving DecidableEq, Repr

structure SearchParams where
  offset : Nat
  limit : Nat
  attributesToHighlight : List String := ["title", "name", "content"]
  highlightPreTag : String := "<em>"
  highlightPostTag : String := "</em>"
  attributesToCrop : List String := ["content"]
  cropLength : Nat := 200
  filter : Option String := none
  deriving DecidableEq, Repr

structure EngineResult where
  hits : List RawHit
  estimatedTotalHits : Nat

/-- `index.search`: the answer of an index to a query, or the text of the engine's error. -/
abbrev Engine := String → String → SearchParams → Except String EngineResult

inductive SearchError
  | valueError (text : String)
  | api (text : String)
  deriving DecidableEq, Repr

structure MeiliSearchService where
  documentsIndexName : String := "documents"
  filesIndexName : String := "files"

namespace MeiliSearchService

/-- `page` counts from 1. -/
def buildSearchParams (page pageSize : Nat) (filterParts : List String) (multiIndex : Bool) : SearchParams where
  offset := if multiIndex then 0 else (page - 1) * pageSize
  limit := if multiIndex then page * pageSize else pageSize
  filter := if filterParts.isEmpty then none else some (" AND ".intercalate filterParts)

def resolveIndices (service : MeiliSearchService) (docType : Option String) : List String :=
  if docType = some "document" then [service.documentsIndexName]
  else if docType = some "file" then [service.filesIndexName]
  else [service.documentsIndexName, service.filesIndexName]

def parseHit (service : MeiliSearchService) (hit : RawHit) (indexName : String) : SearchHit :=
  let formatted := hit.formatted.getD []
  let isDoc := indexName = service.documentsIndexName
  { id := hit.id.getD ""
    title := if isDoc then hit.title.getD "" else hit.name.getD ""
    contentSnippet :=
      if isDoc then String.ofList (((formatted.lookup "content").getD "").toList.take 200) else ""
    type := hit.type.getD (if isDoc then "document" else "file")
    ownerId := hit.ownerId.getD ""
    tags := hit.tags.getD []
    highlights := ["title", "name", "content"].filterMap fun field =>
      match formatted.lookup field with
      | some text => if "<em>".toList <:+: text.toList then some (field, [text]) else none
      | none => none
    createdAt := hit.createdAt
    updatedAt := hit.updatedAt
    mimeType := hit.mimeType
    folderId := hit.folderId
    size := hit.size }

/-- The loop of both searches: the hits of the indices one after the other, and the sum of the estimates. -/
def collectHits (service : MeiliSearchService) (engine : Engine) (query : String) (params : SearchParams) :
    List String → Except String (List SearchHit × Nat)
  | [] => .ok ([], 0)
  | indexName :: rest => do
    let result ← engine indexName query params
    let (hits, total) ← collectHits service engine query params rest
    return (result.hits.map (service.parseHit · indexName) ++ hits, result.estimatedTotalHits + total)

/-- What both searches have in common; `shown` is the query of the response. -/
def searchPage (service : MeiliSearchService) (engine : Engine) (term shown : String) (docType : Option String)
    (filterParts : List String) (page pageSize : Nat) : Except String SearchResponse := do
  let indicesToSearch := service.resolveIndices docType
  let multiIndex : Bool := decide (1 < indicesToSearch.length)
  let params := buildSearchParams page pageSize filterParts multiIndex
  let (allHits, total) ← service.collectHits engine term params indicesToSearch
  let start := if multiIndex then (page - 1) * pageSize else 0
  return ⟨(allHits.drop start).take pageSize, total, page, pageSize, shown⟩

/-- `_escape` -/
def escape (value : String) : String :=
  String.ofList (value.toList.flatMap fun c => if c = '\\' ∨ c = '"' then ['\\', c] else [c])

/-- A filter that an empty or missing value leaves out. -/
def filterOn (field operator : String) (value : Option String) : List String :=
  match value with
  | some text => if text.isEmpty then [] else [field ++ " " ++ operator ++ " \"" ++ escape text ++ "\""]
  | none => []

def search (service : MeiliSearchService) (engine : Engine) (query : String) (docType ownerId : Option String)
    (page pageSize : Nat) : Except SearchError SearchResponse :=
  match service.searchPage engine query query docType (filterOn "type" "=" docType ++ filterOn "owner_id" "=" ownerId)
    page pageSize with
  | .ok response => .ok response
  | .error text => .error (.valueError ("Invalid search filter: " ++ text))

def tagFilter (tags : List String) : List String :=
  if tags.isEmpty then []
  else ["(" ++ " OR ".intercalate (tags.map fun tag => "tags = \"" ++ escape tag ++ "\"") ++ ")"]

/-- What `advanced_search` filters on. -/
structure AdvancedFilter where
  docType : Option String := none
  ownerId : Option String := none
  tags : List String := []
  dateFrom : Option String := none
  dateTo : Option String := none

def AdvancedFilter.parts (filter : AdvancedFilter) : List String :=
  filterOn "type" "=" filter.docType ++ filterOn "owner_id" "=" filter.ownerId ++ tagFilter filter.tags ++
    filterOn "created_at" ">=" filter.dateFrom ++ filterOn "created_at" "<=" filter.dateTo

def advancedSearch (service : MeiliSearchService) (engine : Engine) (query : Option String) (filter : AdvancedFilter)
    (page pageSize : Nat) : Except SearchError SearchResponse :=
  let searchTerm := query.getD ""
  match service.searchPage engine searchTerm (if searchTerm.isEmpty then "*" else searchTerm) filter.docType filter.parts
    page pageSize with
  | .ok response => .ok response
  | .error text => .error (.api text)

section

variable {service : MeiliSearchService} {engine : Engine} {ranking : String → String → Option String → List RawHit}
  {term shown : String} {docType : Option String} {filterParts : List String} {page pageSize : Nat}

/-- The engine answers with the slice that was asked for, out of a ranking that index, query and filter decide. -/
def Ranked (engine : Engine) (ranking : String → String → Option String → List RawHit) : Prop :=
  ∀ indexName query params, ∃ estimate, engine indexName query params =
    .ok ⟨((ranking indexName query params.filter).drop params.offset).take params.limit, estimate⟩

/-- The expression that the engine filters by. -/
def filterText (filterParts : List String) : Option String :=
  if filterParts.isEmpty then none else some (" AND ".intercalate filterParts)

/-- All hits of one index. -/
def hitsOf (service : MeiliSearchService) (ranking : String → String → Option String → List RawHit) (term : String)
    (filterParts : List String) (indexName : String) : List SearchHit :=
  (ranking indexName term (filterText filterParts)).map (service.parseHit · indexName)

/-- What a search has to deliver: all hits of the selected index, or those of the documents and then those of the files. -/
def expectedHits (service : MeiliSearchService) (ranking : String → String → Option String → List RawHit) (term : String)
    (docType : Option String) (filterParts : List String) : List SearchHit :=
  let documents := hitsOf service ranking term filterParts service.documentsIndexName
  let files := hitsOf service ranking term filterParts service.filesIndexName
  if docType = some "document" then documents
  else if docType = some "file" then files
  else documents ++ files

/-- With one index the engine cuts the page. -/
theorem searchPage_single (ranked : Ranked engine ranking) {indexName : String}
    (single : service.resolveIndices docType = [indexName]) :
    ∃ total, service.searchPage engine term shown docType filterParts page pageSize =
      .ok ⟨pageAt pageSize (hitsOf service ranking term filterParts indexName) (page - 1), total, page, pageSize, shown⟩ := by
  obtain ⟨estimate, answered⟩ := ranked indexName term (buildSearchParams page pageSize filterParts false)
  have one : decide (1 < [indexName].length) = false := rfl
  refine ⟨estimate + 0, ?_⟩
  simp only [searchPage, single, one, collectHits, answered, bind, Except.bind, pure, Except.pure]
  simp [buildSearchParams, hitsOf, filterText, pageAt, List.map_take, List.map_drop, List.take_take]

/-- With both indices the page is cut from the first hits of each: as many as the page and those before it can show. -/
theorem searchPage_both (ranked : Ranked engine ranking) (first : 1 ≤ page)
    (both : service.resolveIndices docType = [service.documentsIndexName, service.filesIndexName]) :
    ∃ total, service.searchPage engine term shown docType filterParts page pageSize =
      .ok ⟨pageAt pageSize (hitsOf service ranking term filterParts service.documentsIndexName ++
        hitsOf service ranking term filterParts service.filesIndexName) (page - 1), total, page, pageSize, shown⟩ := by
  let params := buildSearchParams page pageSize filterParts true
  obtain ⟨documentsEstimate, documents⟩ := ranked service.documentsIndexName term params
  obtain ⟨filesEstimate, files⟩ := ranked service.filesIndexName term params
  have two : decide (1 < [service.documentsIndexName, service.filesIndexName].length) = true := rfl
  have straddle (docs fs : List SearchHit) :
      pageAt pageSize (docs.take (page * pageSize) ++ fs.take (page * pageSize)) (page - 1) =
        pageAt pageSize (docs ++ fs) (page - 1) := by
    have turned : page - 1 + 1 = page := by omega
    have firsts := pageAt_take pageSize (docs.take (page * pageSize) ++ fs.take (page * pageSize)) (page - 1)
    rw [turned, take_append_takes] at firsts
    have all := pageAt_take pageSize (docs ++ fs) (page - 1)
    rw [turned] at all
    rw [← firsts, all]
  refine ⟨documentsEstimate + (filesEstimate + 0), ?_⟩
  rw [← straddle]
  simp only [searchPage, both, two, collectHits, documents, files, params, bind, Except.bind, pure, Except.pure]
  simp [buildSearchParams, hitsOf, filterText, pageAt, List.map_take]

theorem searchPage_eq (service : MeiliSearchService) (term shown : String) (docType : Option String)
    (filterParts : List String) (pageSize : Nat) (ranked : Ranked engine ranking) (first : 1 ≤ page) :
    ∃ total, service.searchPage engine term shown docType filterParts page pageSize =
      .ok ⟨pageAt pageSize (expectedHits service ranking term docType filterParts) (page - 1), total, page, pageSize,
        shown⟩ := by
  by_cases document : docType = some "document"
  · rw [expectedHits, if_pos document]
    exact searchPage_single ranked (if_pos document)
  · by_cases file : docType = some "file"
    · rw [expectedHits, if_neg document, if_pos file]
      exact searchPage_single ranked (by rw [resolveIndices, if_neg document, if_pos file])
    · rw [expectedHits, if_neg document, if_neg file]
      exact searchPage_both ranked first (by rw [resolveIndices, if_neg document, if_neg file])

/-- Every page is answered, and the pages from 1 on deliver `all`. -/
def TurnsThrough (answer : Nat → Except SearchError SearchResponse) (pageSize : Nat) (all : List SearchHit) : Prop :=
  ∃ (response : Nat → SearchResponse) (last : Nat), (∀ page, 1 ≤ page → answer page = .ok (response page)) ∧
    Paged pageSize (fun page => (response page).results) all last

theorem turnsThrough_of {answer : Nat → Except SearchError SearchResponse} {all : List SearchHit} (shown : String)
    (pos : 1 ≤ pageSize)
    (cut : ∀ page, 1 ≤ page → ∃ total, answer page = .ok ⟨pageAt pageSize all (page - 1), total, page, pageSize, shown⟩) :
    TurnsThrough answer pageSize all := by
  choose total answered using cut
  let response (page : Nat) : SearchResponse :=
    ⟨pageAt pageSize all (page - 1), if first : 1 ≤ page then total page first else 0, page, pageSize, shown⟩
  have shows (page : Nat) (first : 1 ≤ page) : answer page = .ok (response page) := by
    simp only [answered page first, response, dif_pos first]
  exact ⟨response, _, shows, paged_pageAt (by omega) fun page _ => rfl⟩

/-- Either search, its pages turned from 1 on, delivers every hit of the selected indices once and in order. -/
theorem pages_partition_hits (service : MeiliSearchService) (ranked : Ranked engine ranking) (pos : 1 ≤ pageSize)
    (query : String) (docType ownerId : Option String) (term : Option String) (filter : AdvancedFilter) :
    TurnsThrough (fun page => service.search engine query docType ownerId page pageSize) pageSize
        (expectedHits service ranking query docType (filterOn "type" "=" docType ++ filterOn "owner_id" "=" ownerId)) ∧
      TurnsThrough (fun page => service.advancedSearch engine term filter page pageSize) pageSize
        (expectedHits service ranking (term.getD "") filter.docType filter.parts) := by
  refine ⟨turnsThrough_of query pos ?_, turnsThrough_of (if (term.getD "").isEmpty then "*" else term.getD "") pos ?_⟩
  · intro page first
    obtain ⟨total, answered⟩ := searchPage_eq service query query docType
      (filterOn "type" "=" docType ++ filterOn "owner_id" "=" ownerId) pageSize ranked first
    exact ⟨total, by simp only [search, answered]⟩
  · intro page first
    obtain ⟨total, answered⟩ := searchPage_eq service (term.getD "")
      (if (term.getD "").isEmpty then "*" else term.getD "") filter.docType filter.parts pageSize ranked first
    exact ⟨total, by simp only [advancedSearch, answered]⟩

end

/-- An engine that cuts a ranking. -/
def cutting (ranking : String → String → Option String → List RawHit) : Engine := fun indexName query params =>
  let all := ranking indexName query params.filter
  .ok ⟨(all.drop params.offset).take params.limit, all.length⟩

def threeAndTwo (indexName _query : String) (_filter : Option String) : List RawHit :=
  if indexName = "documents" then [{ id := "d1" }, { id := "d2" }, { id := "d3" }] else [{ id := "f1" }, { id := "f2" }]

/-- The page that straddles the indices shows the last document and the first file. -/
theorem pages_partition_five :
    ((∃ total, ({} : MeiliSearchService).search (cutting threeAndTwo) "otter" none none 2 2 =
      .ok ⟨(({} : MeiliSearchService).expectedHits threeAndTwo "otter" none []).extract 2 4, total, 2, 2, "otter"⟩)) ∧
    TurnsThrough (fun page => ({} : MeiliSearchService).search (cutting threeAndTwo) "otter" none none page 2) 2
      (({} : MeiliSearchService).expectedHits threeAndTwo "otter" none []) :=
  ⟨⟨5, by decide +kernel⟩,
    (pages_partition_hits {} (fun _ _ _ => ⟨_, rfl⟩) (by omega) "otter" none none none {}).1⟩

end MeiliSearchService

end OtterWorks.Search
