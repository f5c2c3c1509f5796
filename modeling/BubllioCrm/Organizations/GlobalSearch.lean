import BubllioCrm.Deals.Models
import BubllioCrm.Foundations.FixedWidth
import BubllioCrm.Foundations.Paging
import Mathlib.Data.List.Dedup
import Mathlib.Data.List.Infix
import Mathlib.Data.Prod.Lex

/-!
Owns the search over the companies, contacts and deals of several workspaces:
which records match, in which order the database lists those of each type up to
the end of a page, how they are sorted together, and what a page shows.

The case and the collation of the database, and the text functions of Python,
are parameters. Amounts are cents.
-/

namespace BubllioCrm.Organizations

open BubllioCrm.Foundations

/-- What the database (`UPPER`, `LOWER` and its collation) and Python make of texts. -/
structure TextFunctions (Key : Type) where
  upper : String → String
  lower : String → String
  collate : String → Key
  casefold : String → String
  strip : String → String

structure Organization where
  id : Uuid
  name : String
deriving DecidableEq

inductive LifecycleStage where
  | lead
  | prospect
  | customer
  | inactive
deriving DecidableEq

structure Company where
  id : Uuid
  organization : Organization
  customerCode : String := ""
  name : String
  taxId : String := ""
  email : String := ""
  phoneNumber : String := ""
  lifecycleStage : LifecycleStage := .lead
  archived : Bool := false
deriving DecidableEq

structure Contact where
  id : Uuid
  organization : Organization
  company : Company
  firstName : String
  lastName : String := ""
  email : String := ""
  phoneNumber : String := ""
  department : String := ""
  jobTitle : String := ""
  archived : Bool := false
deriving DecidableEq

structure Deal where
  id : Uuid
  organization : Organization
  company : Company
  title : String
  stage : Deals.Stage := .lead
  value : Int := 0
  currency : String := "EUR"
  archived : Bool := false
deriving DecidableEq

/-- The tables that a search reads. Ids are primary keys. -/
structure Tables where
  companies : List Company := []
  contacts : List Contact := []
  deals : List Deal := []
  companyIds : (companies.map Company.id).Nodup := by decide
  contactIds : (contacts.map Contact.id).Nodup := by decide
  dealIds : (deals.map Deal.id).Nodup := by decide

inductive SearchType where
  | company
  | contact
  | deal
deriving DecidableEq

/-- `_TYPE_ORDER`. -/
def SearchType.order : SearchType → Nat
  | .company => 0
  | .contact => 1
  | .deal => 2

inductive Fields where
  | company (customerCode : String) (lifecycleStage : LifecycleStage)
  | contact (companyId : Uuid) (companyName jobTitle : String)
  | deal (companyId : Uuid) (companyName : String) (stage : Deals.Stage) (value currency : String)
deriving DecidableEq

structure SearchResult where
  type : SearchType
  id : Uuid
  displayName : String
  organizationId : Uuid
  organizationName : String
  rank : Nat
  fields : Fields
deriving DecidableEq

/-- An entry of the response. -/
structure Entry where
  type : SearchType
  id : Uuid
  displayName : String
  organizationId : Uuid
  organizationName : String
  fields : Fields
deriving DecidableEq

def SearchResult.entry (result : SearchResult) : Entry :=
  ⟨result.type, result.id, result.displayName, result.organizationId, result.organizationName,
    result.fields⟩

/-- `str(Decimal(value).quantize(Decimal("0.01")))`. -/
def amountText (value : Int) : String :=
  let cents := toString (value.natAbs % 100)
  (if value < 0 then "-" else "") ++ toString (value.natAbs / 100) ++ "." ++
    (if cents.length = 1 then "0" else "") ++ cents

section Search

variable {Key : Type} [LinearOrder Key] (functions : TextFunctions Key)

def iexact (query value : String) : Bool :=
  functions.upper value = functions.upper query

def istartswith (query value : String) : Bool :=
  (functions.upper query).toList <+: (functions.upper value).toList

def icontains (query value : String) : Bool :=
  (functions.upper query).toList <:+: (functions.upper value).toList

/-- `_search_rank`, where the identity fields are given by their values. -/
def searchRank (query title : String) (identityFields : List String) : Nat :=
  if identityFields.any (iexact functions query) then 0
  else if iexact functions query title then 1
  else if istartswith functions query title then 2
  else if icontains functions query title then 3
  else 4

/-- What a search of one type reads of a row: the annotations of its query and
the result it makes of the row. -/
structure Listing (Row : Type) where
  organization : Row → Organization
  id : Row → Uuid
  title : Row → String
  identityFields : Row → List String
  result : Row → Nat → SearchResult

variable {Row : Type}

def Listing.rank (listing : Listing Row) (query : String) (row : Row) : Nat :=
  searchRank functions query (listing.title row) (listing.identityFields row)

/-- `("search_rank", "search_title", "search_organization", "organization_id", "id")`. -/
def Listing.orderKey (listing : Listing Row) (query : String) (row : Row) :
    Nat ×ₗ Key ×ₗ Key ×ₗ Uuid ×ₗ Uuid :=
  toLex (listing.rank functions query row,
    toLex (functions.collate (functions.lower (listing.title row)),
      toLex (functions.collate (functions.lower (listing.organization row).name),
        toLex ((listing.organization row).id, listing.id row))))

/-- All results of the matching rows, as the database lists them. -/
def Listing.results (listing : Listing Row) (query : String) (found : List Row) :
    List SearchResult :=
  (sortOn (listing.orderKey functions query) found).map fun row =>
    listing.result row (listing.rank functions query row)

def companyMatches (organizations : List Uuid) (query : String) (company : Company) : Bool :=
  company.organization.id ∈ organizations && !company.archived &&
    (icontains functions query company.name || icontains functions query company.customerCode ||
      icontains functions query company.taxId || icontains functions query company.email ||
      icontains functions query company.phoneNumber)

def companyListing : Listing Company where
  organization := Company.organization
  id := Company.id
  title := Company.name
  identityFields company := [company.customerCode, company.email, company.phoneNumber]
  result company rank := {
    type := .company
    id := company.id
    displayName := company.name
    organizationId := company.organization.id
    organizationName := company.organization.name
    rank := rank
    fields := .company company.customerCode company.lifecycleStage }

/-- `Concat("first_name", Value(" "), "last_name")`. -/
def Contact.displayName (contact : Contact) : String :=
  contact.firstName ++ " " ++ contact.lastName

def contactMatches (organizations : List Uuid) (query : String) (contact : Contact) : Bool :=
  contact.organization.id ∈ organizations && !contact.archived &&
    contact.company.organization.id = contact.organization.id &&
    (icontains functions query contact.displayName || icontains functions query contact.email ||
      icontains functions query contact.phoneNumber ||
      icontains functions query contact.department || icontains functions query contact.jobTitle ||
      icontains functions query contact.company.name)

def contactListing : Listing Contact where
  organization := Contact.organization
  id := Contact.id
  title := Contact.displayName
  identityFields contact := [contact.email, contact.phoneNumber]
  result contact rank := {
    type := .contact
    id := contact.id
    displayName := functions.strip contact.displayName
    organizationId := contact.organization.id
    organizationName := contact.organization.name
    rank := rank
    fields := .contact contact.company.id contact.company.name contact.jobTitle }

def dealMatches (organizations : List Uuid) (query : String) (deal : Deal) : Bool :=
  deal.organization.id ∈ organizations && !deal.archived &&
    deal.company.organization.id = deal.organization.id &&
    (icontains functions query deal.title || icontains functions query deal.company.name)

def dealListing : Listing Deal where
  organization := Deal.organization
  id := Deal.id
  title := Deal.title
  identityFields _ := []
  result deal rank := {
    type := .deal
    id := deal.id
    displayName := deal.title
    organizationId := deal.organization.id
    organizationName := deal.organization.name
    rank := rank
    fields := .deal deal.company.id deal.company.name deal.stage (amountText deal.value)
      deal.currency }

/-- What the searcher of a type lists when nothing limits its candidates. -/
def allResults (tables : Tables) (organizations : List Uuid) (query : String) :
    SearchType → List SearchResult
  | .company => companyListing.results functions query
      (tables.companies.filter (companyMatches functions organizations query))
  | .contact => (contactListing functions).results functions query
      (tables.contacts.filter (contactMatches functions organizations query))
  | .deal => dealListing.results functions query
      (tables.deals.filter (dealMatches functions organizations query))

/-- `_SEARCHERS[result_type]`: the count of the matches and the candidates. -/
def searcher (tables : Tables) (organizations : List Uuid) (query : String)
    (candidateLimit : Nat) (type : SearchType) : Nat × List SearchResult :=
  ((allResults functions tables organizations query type).length,
    (allResults functions tables organizations query type).take candidateLimit)

/-- The key of `results.sort`. -/
def resultKey (result : SearchResult) :
    Nat ×ₗ Nat ×ₗ String ×ₗ String ×ₗ String ×ₗ String :=
  toLex (result.rank,
    toLex (result.type.order,
      toLex (functions.casefold result.displayName,
        toLex (functions.casefold result.organizationName,
          toLex (result.organizationId.text, result.id.text)))))

structure SearchPage where
  count : Nat
  results : List Entry
deriving DecidableEq

/-- `search_crm`. The counts are kept by type. -/
def searchCrm (tables : Tables) (organizations : List Uuid) (query : String)
    (resultTypes : List SearchType) (page pageSize : Nat) : SearchPage :=
  let search := searcher functions tables organizations query (page * pageSize)
  let results := sortOn (resultKey functions) (resultTypes.flatMap fun type => (search type).2)
  { count := (resultTypes.dedup.map fun type => (search type).1).sum
    results := (pageOf pageSize page results).map SearchResult.entry }

/-! ### Pages of the matches -/

/-- The ids of the matching records of a type. -/
def matchingIds (tables : Tables) (organizations : List Uuid) (query : String) :
    SearchType → List Uuid
  | .company => (tables.companies.filter (companyMatches functions organizations query)).map
      Company.id
  | .contact => (tables.contacts.filter (contactMatches functions organizations query)).map
      Contact.id
  | .deal => (tables.deals.filter (dealMatches functions organizations query)).map Deal.id

def Entry.record (entry : Entry) : SearchType × Uuid := (entry.type, entry.id)

def SearchResult.record (result : SearchResult) : SearchType × Uuid := (result.type, result.id)

/-- The pages are cut from one list, which has every matching record once, and
the count is its length. -/
def PagesPartition (tables : Tables) (organizations : List Uuid) (query : String)
    (resultTypes : List SearchType) (pageSize : Nat) : Prop :=
  ∃ all : List Entry,
    (all.map Entry.record).Perm (resultTypes.flatMap fun type =>
      (matchingIds functions tables organizations query type).map fun id => (type, id)) ∧
    ∀ page, 1 ≤ page →
      (searchCrm functions tables organizations query resultTypes page pageSize).results =
        pageOf pageSize page all ∧
      (searchCrm functions tables organizations query resultTypes page pageSize).count = all.length

/-- All results of the types, type by type. -/
def listsOf (tables : Tables) (organizations : List Uuid) (query : String)
    (resultTypes : List SearchType) : List (List SearchResult) :=
  resultTypes.map (allResults functions tables organizations query)

/-- All results, sorted as a page sorts its candidates. -/
def sortedResults (tables : Tables) (organizations : List Uuid) (query : String)
    (resultTypes : List SearchType) : List SearchResult :=
  sortOn (resultKey functions) (listsOf functions tables organizations query resultTypes).flatten

/-- The results that a page shows. -/
def pageResults (tables : Tables) (organizations : List Uuid) (query : String)
    (resultTypes : List SearchType) (pageSize page : Nat) : List SearchResult :=
  pageOf pageSize page (sortOn (resultKey functions)
    (firsts (page * pageSize) (listsOf functions tables organizations query resultTypes)))

/-- The results that sort first are among the first that the database lists of
their type. -/
def OrdersAgree (tables : Tables) (organizations : List Uuid) (query : String)
    (resultTypes : List SearchType) (pageSize : Nat) : Prop :=
  ∀ page, 1 ≤ page →
    ∀ result ∈ (sortedResults functions tables organizations query resultTypes).take
        (page * pageSize),
      ∃ type ∈ resultTypes, result ∈
        (allResults functions tables organizations query type).take (page * pageSize)

variable {functions} {tables : Tables} {organizations : List Uuid} {query : String}
  {resultTypes : List SearchType} {pageSize : Nat}

theorem map_record_results {listing : Listing Row} {type : SearchType} {found : List Row}
    (isRecord : ∀ row rank, (listing.result row rank).record = (type, listing.id row)) :
    ((listing.results functions query found).map SearchResult.record).Perm
      ((found.map listing.id).map fun id => (type, id)) := by
  unfold Listing.results
  rw [List.map_map, List.map_map]
  refine List.Perm.trans ?_ ((perm_sortOn (listing.orderKey functions query) found).map _)
  exact List.Perm.of_eq (List.map_congr_left fun row _ => isRecord row _)

theorem map_record_allResults (type : SearchType) :
    ((allResults functions tables organizations query type).map SearchResult.record).Perm
      ((matchingIds functions tables organizations query type).map fun id => (type, id)) := by
  cases type with
  | company => exact map_record_results fun _ _ => rfl
  | contact => exact map_record_results fun _ _ => rfl
  | deal => exact map_record_results fun _ _ => rfl

omit [LinearOrder Key] in
theorem nodup_matchingIds (type : SearchType) :
    (matchingIds functions tables organizations query type).Nodup := by
  cases type with
  | company => exact tables.companyIds.sublist (List.filter_sublist.map _)
  | contact => exact tables.contactIds.sublist (List.filter_sublist.map _)
  | deal => exact tables.dealIds.sublist (List.filter_sublist.map _)

/-- The records of the results are those that match. -/
theorem map_record_listsOf :
    ((listsOf functions tables organizations query resultTypes).flatten.map
      SearchResult.record).Perm (resultTypes.flatMap fun type =>
        (matchingIds functions tables organizations query type).map fun id => (type, id)) := by
  unfold listsOf
  induction resultTypes with
  | nil => exact List.Perm.nil
  | cons type rest inductionHypothesis =>
      rw [List.map_cons, List.flatten_cons, List.map_append, List.flatMap_cons]
      exact (map_record_allResults type).append inductionHypothesis

/-- No two results are of one record. -/
theorem nodup_records (distinct : resultTypes.Nodup) :
    ((listsOf functions tables organizations query resultTypes).flatten.map
      SearchResult.record).Nodup := by
  rw [map_record_listsOf.nodup_iff, List.nodup_flatMap]
  constructor
  · intro type _
    exact (nodup_matchingIds type).map fun first second same => congrArg Prod.snd same
  · refine distinct.imp fun {first second} differ => ?_
    intro record isFirst isSecond
    obtain ⟨id, -, rfl⟩ := List.mem_map.mp isFirst
    obtain ⟨other, -, same⟩ := List.mem_map.mp isSecond
    exact differ (congrArg Prod.fst same).symm

theorem order_injective : Function.Injective SearchType.order := by
  intro first second same
  cases first <;> cases second <;> first | rfl | cases same

/-- The key ends in what identifies the record. -/
theorem keysDiffer (distinct : resultTypes.Nodup) :
    KeysDiffer (resultKey functions)
      (listsOf functions tables organizations query resultTypes).flatten := by
  intro first isFirst second isSecond same
  have parts := same
  unfold resultKey at parts
  simp only [EmbeddingLike.apply_eq_iff_eq, Prod.mk.injEq] at parts
  obtain ⟨-, sameOrder, -, -, -, sameId⟩ := parts
  have sameRecord : first.record = second.record :=
    Prod.ext (order_injective sameOrder) (Uuid.text_injective sameId)
  exact List.inj_on_of_nodup_map (nodup_records distinct) isFirst isSecond sameRecord

theorem searchCrm_count (distinct : resultTypes.Nodup) (page : Nat) :
    (searchCrm functions tables organizations query resultTypes page pageSize).count =
      (listsOf functions tables organizations query resultTypes).flatten.length := by
  unfold searchCrm listsOf
  dsimp only
  rw [List.dedup_eq_self.mpr distinct, List.length_flatten, List.map_map]
  rfl

theorem searchCrm_results (page : Nat) :
    (searchCrm functions tables organizations query resultTypes page pageSize).results =
      (pageResults functions tables organizations query resultTypes pageSize page).map
        SearchResult.entry := by
  unfold searchCrm pageResults firsts listsOf
  dsimp only
  rw [List.flatMap_map]
  rfl

theorem length_sortedResults :
    (sortedResults functions tables organizations query resultTypes).length =
      (listsOf functions tables organizations query resultTypes).flatten.length :=
  length_sortOn _ _

theorem map_record_sortedResults :
    ((sortedResults functions tables organizations query resultTypes).map
      SearchResult.record).Perm (resultTypes.flatMap fun type =>
        (matchingIds functions tables organizations query type).map fun id => (type, id)) :=
  ((perm_sortOn _ _).map _).trans map_record_listsOf

theorem selections_search (distinct : resultTypes.Nodup) (positive : 0 < pageSize) :
    Selections (sortedResults functions tables organizations query resultTypes) pageSize
      (fun page result => decide (result ∈ firsts (page * pageSize)
        (listsOf functions tables organizations query resultTypes)))
      (pageResults functions tables organizations query resultTypes pageSize) :=
  selections_firsts positive (nodup_records distinct).of_map (keysDiffer distinct)

theorem ordersAgree_iff : OrdersAgree functions tables organizations query resultTypes pageSize ↔
    Agrees (sortedResults functions tables organizations query resultTypes) pageSize
      fun page result => decide (result ∈ firsts (page * pageSize)
        (listsOf functions tables organizations query resultTypes)) := by
  unfold OrdersAgree Agrees firsts listsOf
  simp only [decide_eq_true_iff, List.mem_flatMap, List.mem_map, exists_exists_and_eq_and]

/-- Lists whose records are the same, once each, are the same but for their order. -/
theorem perm_of_records {first second : List SearchResult} (within : first ⊆ second)
    (distinct : (second.map SearchResult.record).Nodup)
    (same : (first.map SearchResult.record).Perm (second.map SearchResult.record)) :
    first.Perm second := by
  have firstDistinct : first.Nodup := (same.nodup_iff.mpr distinct).of_map
  have lengths := same.length_eq
  rw [List.length_map, List.length_map] at lengths
  exact (List.subperm_of_subset firstDistinct within).perm_of_length_le lengths.ge

/-- The pages show results of the search. -/
theorem concatenated_subset (count : Nat) :
    concatenated (pageResults functions tables organizations query resultTypes pageSize) count ⊆
      sortedResults functions tables organizations query resultTypes := by
  intro result member
  obtain ⟨page, -, onPage⟩ := List.mem_flatMap.mp member
  have inFirsts := (mem_sortOn _).mp (List.mem_of_mem_drop (List.mem_of_mem_take onPage))
  exact (mem_sortOn _).mpr ((firsts_sublist _ _).subset inFirsts)

/-- Pages that are cut from one list of all matches show every result once. -/
theorem perm_of_partition (distinct : resultTypes.Nodup)
    (partition : PagesPartition functions tables organizations query resultTypes pageSize)
    {count : Nat} (long : (sortedResults functions tables organizations query resultTypes).length ≤
      count * pageSize) :
    (concatenated (pageResults functions tables organizations query resultTypes pageSize)
      count).Perm (sortedResults functions tables organizations query resultTypes) := by
  obtain ⟨all, records, pages⟩ := partition
  have lengths := (pages 1 le_rfl).2
  rw [searchCrm_count distinct, ← length_sortedResults] at lengths
  have entries : (concatenated
      (pageResults functions tables organizations query resultTypes pageSize) count).map
        SearchResult.entry = all := by
    rw [concatenated, List.map_flatMap]
    have cut : concatenated (fun page =>
        (pageResults functions tables organizations query resultTypes pageSize page).map
          SearchResult.entry) count = all.take (count * pageSize) := by
      apply concatenated_of_pageOf
      intro page
      rw [← searchCrm_results]
      exact (pages (page + 1) (Nat.le_add_left 1 page)).1
    rw [concatenated, List.take_of_length_le (by omega)] at cut
    exact cut
  apply perm_of_records (concatenated_subset count)
  · exact map_record_sortedResults.nodup_iff.mpr
      (map_record_listsOf.nodup_iff.mp (nodup_records distinct))
  · have shown : (concatenated
        (pageResults functions tables organizations query resultTypes pageSize) count).map
          SearchResult.record = all.map Entry.record := by
      rw [← entries, List.map_map]
      rfl
    rw [shown]
    exact records.trans map_record_sortedResults.symm

/-- The pages of a search partition the matches exactly when the two orders agree
at the end of every page. -/
theorem pages_partition_iff (functions : TextFunctions Key) (tables : Tables)
    (organizations : List Uuid) (query : String) (resultTypes : List SearchType)
    (distinct : resultTypes.Nodup) (positive : 0 < pageSize) :
    PagesPartition functions tables organizations query resultTypes pageSize ↔
      OrdersAgree functions tables organizations query resultTypes pageSize := by
  have selections : Selections (sortedResults functions tables organizations query resultTypes) _
    _ _ := selections_search distinct positive
  rw [ordersAgree_iff]
  constructor
  · intro partition
    exact selections.agrees_of_perm fun count long => perm_of_partition distinct partition long
  · intro agrees
    refine ⟨(sortedResults functions tables organizations query resultTypes).map
      SearchResult.entry, ?_, ?_⟩
    · rw [List.map_map]
      exact map_record_sortedResults
    · intro page isPage
      rw [searchCrm_count distinct, searchCrm_results, List.length_map, length_sortedResults,
        pageOf_map, selections.pages_of_agrees agrees isPage]
      exact ⟨rfl, rfl⟩

end Search

/-! ### Two orders that differ -/

/-- The database compares code points, and Python folds a sharp s to two letters. -/
def codePointOrder : TextFunctions String where
  upper := String.toUpper
  lower := String.toLower
  collate text := text
  casefold text := String.ofList (text.toList.flatMap fun char =>
    if char = 'ß' then ['s', 's'] else [char.toLower])
  strip text := text

def alpha : Organization where
  id := ⟨"0a1b2c3d-0000-4000-8000-000000000001", by decide⟩
  name := "Alpha"

def companyNamed (name : String) (id : Uuid) : Company where
  id := id
  organization := alpha
  name := name

def firstId : Uuid := ⟨"10000000-0000-4000-8000-000000000001", by decide⟩

def secondId : Uuid := ⟨"20000000-0000-4000-8000-000000000002", by decide⟩

/-- The database lists the second company first. -/
def streets : Tables where
  companies := [companyNamed "straße" firstId, companyNamed "strasz" secondId]

theorem pages_partition_iff_streets :
    PagesPartition codePointOrder streets [alpha.id] "stra" [.company] 2 ↔
      OrdersAgree codePointOrder streets [alpha.id] "stra" [.company] 2 :=
  pages_partition_iff codePointOrder streets [alpha.id] "stra" [.company] (by decide) (by decide)

/-- With one result a page, the second company is on both pages. -/
theorem streets_not_partitioned : ¬ ∀ (tables : Tables) (organizations : List Uuid)
    (query : String) (resultTypes : List SearchType) (pageSize : Nat), resultTypes ≠ [] →
      resultTypes.Nodup → 0 < pageSize →
        PagesPartition codePointOrder tables organizations query resultTypes pageSize := by
  intro always
  obtain ⟨all, records, pages⟩ :=
    always streets [alpha.id] "stra" [.company] 1 (by decide) (by decide) (by decide)
  have first : (searchCrm codePointOrder streets [alpha.id] "stra" [.company] 1 1).results =
      (searchCrm codePointOrder streets [alpha.id] "stra" [.company] 2 1).results := by
    decide +kernel
  rw [(pages 1 (by decide)).1, (pages 2 (by decide)).1] at first
  have matching : ([SearchType.company].flatMap fun type =>
      (matchingIds codePointOrder streets [alpha.id] "stra" type).map fun id => (type, id)) =
        [(.company, firstId), (.company, secondId)] := by decide +kernel
  rw [matching] at records
  have distinct := records.nodup_iff.mpr (by decide)
  have isPair : all.length = 2 := by
    have lengths := records.length_eq
    rwa [List.length_map] at lengths
  obtain ⟨one, other, rfl⟩ := List.length_eq_two.mp isPair
  have same : one = other := List.singleton_inj.mp first
  rw [same] at distinct
  simp at distinct

end BubllioCrm.Organizations
