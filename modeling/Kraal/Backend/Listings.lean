import Kraal.Backend.Effects
import Kraal.Foundation.Rounding
import Kraal.Foundation.Selection
import Mathlib.Data.Rat.Floor
import Mathlib.Data.String.Basic

/-!
# Pages of the listings

The parser of the query of a page and the page that the store returns for it.  A number of
JavaScript is a double: the digits of a parameter are rounded to one before its range is tested, and
the store rounds and clamps again.

Main results:

- Theorem {lit}`parse_eq_ok`: the queries that are accepted, and what they are read as.
- Theorem {lit}`keyed_run`: every listing of a run is stored under its id.
- Theorem {lit}`pagination_tiles`: accepted pages that follow each other are the listings in order.

Current gaps:

- The query is what the query string is parsed to, and a listing is returned before it is put into
  a response.
-/

namespace Kraal
namespace Backend

open Foundation

/-! ## The query parser -/

/-- A value of a query: a text if a parameter is given once, otherwise an array or an object. -/
inductive QueryValue where
  | undefined
  | text (raw : String)
  | other
deriving DecidableEq, Repr

/-- The parameters of a query. -/
abbrev Query : Type := Storage String QueryValue

/-- The size of a page and the number of rows before it. -/
structure ListingPagination where
  limit : ℚ
  offset : ℚ
deriving DecidableEq, Repr

/-- The page that is served without parameters. -/
def listingPaginationDefaults : ListingPagination := ⟨100, 0⟩

/-- The fewest rows of a page. -/
def listingPaginationMinLimit : Nat := 1

/-- The most rows of a page. -/
def listingPaginationMaxLimit : Nat := 500

/-- The first row. -/
def listingPaginationMinOffset : Nat := 0

/-- The largest integer below which all integers are doubles. -/
def maxSafeInteger : Nat := 2 ^ 53 - 1

/-- The parameters that are known. -/
def allowedQueryKeys : List String := ["limit", "offset"]

/-- One digit or more, and nothing else. -/
def integerPattern (raw : String) : Bool :=
  !raw.toList.isEmpty && raw.toList.all Char.isDigit

/-- The integer of a text of decimal digits. -/
def decimal (raw : String) : Nat := Nat.ofDigitChars 10 raw.toList 0

/-- No finite double reaches this power of two. -/
def doubleExponentEnd : Nat := 1024

/-- The number of a text of digits: the nearest double, or none for infinity. -/
def toNumber (raw : String) : Option Nat :=
  let value := roundBits 53 (decimal raw)
  if value < 2 ^ doubleExponentEnd then some value else none

/-- A number that is a safe integer. -/
def isSafeInteger (value : Option Nat) : Bool := value.any fun n => decide (n ≤ maxSafeInteger)

/-- The integer of a text within some bounds. -/
def parseBoundedInt (raw field : String) (min max : Nat) : Except String Nat :=
  if integerPattern raw then
    match toNumber raw with
    | some value =>
        if !isSafeInteger (some value) || value < min || max < value then
          .error (field ++ " must be between " ++ toString min ++ " and " ++ toString max)
        else .ok value
    | none => .error (field ++ " must be between " ++ toString min ++ " and " ++ toString max)
  else .error (field ++ " must be a non-negative integer")

/-- A parameter that may be absent. -/
def parseParameter (field : String) (default : ℚ) (min max : Nat) :
    Option QueryValue → Except String ℚ
  | none | some .undefined => .ok default
  | some .other => .error (field ++ " must be provided exactly once")
  | some (.text raw) => (parseBoundedInt raw field min max).map fun n => (n : ℚ)

/-- The page that a query asks for. -/
def parse (query : Option Query) : Except String ListingPagination :=
  let q := query.getD Storage.empty
  match q.keys.find? fun key => key ∉ allowedQueryKeys with
  | some key => .error ("unknown query parameter: " ++ key)
  | none => do
      let limit ← parseParameter "limit" listingPaginationDefaults.limit
        listingPaginationMinLimit listingPaginationMaxLimit (q.get "limit")
      let offset ← parseParameter "offset" listingPaginationDefaults.offset
        listingPaginationMinOffset maxSafeInteger (q.get "offset")
      pure ⟨limit, offset⟩

/-! ## Accepted queries -/

/-- A parameter is absent and its default stands for it, or it is a text of digits that denotes an
integer of a range. -/
inductive Denotes (default : ℚ) (min max : Nat) : Option QueryValue → ℚ → Prop
  | absent : Denotes default min max none default
  | undefined : Denotes default min max (some .undefined) default
  | digits {raw : String} (hne : raw ≠ "") (hdigits : ∀ c ∈ raw.toList, c.isDigit = true)
      (hmin : min ≤ decimal raw) (hmax : decimal raw ≤ max) :
      Denotes default min max (some (.text raw)) (decimal raw)

/-- What a query is read as. -/
structure Accepts (query : Option Query) (pagination : ListingPagination) : Prop where
  keys : ∀ key ∈ (query.getD Storage.empty).keys, key = "limit" ∨ key = "offset"
  limit : Denotes 100 1 500 ((query.getD Storage.empty).get "limit") pagination.limit
  offset : Denotes 0 0 (2 ^ 53 - 1) ((query.getD Storage.empty).get "offset") pagination.offset

variable {raw field : String} {default : ℚ} {min max : Nat} {value : Option QueryValue}
  {query : Option Query} {pagination : ListingPagination}

/-- A text that matches has digits only. -/
theorem integerPattern_iff :
    integerPattern raw = true ↔ raw ≠ "" ∧ ∀ c ∈ raw.toList, c.isDigit = true := by
  simp [integerPattern]

/-- A safe integer is the one that the digits denote, as it is not rounded. -/
theorem toNumber_safe {n : Nat} :
    toNumber raw = some n ∧ n ≤ maxSafeInteger ↔ decimal raw = n ∧ n ≤ maxSafeInteger := by
  have hsafe : maxSafeInteger < 2 ^ 53 := by decide
  by_cases hsmall : decimal raw < 2 ^ 53
  · have hround : roundBits 53 (decimal raw) = decimal raw := roundBits_of_lt hsmall
    have hnumber : toNumber raw = some (decimal raw) := by
      unfold toNumber
      dsimp only
      rw [hround, if_pos (hsmall.trans (Nat.pow_lt_pow_right (by decide) (by decide)))]
    rw [hnumber, Option.some.injEq]
  · have hlarge : 2 ^ 53 ≤ roundBits 53 (decimal raw) :=
      two_pow_le_roundBits (by decide) (not_lt.mp hsmall)
    constructor
    · intro h
      rcases h with ⟨hnumber, hn⟩
      unfold toNumber at hnumber
      dsimp only at hnumber
      split at hnumber
      · have hvalue := Option.some.inj hnumber
        omega
      · cases hnumber
    · intro h
      rcases h with ⟨hn, hle⟩
      omega

/-- The numbers that pass the test of the range. -/
theorem not_outside_iff {n : Nat} :
    ¬ (!isSafeInteger (some n) || n < min || max < n) = true ↔
      n ≤ maxSafeInteger ∧ min ≤ n ∧ n ≤ max := by
  simp [isSafeInteger, and_assoc]

/-- A text of digits is accepted if its number is safe and in the range. -/
theorem parseBoundedInt_iff {n : Nat} :
    parseBoundedInt raw field min max = .ok n ↔ integerPattern raw = true ∧
      (toNumber raw = some n ∧ n ≤ maxSafeInteger) ∧ min ≤ n ∧ n ≤ max := by
  unfold parseBoundedInt
  by_cases hpattern : integerPattern raw = true
  · rw [if_pos hpattern]
    cases hnumber : toNumber raw with
    | none => exact iff_of_false (fun h => by cases h) fun h => by cases h.2.1.1
    | some value =>
        dsimp only
        by_cases hrange : value ≤ maxSafeInteger ∧ min ≤ value ∧ value ≤ max
        · rw [if_neg (not_outside_iff.mpr hrange), Except.ok.injEq]
          constructor
          · rintro rfl
            exact ⟨hpattern, ⟨rfl, hrange.1⟩, hrange.2⟩
          · intro h
            exact Option.some.inj h.2.1.1
        · rw [if_pos (not_not.mp (mt not_outside_iff.mp hrange))]
          constructor
          · intro h
            cases h
          · intro h
            rcases h with ⟨-, ⟨heq, hsafe⟩, hbounds⟩
            cases heq
            exact absurd ⟨hsafe, hbounds⟩ hrange
  · rw [if_neg hpattern]
    exact iff_of_false (fun h => by cases h) fun h => hpattern h.1

/-- Which texts are read within some bounds. -/
theorem parseBoundedInt_eq_ok {n : Nat} (hmax : max ≤ maxSafeInteger) :
    parseBoundedInt raw field min max = .ok n ↔
      (raw ≠ "" ∧ ∀ c ∈ raw.toList, c.isDigit = true) ∧ decimal raw = n ∧ min ≤ n ∧ n ≤ max := by
  rw [parseBoundedInt_iff, toNumber_safe, integerPattern_iff]
  constructor
  · intro h
    exact ⟨h.1, h.2.1.1, h.2.2⟩
  · intro h
    exact ⟨h.1, ⟨h.2.1, h.2.2.2.trans hmax⟩, h.2.2⟩

/-- Which parameters are read. -/
theorem parseParameter_eq_ok {number : ℚ} (hmax : max ≤ maxSafeInteger) :
    parseParameter field default min max value = .ok number ↔
      Denotes default min max value number := by
  cases value with
  | none =>
      constructor
      · intro h
        cases h
        exact .absent
      · intro h
        cases h
        rfl
  | some value =>
      cases value with
      | undefined =>
          constructor
          · intro h
            cases h
            exact .undefined
          · intro h
            cases h
            rfl
      | other =>
          constructor
          · intro h
            cases h
          · intro h
            cases h
      | text raw =>
          constructor
          · intro h
            cases hparsed : parseBoundedInt raw field min max with
            | error message =>
                rw [parseParameter, hparsed] at h
                cases h
            | ok n =>
                rw [parseParameter, hparsed] at h
                cases h
                rcases (parseBoundedInt_eq_ok hmax).mp hparsed with
                  ⟨⟨hne, hdigits⟩, rfl, hmin, hle⟩
                exact .digits hne hdigits hmin hle
          · intro h
            cases h with
            | digits hne hdigits hmin hle =>
                rw [parseParameter,
                  (parseBoundedInt_eq_ok hmax).mpr ⟨⟨hne, hdigits⟩, rfl, hmin, hle⟩]
                rfl

/-- The parser accepts what it should and reads it as it should. -/
theorem parse_eq_ok : parse query = .ok pagination ↔ Accepts query pagination := by
  unfold parse
  dsimp only
  cases hfind : (query.getD Storage.empty).keys.find? fun key => key ∉ allowedQueryKeys with
  | some key =>
      constructor
      · intro h
        cases h
      · intro h
        have hmem := List.mem_of_find?_eq_some hfind
        have hkey := List.find?_some hfind
        rcases h.keys key hmem with rfl | rfl
        · simp [allowedQueryKeys] at hkey
        · simp [allowedQueryKeys] at hkey
  | none =>
      have hkeys : ∀ key ∈ (query.getD Storage.empty).keys, key = "limit" ∨ key = "offset" := by
        intro key hkey
        have hallowed := List.find?_eq_none.mp hfind key hkey
        have hmem : key ∈ allowedQueryKeys := by simpa using hallowed
        simpa [allowedQueryKeys] using hmem
      have hlimit := fun limit : ℚ => @parseParameter_eq_ok "limit" 100 1 500
        ((query.getD Storage.empty).get "limit") limit (by decide)
      have hoffset := fun offset : ℚ => @parseParameter_eq_ok "offset" 0 0 (2 ^ 53 - 1)
        ((query.getD Storage.empty).get "offset") offset (by decide)
      constructor
      · intro h
        rcases exceptBind_eq_ok.mp h with ⟨limit, hparsed, h⟩
        rcases exceptBind_eq_ok.mp h with ⟨offset, hparsed', h⟩
        cases h
        exact ⟨hkeys, (hlimit limit).mp hparsed, (hoffset offset).mp hparsed'⟩
      · intro h
        apply exceptBind_eq_ok.mpr
        refine ⟨pagination.limit, (hlimit _).mpr h.limit, ?_⟩
        apply exceptBind_eq_ok.mpr
        exact ⟨pagination.offset, (hoffset _).mpr h.offset, rfl⟩

/-! ## The listings of the store -/

/-- A listing as it is returned. -/
structure ListingReadModel where
  id : String
  sellerId : String
  creditBatchId : String
  quantity : Quantity
  quantityRemaining : Int
  priceStroops : Quantity
  createdAt : Int
deriving DecidableEq

/-- What is shown of a listing. -/
def toListingReadModel (row : ListingRow) : ListingReadModel where
  id := row.id
  sellerId := row.sellerId
  creditBatchId := row.creditBatchId
  quantity := row.quantityTotal
  quantityRemaining := row.quantityRemaining
  priceStroops := row.priceStroops
  createdAt := row.createdAt

/-- A number without its fraction. -/
def trunc (number : ℚ) : Int := if 0 ≤ number then ⌊number⌋ else ⌈number⌉

/-- The limit of a page, cut to what is allowed. -/
def clampLimit (limit : ℚ) : Int :=
  Min.min (Max.max (trunc limit) listingPaginationMinLimit) listingPaginationMaxLimit

/-- The offset of a page, cut to what is allowed. -/
def clampOffset (offset : ℚ) : Int := Max.max (trunc offset) listingPaginationMinOffset

/-- What the rows are ordered by: the newest first, and rows of the same time by their ids. -/
def orderKey (row : ListingRow) : ℤᵒᵈ ×ₗ String := toLex (OrderDual.toDual row.createdAt, row.id)

/-- The page of the listings that is asked for. -/
def listListings (d : Domain) (pagination : ListingPagination) : List ListingReadModel :=
  let limit := clampLimit pagination.limit
  let offset := clampOffset pagination.offset
  let rows := selectPage orderKey d.listings.values limit.toNat offset.toNat
  rows.map toListingReadModel

/-- Every listing is stored under its id. -/
def Keyed (d : Domain) : Prop := ∀ id row, d.listings.get id = some row → row.id = id

variable {d d' : Domain} {payload : Payload} {endpoint : Endpoint}

/-- A listing is stored under its id. -/
theorem keyed_withListing {row : ListingRow} (h : Keyed d) : Keyed (d.withListing row) :=
  Storage.forall_get_set (P := fun id (row : ListingRow) => row.id = id) h rfl

/-- Applying a payload stores listings under their ids. -/
theorem keyed_apply (h : Keyed d) (happly : applyAs endpoint payload () d = .ok ((), d')) :
    Keyed d' := by
  rcases applyAs_cases happly with ⟨rfl, -⟩ | ⟨p, rfl, rfl, rfl⟩ | ⟨p, rfl, rfl, -, -, rfl⟩ |
    ⟨p, rfl, -, -, rfl⟩
  · exact h
  · exact keyed_withListing h
  · intro id row hrow
    rw [get_decrement, Option.map_eq_some_iff] at hrow
    rcases hrow with ⟨old, hold, rfl⟩
    have hid : old.id = id := h id old hold
    split
    · exact hid
    · exact hid
  · exact h

/-- A step stores listings under their ids. -/
theorem keyed_step (cfg : AppConfig) (rt : Runtime) {w : World} (i : Input)
    (h : Keyed w.store.db.domain) : Keyed (step cfg rt w i).store.db.domain := by
  rcases step_effect cfg rt w i with ⟨-, hdomain⟩ | ⟨req, script, key, -, -, heffect⟩
  · rw [hdomain]
    exact h
  · cases heffect with
    | unchanged _ hdomain _ =>
        rw [hdomain]
        exact h
    | reapplied _ _ happly _ _ => exact keyed_apply h happly
    | submitted _ _ _ _ hdomain _ =>
        rcases hdomain with hdomain | happly
        · rw [hdomain]
          exact h
        · exact keyed_apply h happly

/-- No listing is stored at first. -/
theorem keyed_empty : Keyed Domain.empty := by
  intro id row hrow
  rw [Domain.empty, Storage.get_empty] at hrow
  cases hrow

/-- Every listing of a run is stored under its id. -/
theorem keyed_run (cfg : AppConfig) (rt : Runtime) (run : List Input) :
    ∀ w, Run.Visits (step cfg rt) World.initial run w → Keyed w.store.db.domain :=
  Run.visits_invariant (I := fun w : World => Keyed w.store.db.domain) keyed_empty
    fun e _ h => keyed_step cfg rt e.2 h

/-! ## Clamping -/

/-- A natural number has no fraction to cut. -/
theorem trunc_natCast (n : Nat) : trunc n = n := by
  unfold trunc
  rw [if_pos (Nat.cast_nonneg n), Int.floor_natCast]

/-- A limit within the bounds stays as it is. -/
theorem clampLimit_natCast {n : Nat} (hmin : 1 ≤ n) (hmax : n ≤ 500) : clampLimit n = n := by
  unfold clampLimit
  rw [trunc_natCast, listingPaginationMinLimit, listingPaginationMaxLimit]
  omega

/-- An offset stays as it is. -/
theorem clampOffset_natCast (n : Nat) : clampOffset n = n := by
  unfold clampOffset
  rw [trunc_natCast, listingPaginationMinOffset]
  omega

/-- What a parameter denotes is an integer of its range, as its default is. -/
theorem Denotes.exists_nat {n : Nat} {number : ℚ} (h : Denotes n min max value number)
    (hmin : min ≤ n) (hmax : n ≤ max) : ∃ m : Nat, number = m ∧ min ≤ m ∧ m ≤ max := by
  cases h with
  | absent => exact ⟨n, rfl, hmin, hmax⟩
  | undefined => exact ⟨n, rfl, hmin, hmax⟩
  | digits _ _ hlow hhigh => exact ⟨_, rfl, hlow, hhigh⟩

/-- A page that is accepted has natural numbers within the bounds. -/
theorem Accepts.exists_nat (h : Accepts query pagination) :
    ∃ limit offset : Nat, pagination = ⟨limit, offset⟩ ∧ 1 ≤ limit ∧ limit ≤ 500 := by
  rcases Denotes.exists_nat (n := 100) h.limit (by decide) (by decide) with
    ⟨limit, hlimit, hmin, hmax⟩
  rcases Denotes.exists_nat (n := 0) h.offset (by decide) (by decide) with ⟨offset, hoffset, -, -⟩
  refine ⟨limit, offset, ?_, hmin, hmax⟩
  cases pagination
  simp only [ListingPagination.mk.injEq]
  exact ⟨hlimit, hoffset⟩

/-- The store changes nothing about an accepted query. -/
theorem clamp_of_accepts (h : Accepts query pagination) :
    clampLimit pagination.limit = pagination.limit ∧
      clampOffset pagination.offset = pagination.offset := by
  rcases h.exists_nat with ⟨limit, offset, rfl, hmin, hmax⟩
  rw [clampLimit_natCast hmin hmax, clampOffset_natCast]
  exact ⟨Int.cast_natCast limit, Int.cast_natCast offset⟩

/-! ## The listings in order -/

/-- A listing comes before another one: it is newer, or it is as old and has the smaller id. -/
def Precedes (a b : ListingRow) : Prop :=
  b.createdAt < a.createdAt ∨ a.createdAt = b.createdAt ∧ a.id < b.id

/-- All listings of a store, each exactly once and in order. -/
structure InOrder (d : Domain) (ordered : List ListingRow) : Prop where
  perm : ordered.Perm d.listings.values
  pairwise : ordered.Pairwise Precedes

/-- Listings in the order of their keys are in order. -/
theorem precedes_of_le {a b : ListingRow} (hle : orderKey a ≤ orderKey b) (hne : a.id ≠ b.id) :
    Precedes a b := by
  rcases Prod.Lex.toLex_le_toLex.mp hle with hlt | ⟨heq, hid⟩
  · exact .inl hlt
  · exact .inr ⟨heq, lt_of_le_of_ne hid hne⟩

/-- The selection of all listings is in order. -/
theorem inOrder_select (h : Keyed d) {limit : Nat} (hlimit : d.listings.values.length ≤ limit) :
    InOrder d (select orderKey d.listings.values limit) := by
  have hperm : (select orderKey d.listings.values limit).Perm d.listings.values :=
    select_perm hlimit
  have hnodup := (hperm.map ListingRow.id).nodup_iff.mpr (Storage.nodup_map_values h)
  have hdistinct := List.pairwise_map.mp hnodup
  constructor
  · exact hperm
  · exact (select_pairwise orderKey d.listings.values limit).imp₂
      (fun _ _ hle hne => precedes_of_le hle hne) hdistinct

/-- Pages of an accepted size that follow each other, over a store that does not change. -/
def pagesOf (d : Domain) (limit : ℚ) (pages : Nat) : List ListingReadModel :=
  (List.range pages).flatMap fun page : Nat => listListings d ⟨limit, page * limit⟩

/-- Some pages are the first listings in order. -/
theorem pagesOf_eq {limit : Nat} (hmin : 1 ≤ limit) (hmax : limit ≤ 500) (pages : Nat) :
    pagesOf d limit pages =
      (select orderKey d.listings.values (pages * limit)).map toListingReadModel := by
  rw [← flatMap_selectPage, List.map_flatMap, pagesOf]
  apply List.flatMap_congr
  intro page _
  have hoffset : (page : ℚ) * limit = (page * limit : Nat) := by push_cast; rfl
  unfold listListings
  dsimp only
  rw [hoffset, clampLimit_natCast hmin hmax, clampOffset_natCast, Int.toNat_natCast,
    Int.toNat_natCast]

/-- The parser accepts the queries it should, the store clamps none of them, and the pages of an
accepted size make up the listings in order. -/
theorem pagination_tiles :
    (∀ query pagination, parse query = .ok pagination ↔ Accepts query pagination) ∧
    (∀ query pagination, parse query = .ok pagination →
      clampLimit pagination.limit = pagination.limit ∧
        clampOffset pagination.offset = pagination.offset) ∧
    ∀ query pagination, parse query = .ok pagination → ∀ d, Keyed d →
      ∃ ordered, InOrder d ordered ∧
        ∀ pages : Nat, (ordered.length : ℚ) ≤ pages * pagination.limit →
          pagesOf d pagination.limit pages = ordered.map toListingReadModel := by
  refine ⟨fun _ _ => parse_eq_ok, fun _ _ h => clamp_of_accepts (parse_eq_ok.mp h), ?_⟩
  intro query pagination h d hkeyed
  rcases (parse_eq_ok.mp h).exists_nat with ⟨limit, offset, rfl, hmin, hmax⟩
  have hordered := inOrder_select hkeyed le_rfl
  refine ⟨_, hordered, ?_⟩
  intro pages hpages
  have hlength := hordered.perm.length_eq
  have henough : d.listings.values.length ≤ pages * limit := by
    rw [hlength] at hpages
    change (d.listings.values.length : ℚ) ≤ pages * limit at hpages
    exact_mod_cast hpages
  rw [pagesOf_eq hmin hmax]
  -- both selections hold every row
  rw [select, select, List.take_of_length_le (by rwa [List.length_insertionSort]),
    List.take_of_length_le (by rw [List.length_insertionSort])]

/-- One listing a page. -/
def singleQuery : Query := Storage.empty.set "limit" (.text "01")

/-- A listing of one unit. -/
def unitListing (id : String) : ListingRow where
  id := id
  sellerId := "seller"
  creditBatchId := "batch"
  quantityTotal := ⟨1, Int.zero_lt_one⟩
  quantityRemaining := 1
  priceStroops := ⟨1, Int.zero_lt_one⟩
  createdAt := 7

/-- Two listings of the same time. -/
def twoListings : Domain :=
  (Domain.empty.withListing (unitListing "a")).withListing (unitListing "b")

/-- Two pages of one listing each. -/
theorem twoListings_tiled :
    ∃ ordered, InOrder twoListings ordered ∧
      pagesOf twoListings 1 2 = ordered.map toListingReadModel := by
  have hparse : parse (some singleQuery) = .ok ⟨1, 0⟩ := by decide +kernel
  have hkeyed : Keyed twoListings := keyed_withListing (keyed_withListing keyed_empty)
  rcases pagination_tiles.2.2 _ _ hparse _ hkeyed with ⟨ordered, hordered, hpages⟩
  have hlength : ordered.length = 2 := hordered.perm.length_eq.trans (by decide)
  refine ⟨ordered, hordered, hpages 2 ?_⟩
  rw [hlength]
  norm_num

end Backend
end Kraal
