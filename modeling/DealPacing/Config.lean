import DealPacing.Decimal.Reading
import DealPacing.Decimal.Shortest
import DealPacing.Text.Casing
import DealPacing.Text.Split
import DealPacing.Wire.Codec

/-!
# Configuration

Every setting has a default. Settings come as a typed record, or from a file and from environment
variables, which win over the file. The value of a variable is taken as a truth value, an integer, a
float, a list or a text, whichever fits first, and each setting converts what it is given to its own
type.

## Main definitions

* `Config`: the settings
* `Config.decode`, `Config.encode`: settings as a typed record
* `Config.load`: settings from a file and environment variables
-/

namespace DealPacing

open Wire

/-- The settings of the engine. -/
structure Config where
  maxDealsPerBidder : Nat := 3
  adServerCurrency : String := "USD"
  bidders : List String := ["appnexus", "openx", "pubmatic", "rubicon"]
  deprecatedBidders : List String := []
  lineItemStatusTtlSecs : Nat := 7200
  cachedPlansNumber : Nat := 20
  competitorsNumber : Nat := 10
  reportBatchSize : Nat := 100
  planAdvanceIntervalSecs : Nat := 60
  reportIntervalSecs : Nat := 900
  reportBufferCapacity : Nat := 64
  lineItemsFile : Option String := none
  hostId : Option String := none
  region : Option String := none
  vendor : Option String := none
  currencyRates : List (String × Float) := []

/-- How the values of a file or of variables are converted to the type of a setting. -/
structure Conversions where
  word : Decoder Nat
  text : Decoder String
  float : Decoder Float

namespace Config

/-- Read the settings; absent ones have their defaults. -/
def fields (c : Conversions) : FieldReader Config := do
  let d : Config := {}
  let maxDealsPerBidder ← defaulted "max_deals_per_bidder" c.word d.maxDealsPerBidder
  let adServerCurrency ← defaulted "ad_server_currency" c.text d.adServerCurrency
  let bidders ← defaulted "bidders" (list c.text) d.bidders
  let deprecatedBidders ← defaulted "deprecated_bidders" (list c.text) d.deprecatedBidders
  let lineItemStatusTtlSecs ←
    defaulted "line_item_status_ttl_secs" c.word d.lineItemStatusTtlSecs
  let cachedPlansNumber ← defaulted "cached_plans_number" c.word d.cachedPlansNumber
  let competitorsNumber ← defaulted "competitors_number" c.word d.competitorsNumber
  let reportBatchSize ← defaulted "report_batch_size" c.word d.reportBatchSize
  let planAdvanceIntervalSecs ←
    defaulted "plan_advance_interval_secs" c.word d.planAdvanceIntervalSecs
  let reportIntervalSecs ← defaulted "report_interval_secs" c.word d.reportIntervalSecs
  let reportBufferCapacity ← defaulted "report_buffer_capacity" c.word d.reportBufferCapacity
  let lineItemsFile ← optional "line_items_file" c.text
  let hostId ← optional "host_id" c.text
  let region ← optional "region" c.text
  let vendor ← optional "vendor" c.text
  let currencyRates ← defaulted "currency_rates" (dictionary c.float) d.currencyRates
  return {
    maxDealsPerBidder, adServerCurrency, bidders, deprecatedBidders, lineItemStatusTtlSecs,
    cachedPlansNumber, competitorsNumber, reportBatchSize, planAdvanceIntervalSecs,
    reportIntervalSecs, reportBufferCapacity, lineItemsFile, hostId, region, vendor,
    currencyRates }

/-- Settings as a typed record. -/
def decode : Decoder Config := record (fields ⟨Wire.word64, Wire.text, Wire.float⟩)

/-- Write the settings, each under the name it is read by. -/
def encode (c : Config) : Json :=
  let texts (xs : List String) : Json := .arr (xs.map .str)
  let textOrNull (x : Option String) : Json := (x.map Json.str).getD .null
  ofFields [
    member "max_deals_per_bidder" (.nat c.maxDealsPerBidder),
    member "ad_server_currency" (.str c.adServerCurrency),
    member "bidders" (texts c.bidders),
    member "deprecated_bidders" (texts c.deprecatedBidders),
    member "line_item_status_ttl_secs" (.nat c.lineItemStatusTtlSecs),
    member "cached_plans_number" (.nat c.cachedPlansNumber),
    member "competitors_number" (.nat c.competitorsNumber),
    member "report_batch_size" (.nat c.reportBatchSize),
    member "plan_advance_interval_secs" (.nat c.planAdvanceIntervalSecs),
    member "report_interval_secs" (.nat c.reportIntervalSecs),
    member "report_buffer_capacity" (.nat c.reportBufferCapacity),
    member "line_items_file" (textOrNull c.lineItemsFile),
    member "host_id" (textOrNull c.hostId),
    member "region" (textOrNull c.region),
    member "vendor" (textOrNull c.vendor),
    member "currency_rates" (.obj (c.currencyRates.map fun (code, rate) => (code, .float rate)))]

/-! ## Loose conversions -/

/-- The truth value that a word stands for. -/
def switch? (s : String) : Option Bool :=
  match Text.lowercase s with
  | "true" | "on" | "yes" => some true
  | "false" | "off" | "no" => some false
  | _ => none

/-- The natural number nearest to a float, as far as a 64-bit word goes. -/
def roundedWord (x : Float) : Nat := x.round.toUInt64.toNat

/-- An unsigned 64-bit integer written with an optional plus sign. -/
def writtenWord? (s : String) : Option Nat :=
  match s.toList with
  | '-' :: _ => none
  | text =>
    (Decimal.integer? text).bind fun n =>
      if n ≤ word64Max then some n.toNat else none

/-- Convert to an unsigned integer: floats are rounded, truth values are one and zero. -/
def looseWord : Decoder Nat
  | .num (.int n) =>
    if fitsInt64 n then if 0 ≤ n then some n.toNat else none else some (roundedWord (Float.ofInt n))
  | .num (.float x) => some (roundedWord x)
  | .bool b => some b.toNat
  | .str s =>
    match switch? s with
    | some b => some b.toNat
    | none => writtenWord? s
  | _ => none

/-- Convert to a float: truth values are one and zero. -/
def looseFloat : Decoder Float
  | .num n => some n.toFloat
  | .bool b => some (if b then 1.0 else 0.0)
  | .str s =>
    match switch? s with
    | some b => some (if b then 1.0 else 0.0)
    | none => Decimal.nearest? s
  | _ => none

/-- Convert to a text: numbers and truth values are written out. -/
def looseText : Decoder String
  | .str s => some s
  | .bool b => some (if b then "true" else "false")
  | .num (.int n) =>
    some (if fitsInt64 n then Int.repr n else Decimal.positional (Float.ofInt n))
  | .num (.float x) => some (Decimal.positional x)
  | _ => none

/-! ## Environment variables -/

/-- The settings whose variables hold lists. -/
def listSettings : List String := ["bidders", "deprecated_bidders"]

/-- The start of the names of all variables, in lower case. -/
def variableStart : String := "deals_"

/-- The value of a variable. -/
def variableValue (setting value : String) : Json :=
  match Text.lowercase value with
  | "true" => .bool true
  | "false" => .bool false
  | _ =>
    match (Decimal.integer? value.toList).filter fitsInt64 with
    | some n => .int n
    | none =>
      match Decimal.nearest? value with
      | some x => .float x
      | none =>
        if listSettings.contains setting then
          .arr ((Text.splitAt ',' value.toList).map fun part => .str (String.ofList part))
        else .str value

/-- The setting that a variable is for, with its value. -/
def ofVariable? (name value : String) : Option (String × Json) :=
  let name := Text.lowercase name
  if variableStart.toList.isPrefixOf name.toList then
    let setting := String.ofList (name.toList.drop variableStart.length)
    some (setting, variableValue setting value)
  else none

/-- The settings of a file and of environment variables, which win over the file. -/
def load (file : List (String × Json)) (environment : List (String × String)) : Option Config :=
  let entries := file ++ environment.filterMap fun (name, value) => ofVariable? name value
  record (fields ⟨looseWord, looseText, looseFloat⟩) (Json.object entries)

end Config

end DealPacing
