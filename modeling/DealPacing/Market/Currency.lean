import DealPacing.Auction.Log
import DealPacing.Decimal.Shortest
import DealPacing.Text.Casing

/-!
# Currencies

A rate table gives the value of one unit of each currency in a base currency. Currency codes are
compared in upper case.

## Main definitions

* `Rates`: a table of conversion rates
* `CurrencyError`: why an amount cannot be converted
* `Rates.convert`: the value of an amount in another currency
-/

namespace DealPacing

/-- Why an amount cannot be converted. -/
inductive CurrencyError where
  | unknownCurrency (code : String)
  | invalidRate (code : String) (rate : Float)

/-- The text of an error. -/
def CurrencyError.message : CurrencyError → String
  | .unknownCurrency code => "No conversion rate for currency " ++ code
  | .invalidRate code rate =>
    "Invalid conversion rate " ++ Decimal.positional rate ++ " for currency " ++ code

/-- The value of one unit of each currency in the base currency; codes are in upper case. -/
structure Rates where
  base : String
  table : IdMap Float

namespace Rates

/-- The table of a list of rates; of codes that differ in case only the last counts. -/
def ofList (base : String) (rates : List (String × Float)) : Rates :=
  ⟨Text.uppercase base,
    Std.ExtTreeMap.ofList (rates.map fun (code, rate) => (Text.uppercase code, rate))⟩

/-- The rate of a currency. Rates are finite and positive, and the base has rate one. -/
def rate (r : Rates) (code : String) : Except CurrencyError Float :=
  if code = r.base then .ok 1.0
  else
    match r.table[code]? with
    | none => .error (.unknownCurrency code)
    | some rate =>
      if !rate.isFinite || rate ≤ 0.0 then .error (.invalidRate code rate) else .ok rate

/-- The value in the currency `target` of an amount in the currency `source`. -/
def convert (r : Rates) (amount : Float) (source target : String) : Except CurrencyError Float := do
  let source := Text.uppercase source
  let target := Text.uppercase target
  if source = target then return amount
  let sourceRate ← r.rate source
  let targetRate ← r.rate target
  return amount * sourceRate / targetRate

end Rates

end DealPacing
