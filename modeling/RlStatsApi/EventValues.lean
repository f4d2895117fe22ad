import RlStatsApi.DecimalText
import RlStatsApi.EventData

/-!
# Quantities under several names

A quantity of a player is read from its own field, or else from the first
other member that holds it, or else from the first nested object that does.
Numbers and flags may be given as texts.
-/

set_option autoImplicit false

namespace RlStatsApi.EventValues
open RlStatsApi.BinaryFloat RlStatsApi.DecimalText RlStatsApi.TextLines
open RlStatsApi.JsonValue RlStatsApi.EventData

def i64Min : ℤ := -2^63
def i64Max : ℤ := 2^63-1

/-- A saturating cast, NaN going to zero. -/
def castI64 (f : ℕ → ℕ) (x : F64) : I64 :=
  have h := x.toIntWith_range f i64Min i64Max (by decide) (by decide)
  ⟨x.toIntWith f i64Min i64Max,h.1,h.2.trans_lt (by decide)⟩

def truncToI64 (x : F64) : I64 := castI64 (Datum.truncated binary64) x

def parseI64 (text : String) : Option I64 :=
  (parseSigned (2^63) text.toList).bind (fun i =>
    if h : -2^63 ≤ i ∧ i < 2^63 then some ⟨i,h.1,h.2⟩ else none)

def parseF64 (text : String) : Option F64 := parseFloat binary64 text.toList

def valueAsF64 : Value → Option F64
  | .number n => some n.asF64
  | .string text => parseF64 text
  | _ => none

def valueAsI64 : Value → Option I64
  | .number n => n.asI64.or (some (truncToI64 n.asF64))
  | .string text => (parseI64 text).or ((parseF64 text).map truncToI64)
  | _ => none

def trueTexts : List String := ["true","1","yes","y","on"]
def falseTexts : List String := ["false","0","no","n","off"]

def valueAsBool : Value → Option Bool
  | .bool b => some b
  | .number n => n.asI64.map (fun i => decide (i.val ≠ 0))
  | .string text =>
    let normalized := String.ofList ((trim text.toList).map Char.toLower)
    if normalized ∈ trueTexts then some true
    else if normalized ∈ falseTexts then some false
    else none
  | _ => none

section First

variable {α : Type} (convert : Value → Option α)

def firstValue (map : Members) (keys : List String) : Option α :=
  keys.findSome? (fun key => (map.lookup key).bind convert)

def firstNestedValue (map : Members) (containerKeys valueKeys : List String) : Option α :=
  containerKeys.findSome? (fun key =>
    (map.lookup key).bind (fun v => v.asObject.bind (fun object =>
      firstValue convert object valueKeys)))

end First

def firstNumericF64 := firstValue valueAsF64
def firstNumericI64 := firstValue valueAsI64
def firstBool := firstValue valueAsBool
def firstNestedNumericF64 := firstNestedValue valueAsF64
def firstNestedNumericI64 := firstNestedValue valueAsI64
def firstNestedBool := firstNestedValue valueAsBool

def containerKeys : List String :=
  ["Car","car","CarData","carData","car_data","Vehicle","vehicle"]

def effectiveSpeed (p : UpdateStatePlayer) : Option F64 :=
  p.speed.or <|
  (firstNumericF64 p.extra ["speed","Speed","CarSpeed","carSpeed","car_speed","Velocity",
    "velocity","Car.Speed","car.speed"]).or <|
  firstNestedNumericF64 p.extra containerKeys
    ["Speed","speed","CarSpeed","carSpeed","car_speed","Velocity","velocity"]

def effectiveBoost (p : UpdateStatePlayer) : Option I64 :=
  p.boost.or <|
  (firstNumericI64 p.extra ["boost","Boost","BoostAmount","boostAmount","boost_amount",
    "Car.Boost","car.boost"]).or <|
  firstNestedNumericI64 p.extra containerKeys
    ["Boost","boost","BoostAmount","boostAmount","boost_amount"]

def effectiveBoosting (p : UpdateStatePlayer) : Option Bool :=
  p.bBoosting.or <|
  (firstBool p.extra ["bBoosting","boosting","isBoosting"]).or <|
  firstNestedBool p.extra containerKeys ["bBoosting","boosting","isBoosting"]

def effectiveSupersonic (p : UpdateStatePlayer) : Option Bool :=
  p.bSupersonic.or <|
  (firstBool p.extra ["bSupersonic","supersonic","isSupersonic"]).or <|
  firstNestedBool p.extra containerKeys ["bSupersonic","supersonic","isSupersonic"]

end RlStatsApi.EventValues
