import TopCharts.Decimal.Shortest

/-!
# Writing decimals

* `Layout` : between which exponents a decimal is written without one; outside it is written with
  one digit before the point and a signed exponent;
* `Layout.text` : the text of a float, by its shortest decimal. A whole number ends in `.0`.
-/

namespace TopCharts

/-- The exponents of the leading digit between which a decimal is written without an exponent. -/
structure Layout where
  leastFixed : Int
  greatestFixed : Int

namespace Layout

/-- The text of `d · 10^p`, without sign. -/
def decimalText (l : Layout) (x : Decimal) : List Char :=
  let ds := Nat.toDigits 10 x.digits
  let exponent : Int := x.exponent + ds.length - 1
  if l.leastFixed ≤ exponent ∧ exponent ≤ l.greatestFixed then
    if 0 ≤ x.exponent then ds ++ List.replicate x.exponent.toNat '0' ++ ['.', '0']
    else if 0 ≤ exponent then
      ds.take (exponent.toNat + 1) ++ '.' :: ds.drop (exponent.toNat + 1)
    else ['0', '.'] ++ List.replicate (-exponent - 1).toNat '0' ++ ds
  else
    ds.take 1 ++ (if ds.length = 1 then [] else '.' :: ds.drop 1)
      ++ ['e', if 0 ≤ exponent then '+' else '-'] ++ Nat.toDigits 10 exponent.natAbs

def text (l : Layout) (x : Float) : String :=
  let bits := x.toBits
  let sign := if bits >>> 63 = 0 then [] else ['-']
  let magnitude := Binary.ofBits bits
  String.ofList (sign ++
    if magnitude.mantissa = 0 then ['0', '.', '0'] else l.decimalText magnitude.shortest)

end Layout

end TopCharts
