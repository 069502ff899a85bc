/-!
# Numbers with a fixed number of places

A floating-point number has an exact value, a whole number times a power of two. Written with a
fixed number of decimal places it is rounded once, from that exact value, and a value halfway
between two neighbours goes to the even one.
-/

namespace RideShare.Decimal

/-- The quotient of two whole numbers rounded to the nearest whole number, a half to the even
neighbour. -/
def roundDiv (num den : Nat) : Nat :=
  let q := num / den
  let r := num % den
  if 2 * r < den then q
  else if den < 2 * r then q + 1
  else if q % 2 == 0 then q else q + 1

/-- A natural number divided by `10 ^ places`, with all its places. -/
def placesText (places scaled : Nat) : String :=
  let digits := toString scaled
  let padded := String.ofList (List.replicate (places + 1 - digits.length) '0') ++ digits
  let chars := padded.toList
  let whole := String.ofList (chars.take (chars.length - places))
  if places == 0 then whole else whole ++ "." ++ String.ofList (chars.drop (chars.length - places))

/-- Whole number and exponent of two of the finite floating-point number with the given bits, the
sign aside. -/
def magnitude (bits : UInt64) : Nat × Int :=
  let fraction : Nat := bits.toNat % (1 <<< 52)
  let exponent : Nat := (bits.toNat >>> 52) % (1 <<< 11)
  if exponent == 0 then (fraction, -1074) else (fraction + (1 <<< 52), (exponent : Int) - 1075)

/-- A finite number with a fixed number of places. -/
def fixed (places : Nat) (x : Float) : String :=
  let (m, e) := magnitude x.toBits
  let scaled :=
    if 0 ≤ e then (m <<< e.toNat) * Nat.pow 10 places
    else roundDiv (m * Nat.pow 10 places) (1 <<< (-e).toNat)
  let sign := if x.toBits.toNat >>> 63 == 1 then "-" else ""
  sign ++ placesText places scaled

end RideShare.Decimal
