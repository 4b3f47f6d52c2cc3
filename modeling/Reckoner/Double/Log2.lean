import Reckoner.Double
import Reckoner.Double.LogTable

/-!
# Binary logarithms in double precision

The logarithm of a number is the exponent of its power of two, the logarithm of the table's
point for its part, and that of the quotient by the point, which is close to one and taken by
a polynomial. The three are added with the rounding errors of the large terms carried along,
so that the sum is rounded nearly as if it were exact: it is within 0.55 units of its last
place. Close to one a longer polynomial does without the table, since the sum would cancel.
-/

namespace Reckoner.Double

/-- A dyadic number by its numerator and the exponent of its denominator. -/
abbrev scaled (numerator : Int) (places : Nat) : Dyadic := .ofIntWithPrec numerator places

/-- The reciprocal of the natural logarithm of two, in two parts: the products of the first
with other numbers leave small errors. -/
def invLn2High : Dyadic := scaled 3098164009 31
def invLn2Low : Dyadic := scaled 12657236604881 76

/-- What the logarithm of `1 + r` has besides `r / ln 2`, divided by `r ^ 2`, for `r` below
`2 ^ -7` in size; `square` is `r ^ 2`, rounded. -/
def tail (r square : Dyadic) : Dyadic :=
  mulAdd (mul square square)
    (mulAdd r (scaled 3713132112116887 54) (scaled (-2165955400213679) 53))
    (mulAdd square
      (mulAdd r (scaled 649732082919817 51) (scaled (-6497320836280315) 54))
      (mulAdd r (scaled 4331547232371295 53) (scaled (-6497320848556857) 53)))

/-- The first two coefficients of the polynomial close to one. -/
def nearHead (r : Dyadic) : Dyadic :=
  mulAdd r (scaled 8663094464742391 54) (scaled (-3248660424278399) 52)

/-- Its other coefficients, divided by `r ^ 4`. -/
def nearTail (r square fourth : Dyadic) : Dyadic :=
  mulAdd fourth
    (mulAdd square
      (mulAdd r (scaled 2350307374626611 54) (scaled (-1304541182758415) 53))
      (mulAdd r (scaled 2887767071133093 54) (scaled (-6497287952181147) 55)))
    (mulAdd square
      (mulAdd r (scaled 3712754672366491 54) (scaled (-8663094485487589) 55))
      (mulAdd r (scaled 1299464169723641 52) (scaled (-6497320848555071) 54)))

/-- The logarithm of `1 + r` for small `r`. -/
def logNearOne (r : Dyadic) : Dyadic :=
  let square := mul r r
  let fourth := mul square square
  let high := mul r invLn2High
  let low := mulAdd r invLn2Low (mulAdd r invLn2High (-high))
  let sum := mulAdd square (nearHead r) high
  let rest := add low (mulAdd square (nearHead r) (sub high sum))
  add sum (mulAdd fourth (nearTail r square fourth) rest)

/-- The logarithm of `significand * 2 ^ exponent`, where the significand lies in the given
part of the interval from one to two. -/
def logInPart (exponent : Int) (significand : Dyadic) (part : Fin 64) : Dyadic :=
  let point := logPoint part
  let r := mulAdd significand (scaled point.reciprocal 53) (-1)
  let high := mul r invLn2High
  let low := mulAdd r invLn2Low (mulAdd r invLn2High (-high))
  let whole := add exponent (scaled point.logarithm 42)
  let sum := add whole high
  let rest := add (add (sub whole sum) high) low
  let square := mul r r
  add (mulAdd square (tail r square) rest) sum

/-- The ends of the interval around one that does without the table. -/
def nearLow : Dyadic := scaled (0x200000 - 0x15B51) 21
def nearHigh : Dyadic := scaled (0x200000 + 0x16AB2) 21

/-- The binary logarithm of a positive number of 53 significant bits at most. -/
def log2 (x : Dyadic) : Dyadic :=
  if nearLow ≤ x ∧ x < nearHigh then logNearOne (x - 1)
  else
    match x with
    | .zero => 0
    | .ofOdd n k _ =>
      let bits := Nat.log2 n.natAbs
      logInPart (bits - k) (scaled n bits) (Fin.ofNat 64 ((n.natAbs * 64) >>> bits))

end Reckoner.Double
