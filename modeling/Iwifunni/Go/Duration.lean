/-
Iwifunni/Go/Duration.lean

`time.Duration`: a number of nanoseconds, with `time.ParseDuration` and
`Duration.String`.

A duration text is an optional sign and a sequence of decimal numbers with
units, such as `1h15m30.5s`.  The whole part of a number is exact; its fraction
is scaled in `float64`, so the product is rounded to 53 bits three times
(`roundFloat`) before it is truncated to nanoseconds.
-/
import Mathlib.Data.Nat.Notation
import Mathlib.Data.Nat.Cast.Basic
import Mathlib.Data.Nat.Log
import Iwifunni.Go.Strings

namespace Iwifunni.Go

/-- Nanoseconds. -/
abbrev Duration : Type := Int

namespace Duration

/-! ### Rounding to `float64` -/

/-- `num / den` to the nearest integer, ties to even. -/
def roundHalfEven (num den : ℕ) : ℕ :=
  let q := num / den
  let r := num % den
  if 2 * r < den ∨ (2 * r = den ∧ q % 2 = 0) then q else q + 1

/-- A fraction of naturals, not necessarily reduced. -/
abbrev Frac : Type := ℕ × ℕ

/-- The `float64` nearest to a positive fraction in the normal range. -/
def roundFloat (x : Frac) : Frac :=
  -- the binary exponent that leaves 53 bits before the point
  let up := 53 + Nat.log2 x.2 - Nat.log2 x.1
  let down := Nat.log2 x.1 - (53 + Nat.log2 x.2)
  let num := x.1 * 2 ^ up
  let den := x.2 * 2 ^ down
  -- the quotient has 53 or 54 bits
  if num / den < 2 ^ 53 then (roundHalfEven num den * 2 ^ down, 2 ^ up)
  else (roundHalfEven num (2 * den) * 2 ^ (down + 1), 2 ^ up)

/-- `uint64(float64(f) * (float64(unit) / scale))`. -/
def scaleFraction (f unit scale : ℕ) : ℕ :=
  let ratio := roundFloat (unit, scale)
  let g := roundFloat (f, 1)
  let product := roundFloat (g.1 * ratio.1, g.2 * ratio.2)
  product.1 / product.2

/-! ### Parsing -/

def isDigit (c : Char) : Bool := '0' ≤ c && c ≤ '9'

def digitValue (c : Char) : ℕ := c.toNat - 48

/-- `1 << 63`. -/
def limit : ℕ := 2 ^ 63

/-- `leadingInt`: the leading digits as a number, `none` on overflow. -/
def leadingInt : ℕ → List Char → Option (ℕ × List Char)
  | x, [] => some (x, [])
  | x, c :: cs =>
      if isDigit c then
        if limit / 10 < x then none
        else if limit < x * 10 + digitValue c then none
        else leadingInt (x * 10 + digitValue c) cs
      else some (x, c :: cs)

/-- `leadingFraction`: the leading digits as a fraction `f / scale`; digits past
the precision of 63 bits are dropped. -/
def leadingFraction : ℕ → ℕ → Bool → List Char → ℕ × ℕ × List Char
  | f, scale, _, [] => (f, scale, [])
  | f, scale, beyond, c :: cs =>
      if isDigit c then
        if beyond then leadingFraction f scale true cs
        else if (limit - 1) / 10 < f then leadingFraction f scale true cs
        else if limit < f * 10 + digitValue c then leadingFraction f scale true cs
        else leadingFraction (f * 10 + digitValue c) (scale * 10) false cs
      else (f, scale, c :: cs)

/-- `unitMap`. -/
def unitOf (u : List Char) : Option ℕ :=
  if u = ['n', 's'] then some 1
  else if u = ['u', 's'] ∨ u = ['µ', 's'] ∨ u = ['μ', 's'] then some 1000
  else if u = ['m', 's'] then some 1000000
  else if u = ['s'] then some 1000000000
  else if u = ['m'] then some 60000000000
  else if u = ['h'] then some 3600000000000
  else none

/-- One number with its unit, in nanoseconds, and the rest of the text. -/
def parseTerm (cs : List Char) : Option (ℕ × List Char) := do
  let c ← cs.head?
  if !(c == '.' || isDigit c) then none
  let (v, rest) ← leadingInt 0 cs
  let pre := rest.length != cs.length
  let (f, scale, rest', post) := match rest with
    | '.' :: rest' =>
        let r := leadingFraction 0 1 false rest'
        (r.1, r.2.1, r.2.2, r.2.2.length != rest'.length)
    | _ => (0, 1, rest, false)
  if !pre && !post then none
  let name := rest'.takeWhile fun c => !(c == '.' || isDigit c)
  let unit ← unitOf name
  if limit / unit < v then none
  let v := v * unit + (if 0 < f then scaleFraction f unit scale else 0)
  if limit < v then none
  return (v, rest'.drop name.length)

/-- The terms of a duration text, added up as `uint64`: two terms of `limit` are
no nanoseconds at all.  Every term takes at least one character, so as many
rounds as there are characters are enough. -/
def parseTerms : ℕ → ℕ → List Char → Option ℕ
  | _, d, [] => some d
  | 0, _, _ :: _ => none
  | fuel + 1, d, c :: cs => do
      let (v, rest) ← parseTerm (c :: cs)
      let d := (d + v) % 2 ^ 64
      if limit < d then none
      parseTerms fuel d rest

/-- `time.ParseDuration`. -/
def parse (s : String) : Option Duration :=
  let cs := s.toList
  let neg := cs.head? = some '-'
  let cs := if cs.head? = some '-' ∨ cs.head? = some '+' then cs.tail else cs
  if cs = ['0'] then some 0
  else if cs = [] then none
  else do
    let d ← parseTerms cs.length 0 cs
    if neg then some (-(d : Int))
    else if limit - 1 < d then none
    else some (d : Int)

/-! ### Printing -/

/-- `v` with its last `prec` digits after a point, trailing zeros dropped, and
the whole part left of the point. -/
def fmtFrac (v prec : ℕ) : List Char × ℕ :=
  let digits := (List.range prec).reverse.map fun i => v / 10 ^ i % 10
  let kept := (digits.reverse.dropWhile (· == 0)).reverse
  (if kept.isEmpty then [] else '.' :: kept.map fun d => Char.ofNat (48 + d), v / 10 ^ prec)

/-- `Duration.String`. -/
def toString (d : Duration) : String :=
  let u := d.natAbs
  let sign := if d < 0 then "-" else ""
  let small (prec : ℕ) (unit : String) :=
    let r := fmtFrac u prec
    sign ++ Nat.repr r.2 ++ String.ofList r.1 ++ unit
  if u = 0 then "0s"
  else if u < 1000 then small 0 "ns"
  else if u < 1000000 then small 3 "µs"
  else if u < 1000000000 then small 6 "ms"
  else
    let r := fmtFrac u 9
    let seconds := Nat.repr (r.2 % 60) ++ String.ofList r.1 ++ "s"
    let minutes := r.2 / 60
    if minutes = 0 then sign ++ seconds
    else if minutes / 60 = 0 then sign ++ Nat.repr minutes ++ "m" ++ seconds
    else sign ++ Nat.repr (minutes / 60) ++ "h" ++ Nat.repr (minutes % 60) ++ "m" ++ seconds

example : parse "-1h0.5m" = some (-3630000000000) := by decide

example : parse "9223372036854775808ns9223372036854775808ns5m" = some 300000000000 := by decide

end Duration

end Iwifunni.Go
