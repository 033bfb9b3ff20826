/-! Binary floating-point numbers with 53 bits of precision, read from exact decimals and written
with the fewest digits that read back. -/

namespace Bundler.Script

/-- A number that is not negative: `mantissa * 2 ^ exponent`, or beyond all of these. -/
inductive Numeral where
  | finite (mantissa : Nat) (exponent : Int)
  | infinite
  deriving DecidableEq, Repr, Inhabited

namespace Numeral

def zero : Numeral := finite 0 0

/-- The least exponent of a mantissa, that of the smallest positive number. -/
def leastExponent : Int := -1074

def greatestExponent : Int := 971

def mantissaLimit : Nat := Nat.pow 2 53

/-- `num / den` rounded to a whole number, a half going to the even neighbour. -/
def roundDiv (num den : Nat) : Nat :=
  let whole := num / den
  let twice := 2 * (num % den)
  if twice < den then whole
  else if den < twice then whole + 1
  else if whole % 2 == 0 then whole else whole + 1

def scaled (num den : Nat) (exponent : Int) : Nat × Nat :=
  if 0 ≤ exponent then (num, den * Nat.pow 2 exponent.toNat)
  else (num * Nat.pow 2 (-exponent).toNat, den)

def ofRatio (num den : Nat) : Numeral :=
  if num = 0 ∨ den = 0 then zero
  else
    let guess : Int := (Nat.log2 num : Int) - (Nat.log2 den : Int) - 53
    let whole (e : Int) : Nat :=
      let (n, d) := scaled num den e
      n / d
    let fitted :=
      if whole guess < mantissaLimit then guess
      else if whole (guess + 1) < mantissaLimit then guess + 1
      else guess + 2
    let exponent := max fitted leastExponent
    let (n, d) := scaled num den exponent
    let mantissa := roundDiv n d
    let (mantissa, exponent) :=
      if mantissa = mantissaLimit then (mantissaLimit / 2, exponent + 1) else (mantissa, exponent)
    if mantissa = 0 then zero
    else if greatestExponent < exponent then infinite
    else finite mantissa exponent

def ofDecimal (digits : Nat) (exponent : Int) : Numeral :=
  let size := (Nat.toDigits 10 digits).length
  if digits = 0 then zero
  else if 400 < exponent + size then infinite
  else if exponent + size < -400 then zero
  else if 0 ≤ exponent then ofRatio (digits * Nat.pow 10 exponent.toNat) 1
  else ofRatio digits (Nat.pow 10 (-exponent).toNat)

def ratio (mantissa : Nat) (exponent : Int) : Nat × Nat :=
  if 0 ≤ exponent then (mantissa * Nat.pow 2 exponent.toNat, 1)
  else (mantissa, Nat.pow 2 (-exponent).toNat)

/-- The digits of the value on the decimal grid of step `10 ^ place`, nearest first. -/
def onGrid (num den : Nat) (place : Int) : Nat :=
  if 0 ≤ place then roundDiv num (den * Nat.pow 10 place.toNat)
  else roundDiv (num * Nat.pow 10 (-place).toNat) den

/-- The least `place` with `value < 10 ^ place`, found upwards from a first guess. -/
def magnitude (num den : Nat) : Nat → Int → Int
  | 0, place => place
  | rounds + 1, place =>
    let below :=
      if 0 ≤ place then num < den * Nat.pow 10 place.toNat
      else num * Nat.pow 10 (-place).toNat < den
    if below then place else magnitude num den rounds (place + 1)

/-- The digits and the power of ten of the shortest decimal that reads back as the value; among
those of equal length the nearest. -/
def shortestFrom (value : Numeral) (num den : Nat) (top : Int) : Nat → Nat → Nat × Int
  | 0, count => (onGrid num den (top - count), top - count)
  | rounds + 1, count =>
    let place := top - count
    let digits := onGrid num den place
    if ofDecimal digits place = value then (digits, place)
    else shortestFrom value num den top rounds (count + 1)

def stripZeros : Nat → Nat × Int → Nat × Int
  | 0, d => d
  | rounds + 1, (digits, place) =>
    if digits ≠ 0 ∧ digits % 10 = 0 then stripZeros rounds (digits / 10, place + 1)
    else (digits, place)

def shortest (mantissa : Nat) (exponent : Int) : Nat × Int :=
  let (num, den) := ratio mantissa exponent
  let guess : Int := ((Nat.log2 num : Int) - (Nat.log2 den : Int) - 1) * 30103 / 100000 - 1
  let top := magnitude num den 8 guess
  stripZeros 32 (shortestFrom (finite mantissa exponent) num den top 17 1)

private def digitsOf (n : Nat) : List Char := Nat.toDigits 10 n

private def zeros (n : Nat) : List Char := List.replicate n '0'

private def signedDigits (n : Int) : List Char :=
  if n < 0 then '-' :: digitsOf n.natAbs else digitsOf n.natAbs

/-- Positional up to twenty-one digits before the point and six zeros after it, otherwise with an
exponent. -/
def standard (mantissa : Nat) (exponent : Int) : List Char :=
  if mantissa = 0 then ['0']
  else
    let (number, place) := shortest mantissa exponent
    let digits := digitsOf number
    let count : Int := digits.length
    let point := count + place
    if count ≤ point ∧ point ≤ 21 then digits ++ zeros (point - count).toNat
    else if 0 < point ∧ point ≤ 21 then
      digits.take point.toNat ++ '.' :: digits.drop point.toNat
    else if -6 < point ∧ point ≤ 0 then '0' :: '.' :: (zeros (-point).toNat ++ digits)
    else
      let shown := point - 1
      let sign := if shown < 0 then '-' else '+'
      let head := match digits with
        | [] => []
        | [d] => [d]
        | d :: rest => d :: '.' :: rest
      head ++ 'e' :: sign :: digitsOf shown.natAbs

private def trailingZeros (cs : List Char) : Nat := (cs.reverse.takeWhile (· == '0')).length

/-- `0.5` without its first zero, and no plus sign in an exponent. -/
private def trimmed : List Char → List Char
  | '0' :: '.' :: rest => '.' :: rest.filter (· != '+')
  | cs => cs.filter (· != '+')

/-- `.00012` as `12e-5` where that is shorter. -/
private def smallForm (cs : List Char) : List Char :=
  match cs with
  | '.' :: '0' :: rest =>
    let digits := (rest.dropWhile (· == '0'))
    let shown := digits ++ 'e' :: '-' :: digitsOf (cs.length - 1)
    if digits ≠ [] ∧ shown.length < cs.length then shown else cs
  | _ => cs

/-- `12000` as `12e3` where that is shorter. -/
private def roundForm (cs : List Char) : List Char :=
  let count := trailingZeros cs
  let shown := cs.take (cs.length - count) ++ 'e' :: digitsOf count
  if 0 < count ∧ count < cs.length ∧ shown.length < cs.length then shown else cs

/-- `1.5e30` as `15e29` where that is shorter. -/
private def shiftedForm (cs : List Char) : List Char :=
  let whole := cs.takeWhile (· != '.')
  let tail := (cs.dropWhile (· != '.')).drop 1
  let fraction := tail.takeWhile (· != 'e')
  match tail.dropWhile (· != 'e') with
  | 'e' :: power =>
    let value : Int := match power with
      | '-' :: ds => -((String.ofList ds).toNat?.getD 0 : Int)
      | ds => ((String.ofList ds).toNat?.getD 0 : Int)
    let shown := whole ++ fraction ++ 'e' :: signedDigits (value - fraction.length)
    if shown.length < cs.length then shown else cs
  | _ => cs

/-- The spelling of a number in a script: the standard one below a thousand, otherwise the
shortest of the usual forms. -/
def text : Numeral → String
  | infinite => "Infinity"
  | finite mantissa exponent =>
    let (num, den) := ratio mantissa exponent
    let isWhole := num % den = 0
    let plain := standard mantissa exponent
    if isWhole ∧ num / den < 1000 then String.ofList plain
    else
      let short := trimmed plain
      if isWhole then
        let hex := '0' :: 'x' :: Nat.toDigits 16 (num / den)
        if hex.length < short.length then String.ofList hex
        else String.ofList (shiftedForm (roundForm short))
      else String.ofList (shiftedForm (roundForm (smallForm short)))

end Numeral

end Bundler.Script
