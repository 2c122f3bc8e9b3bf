/-
Module: Imprint.Json.Numeral
Purpose: Number texts of JSON and the numbers they denote. A text without point and exponent is an
  integer when it fits 64 bits. Every other one is read by collecting a significand below 2⁶⁴,
  dropping the digits that no longer fit, and multiplying or dividing it by a power of ten in
  floating point, so that very long texts can be one step away from the nearest number.
Main exports: Numeral, Numeral.ofChars?, Numeral.number?
-/
import Imprint.Json

namespace Imprint

/-- The parts of a number text: its digits before and after the point and its exponent. -/
structure Numeral where
  negative : Bool
  whole : List Nat
  fraction : List Nat
  exponent : Option Int
deriving DecidableEq, Repr

namespace Numeral

/-! ### Reading the parts -/

/-- The value of a decimal digit. -/
def digit? (c : Char) : Option Nat :=
  if c.isDigit then some (c.toNat - '0'.toNat) else none

/-- The digits at the front of a text, and what follows them. -/
def takeDigits : List Char → List Nat × List Char
  | [] => ([], [])
  | c :: rest =>
      match digit? c with
      | some d => let (digits, after) := takeDigits rest; (d :: digits, after)
      | none => ([], c :: rest)

/-- The number that digits denote, the most significant first. -/
def digitsValue (digits : List Nat) : Nat := digits.foldl (fun value d => 10 * value + d) 0

/-- Digits before the point: at least one, and a zero only alone. -/
def isWhole : List Nat → Bool
  | [] => false
  | [_] => true
  | first :: _ => first != 0

/-- The digits after a point, if there is one; a point needs a digit. -/
def takeFraction? : List Char → Option (List Nat × List Char)
  | '.' :: rest =>
      match takeDigits rest with
      | ([], _) => none
      | found => some found
  | rest => some ([], rest)

/-- An optional sign, and what follows it. -/
def takeSign : List Char → Bool × List Char
  | '-' :: rest => (true, rest)
  | '+' :: rest => (false, rest)
  | rest => (false, rest)

/-- The exponent at the end of a text, if there is one; its mark needs a digit. -/
def exponentOf? : List Char → Option (Option Int)
  | [] => some none
  | mark :: rest =>
      if mark = 'e' ∨ mark = 'E' then
        let (negative, rest) := takeSign rest
        match takeDigits rest with
        | (digit :: digits, []) =>
            let size : Int := digitsValue (digit :: digits)
            some (some (if negative then -size else size))
        | _ => none
      else
        none

/-- The parts of a complete number text, or nothing when it is not one. -/
def ofChars? (cs : List Char) : Option Numeral :=
  let (negative, cs) :=
    match cs with
    | '-' :: rest => (true, rest)
    | _ => (false, cs)
  let (whole, cs) := takeDigits cs
  if isWhole whole then
    match takeFraction? cs with
    | none => none
    | some (fraction, cs) =>
        match exponentOf? cs with
        | none => none
        | some exponent => some ⟨negative, whole, fraction, exponent⟩
  else
    none

/-! ### The number -/

/-- The bound on integers and significands. -/
def wordLimit : Nat := UInt64.size

/-- Take digits into a significand while it stays below the limit; the digits that are left. -/
def absorb : Nat → List Nat → Nat × List Nat
  | significand, [] => (significand, [])
  | significand, d :: rest =>
      if 10 * significand + d < wordLimit then absorb (10 * significand + d) rest
      else (significand, d :: rest)

/-- The highest power of ten that is applied in one step. -/
def highestPower : Nat := 308

/-- A significand times a power of ten, nothing when it is too large for a finite number. -/
def scaleUp? (significand power : Nat) : Option Binary64 :=
  if power ≤ highestPower then
    let product := (Binary64.ofNat significand).mul (Binary64.powerOfTen power)
    if product.isFinite then some product else none
  else if significand = 0 then
    some Binary64.zero
  else
    none

/-- A significand divided by a power of ten, in at most two steps. -/
def scaleDown (significand power : Nat) : Binary64 :=
  let value := Binary64.ofNat significand
  if power ≤ highestPower then
    value.div (Binary64.powerOfTen power)
  else if power ≤ 2 * highestPower then
    (value.div (Binary64.powerOfTen highestPower)).div
      (Binary64.powerOfTen (power - highestPower))
  else
    Binary64.zero

/-- The floating point number of a significand and a power of ten. -/
def scaled? (negative : Bool) (significand : Nat) (power : Int) : Option Binary64 :=
  let magnitude :=
    match power with
    | .ofNat up => scaleUp? significand up
    | .negSucc down => some (scaleDown significand (down + 1))
  magnitude.map fun value => if negative then value.neg else value

/-- An integer of 64 bits, or the floating point number of one that has none: minus zero, and what
lies below the least signed one. -/
def wholeNumber (negative : Bool) (magnitude : Nat) : Number :=
  if negative then
    if magnitude = 0 ∨ Nat.pow 2 63 < magnitude then .real (Binary64.ofNat magnitude).neg
    else .whole (-magnitude)
  else
    .whole magnitude

/-- The number of a number text; nothing when it exceeds every finite number. -/
def number? (n : Numeral) : Option Number :=
  let (significand, dropped) := absorb 0 n.whole
  if dropped.isEmpty && n.fraction.isEmpty && n.exponent.isNone then
    some (wholeNumber n.negative significand)
  else
    let (significand, ignored) := absorb significand n.fraction
    let places : Int := (n.fraction.length - ignored.length : Nat)
    let power : Int := dropped.length - places + n.exponent.getD 0
    (scaled? n.negative significand power).map .real

end Numeral

end Imprint
