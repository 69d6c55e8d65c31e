import StreamEditor.Text.Basic

/-!
Numbers with 53 binary digits and an exponent of their own: every operation is the exact one, rounded
to the nearest number, a half to the even one.
-/

namespace StreamEditor

def roundQuotient (num den : Nat) : Nat :=
  let q := num / den
  let r := num % den
  if 2 * r < den ∨ (2 * r = den ∧ q % 2 = 0) then q else q + 1

def scaleRatio (base num den : Nat) (power : Int) : Nat × Nat :=
  match power with
  | .ofNat p => (num * Nat.pow base p, den)
  | .negSucc p => (num, den * Nat.pow base (p + 1))

inductive Binary where
  | finite (negative : Bool) (mantissa : Nat) (exponent : Int)
  | infinite (negative : Bool)
  | nan
  deriving DecidableEq, Repr

namespace Binary

def zero : Binary := finite false 0 0

def precision : Nat := 53

def leastExponent : Int := -1074

def greatestExponent : Int := 971

def pack (negative : Bool) (mantissa : Nat) (exponent : Int) : Binary :=
  if mantissa = 0 then finite negative 0 0
  else if mantissa = Nat.pow 2 precision then
    if greatestExponent < exponent + 1 then infinite negative
    else finite negative (Nat.pow 2 (precision - 1)) (exponent + 1)
  else if greatestExponent < exponent then infinite negative
  else finite negative mantissa exponent

def ratioExponent (num den : Nat) : Int :=
  let e : Int := (Nat.log2 num : Int) - Nat.log2 den - (precision - 1)
  let (n, d) := scaleRatio 2 num den (-e)
  max leastExponent (if n < d * Nat.pow 2 (precision - 1) then e - 1 else e)

def ofRatio (negative : Bool) (num den : Nat) : Binary :=
  if num = 0 then finite negative 0 0
  else
    let e := ratioExponent num den
    let (n, d) := scaleRatio 2 num den (-e)
    pack negative (roundQuotient n d) e

def ofDecimal (negative : Bool) (digits : Nat) (power : Int) : Binary :=
  let (n, d) := scaleRatio 10 digits 1 power
  ofRatio negative n d

def ofInteger (n : Int) : Binary := ofRatio (n < 0) n.natAbs 1

def ratio (mantissa : Nat) (exponent : Int) : Nat × Nat := scaleRatio 2 mantissa 1 exponent

def value? : Binary → Option (Int × Nat)
  | finite negative m e =>
    let (n, d) := ratio m e
    some (if negative then -(n : Int) else n, d)
  | _ => none

def ofSigned (num : Int) (den : Nat) : Binary := ofRatio (num < 0) num.natAbs den

def add (x y : Binary) : Binary :=
  match x.value?, y.value? with
  | some (a, b), some (c, d) => ofSigned (a * d + c * b) (b * d)
  | _, _ => nan

def neg : Binary → Binary
  | finite negative m e => finite (!negative) m e
  | infinite negative => infinite (!negative)
  | nan => nan

def sub (x y : Binary) : Binary := x.add y.neg

def divNat (x : Binary) (n : Nat) : Binary :=
  match x.value? with
  | some (a, b) => ofSigned a (b * n)
  | none => nan

def mean (xs : List Binary) : Binary := (xs.foldl add zero).divNat xs.length

def mulNat (x : Binary) (n : Nat) : Binary :=
  match x.value? with
  | some (a, b) => ofSigned (a * n) b
  | none => nan

def less (x y : Binary) : Bool :=
  match x, y with
  | nan, _ | _, nan => false
  | infinite a, infinite b => a && !b
  | infinite a, _ => a
  | _, infinite b => !b
  | x, y =>
    match x.value?, y.value? with
    | some (a, b), some (c, d) => a * d < c * b
    | _, _ => false

def takeSign : Text → Bool × Text
  | '-' :: t => (true, t)
  | '+' :: t => (false, t)
  | t => (false, t)

def readExponent : Text → Option Int
  | [] => some 0
  | c :: t =>
    if c = 'e' ∨ c = 'E' then
      let (negative, digits) := takeSign t
      if digits.isEmpty || !digits.all Text.isAsciiDigit then none
      else some (if negative then -(Text.toNumber digits : Int) else Text.toNumber digits)
    else none

def readDecimal (t : Text) : Option (Nat × Int) :=
  let whole := t.takeWhile Text.isAsciiDigit
  let rest := t.dropWhile Text.isAsciiDigit
  let (fraction, rest) :=
    match rest with
    | '.' :: rest => (rest.takeWhile Text.isAsciiDigit, rest.dropWhile Text.isAsciiDigit)
    | rest => ([], rest)
  if whole.isEmpty && fraction.isEmpty then none
  else (readExponent rest).map fun e => (Text.toNumber (whole ++ fraction), e - fraction.length)

def ofText? (t : Text) : Option Binary :=
  let (negative, t) := takeSign t
  if t = "inf".toList then some (infinite negative)
  else if t = "nan".toList then some nan
  else (readDecimal t).map fun (digits, power) => ofDecimal negative digits power

end Binary

end StreamEditor
