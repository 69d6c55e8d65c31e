import StreamEditor.Numeral.Binary

namespace StreamEditor.Binary

def leadingPower (num den : Nat) : Int :=
  let p : Int := ((Nat.toDigits 10 num).length : Int) - (Nat.toDigits 10 den).length
  let (n, d) := scaleRatio 10 num den (-p)
  if n < d then p - 1 else p

def carried (count digits : Nat) (power : Int) : Nat × Int :=
  if digits = Nat.pow 10 count then (Nat.pow 10 (count - 1), power + 1) else (digits, power)

def significant (num den count : Nat) : Nat × Int :=
  let power := leadingPower num den
  let (n, d) := scaleRatio 10 num den (count - 1 - power)
  carried count (roundQuotient n d) power

/-- Of the two decimals of so many digits around a positive number those that read back as it, the
nearer first. -/
def neighbours (x : Binary) (num den count : Nat) : List (Nat × Int) :=
  let power := leadingPower num den
  let (n, d) := scaleRatio 10 num den (count - 1 - power)
  let low := n / d
  let candidates := if roundQuotient n d = low then [low, low + 1] else [low + 1, low]
  (candidates.filter fun digits => ofDecimal false digits (power - (count - 1)) = x).map
    fun digits => carried count digits power

def shortest (mantissa : Nat) (exponent : Int) : Nat × Int :=
  let (num, den) := ratio mantissa exponent
  let x := finite false mantissa exponent
  (((List.range 17).flatMap fun i => neighbours x num den (i + 1)).head?).getD
    (significant num den 17)

def padTo (width : Nat) (digits : Text) : Text :=
  digits ++ List.replicate (width - digits.length) '0'

def orZero (digits : Text) : Text := if digits.isEmpty then ['0'] else digits

def positional (digits : Text) : Int → Text
  | .ofNat p => padTo (p + 1) (digits.take (p + 1)) ++ '.' :: orZero (digits.drop (p + 1))
  | .negSucc p => '0' :: '.' :: List.replicate p '0' ++ digits

def scientific (digits : Text) (power : Int) : Text :=
  let exponent := Text.zeroPadded 2 power.natAbs
  let fraction := if digits.length ≤ 1 then [] else '.' :: digits.drop 1
  digits.take 1 ++ fraction ++ 'e' :: (if power < 0 then '-' else '+') :: exponent

def sign (negative : Bool) : Text := if negative then ['-'] else []

def text : Binary → Text
  | finite negative 0 _ => sign negative ++ "0.0".toList
  | finite negative mantissa exponent =>
    let (digits, power) := shortest mantissa exponent
    let digits := Text.dropTrailing (· = '0') (Text.ofNumber digits)
    sign negative ++
      if -4 ≤ power ∧ power < 16 then positional digits power else scientific digits power
  | infinite negative => sign negative ++ "inf".toList
  | nan => "nan".toList

def places (count : Nat) (mantissa : Nat) (exponent : Int) : Nat :=
  let (n, d) := ratio mantissa exponent
  roundQuotient (n * Nat.pow 10 count) d

def fixed (count : Nat) : Binary → Text
  | finite negative mantissa exponent =>
    let digits := Text.padLeft '0' (count + 1) (Text.ofNumber (places count mantissa exponent))
    let whole := digits.take (digits.length - count)
    let fraction := digits.drop (digits.length - count)
    sign negative ++ whole ++ if count = 0 then [] else '.' :: fraction
  | infinite negative => sign negative ++ "inf".toList
  | nan => "nan".toList

def roundPlaces (count : Nat) : Binary → Binary
  | finite negative mantissa exponent =>
    ofDecimal negative (places count mantissa exponent) (-(count : Int))
  | x => x

def roundDigits (count : Nat) : Binary → Binary
  | finite negative 0 e => finite negative 0 e
  | finite negative mantissa exponent =>
    let (n, d) := ratio mantissa exponent
    let (digits, power) := significant n d count
    ofDecimal negative digits (power - (count - 1))
  | x => x

end StreamEditor.Binary
