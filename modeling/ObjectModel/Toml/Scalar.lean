import ObjectModel.Toml.Lexical
import ObjectModel.Text.Numeral

/-!
Numbers and moments in time. Underscores may stand between digits; a decimal integer has no
superfluous zero and fits in 64 signed bits; a float must not overflow a double. Moments are dates,
times of day, or both, and only a moment with both may have an offset.
-/

namespace ObjectModel.Toml

def isHexChar (c : Char) : Bool := (hexDigit c).isSome

/-- Every underscore follows a digit, and the last character is a digit. -/
def underscoresFit (cs : Chars) : Bool :=
  go false cs
where
  go (afterDigit : Bool) : Chars → Bool
    | [] => afterDigit
    | c :: rest => (c != '_' || afterDigit) && go (isHexChar c) rest

def hasLeadingZero : Chars → Bool
  | '0' :: c :: _ => !(c == 'b' || c == 'o' || c == 'x')
  | '+' :: '0' :: _ :: _ | '-' :: '0' :: _ :: _ => true
  | _ => false

def readInteger (token : Chars) : Option Expr :=
  if underscoresFit token && !hasLeadingZero token then
    match Text.readInteger (encodeChars token) with
    | .ok n => some (.integer n)
    | .error _ => none
  else none

def decimalValue (digits : Chars) : Nat := digits.foldl (fun n c => 10 * n + (c.toNat - 0x30)) 0

/-- The value of the digits of an exponent. Digits after a value of 10000 or more are passed over:
such an exponent is far beyond any that a mantissa of ordinary length can balance. -/
def exponentValue (digits : Chars) : Nat :=
  digits.foldl (fun n c => if n < 10000 then 10 * n + (c.toNat - 0x30) else n) 0

/-- Does `digits * 10 ^ scale` round to a double beyond all finite ones? -/
def overflows (digits : Nat) (scale : Int) : Bool :=
  let limit := Nat.pow 2 1024 - Nat.pow 2 970
  let size : Int := (Nat.toDigits 10 digits).length + scale
  if digits = 0 ∨ size < 300 then false
  else if 310 < size then true
  else if 0 ≤ scale then limit ≤ digits * Nat.pow 10 scale.toNat
  else limit * Nat.pow 10 (-scale).toNat ≤ digits

def splitSign : Chars → Bool × Chars
  | '-' :: rest => (true, rest)
  | '+' :: rest => (false, rest)
  | cs => (false, cs)

def isDigits (cs : Chars) : Bool := underscoresFit cs && cs.all fun c => c.isDigit || c == '_'

def isFloat (token : Chars) : Bool :=
  let (mantissa, rest) := (splitSign token).2.span fun c => c != 'e' && c != 'E'
  let (whole, rest') := mantissa.span (· != '.')
  let plain (cs : Chars) : Chars := cs.filter (· != '_')
  let fraction := plain (rest'.drop 1)
  let (negative, exponent) := splitSign (rest.drop 1)
  let magnitude : Int := exponentValue (plain exponent)
  let scale := if rest.isEmpty then 0 else if negative then -magnitude else magnitude
  isDigits whole && !hasLeadingZero whole
    && (rest'.isEmpty || isDigits (rest'.drop 1))
    && (rest.isEmpty || isDigits exponent)
    && !overflows (decimalValue (plain whole ++ fraction)) (scale - fraction.length)

def readFloat (token : Chars) : Option Expr := if isFloat token then some .float else none

def readTwo : Chars → Option (Nat × Chars)
  | a :: b :: rest => if a.isDigit && b.isDigit then some (decimalValue [a, b], rest) else none
  | _ => none

def isLeapYear (year : Nat) : Bool := year % 4 == 0 && (year % 100 != 0 || year % 400 == 0)

def daysInMonth (year month : Nat) : Nat :=
  match month with
  | 2 => if isLeapYear year then 29 else 28
  | 4 | 6 | 9 | 11 => 30
  | _ => 31

def readDate (cs : Chars) : Option Chars := do
  let (century, cs) ← readTwo cs
  let (rest, cs) ← readTwo cs
  let '-' :: cs := cs | none
  let (month, cs) ← readTwo cs
  let '-' :: cs := cs | none
  let (day, cs) ← readTwo cs
  if 1 ≤ month ∧ month ≤ 12 ∧ 1 ≤ day ∧ day ≤ daysInMonth (100 * century + rest) month then
    return cs
  none

/-- A time of day; seconds and their fraction may be left out. -/
def readTime (cs : Chars) : Option Chars := do
  let (hour, cs) ← readTwo cs
  let ':' :: cs := cs | none
  let (minute, cs) ← readTwo cs
  if 24 ≤ hour ∨ 60 ≤ minute then none
  let ':' :: afterColon := cs | return cs
  let (second, cs) ← readTwo afterColon
  if 60 ≤ second then none
  let '.' :: fraction := cs | return cs
  let (digits, rest) := fraction.span Char.isDigit
  if digits.isEmpty then none else return rest

def isOffset : Chars → Bool
  | ['Z'] => true
  | sign :: rest =>
    (sign == '+' || sign == '-') && (do
      let (hour, cs) ← readTwo rest
      let ':' :: cs := cs | none
      let (minute, cs) ← readTwo cs
      return hour ≤ 24 && minute ≤ 60 && cs.isEmpty).getD false
  | [] => false

/-- Is the token a moment? The marks between date and time and for universal time have several
spellings. -/
def isMoment (token : Chars) : Bool :=
  let spelled := token.map fun c =>
    if c == 't' || c == ' ' then 'T' else if c == 'z' then 'Z' else c
  match readDate spelled with
  | some [] => true
  | some ('T' :: rest) =>
    match readTime rest with
    | some [] => true
    | some offset => isOffset offset
    | none => false
  | _ => readTime spelled == some []

def readMoment (token : Chars) : Option Expr := if isMoment token then some .moment else none

def isMomentChar (c : Char) : Bool :=
  c.isDigit || ['-', ':', 'T', 't', ' ', '.', 'Z', 'z', '+'].contains c

def isFloatChar (c : Char) : Bool := c.isDigit || ['_', '.', '-', '+', 'e', 'E'].contains c

def withToken (belongs : Char → Bool) (read : Chars → Option Expr) (cs : Chars) :
    Option (Expr × Chars) := do
  let (token, rest) := cs.span belongs
  return (← read token, rest)

def dropTrailingBlanks (cs : Chars) : Chars := (cs.reverse.dropWhile isBlank).reverse

def readBased (mark : Char) (isDigit : Char → Bool) (cs : Chars) : Option (Expr × Chars) :=
  match cs with
  | c :: _ =>
    if isDigit c then
      withToken (fun c => isDigit c || c == '_')
        (fun token => readInteger ('0' :: mark :: token)) cs
    else none
  | [] => none

def readDecimal (sign : Chars) (cs : Chars) : Option (Expr × Chars) :=
  let (_, rest) := cs.span fun c => c.isDigit || c == '_'
  match rest with
  | '.' :: _ | 'e' :: _ | 'E' :: _ =>
    withToken isFloatChar (fun token => readFloat (sign ++ token)) cs
  | _ => withToken (fun c => c.isDigit || c == '_') (fun token => readInteger (sign ++ token)) cs

def readSigned (sign : Char) : Chars → Option (Expr × Chars)
  | 'i' :: 'n' :: 'f' :: rest | 'n' :: 'a' :: 'n' :: rest => some (.float, rest)
  | c :: rest => if c.isDigit then readDecimal [sign] (c :: rest) else none
  | [] => none

def readNumber (cs : Chars) : Option (Expr × Chars) :=
  let (digits, rest) := cs.span Char.isDigit
  match digits, rest with
  | ['0'], 'b' :: rest => readBased 'b' (fun c => c == '0' || c == '1') rest
  | ['0'], 'o' :: rest => readBased 'o' (fun c => '0' ≤ c && c ≤ '7') rest
  | ['0'], 'x' :: rest => readBased 'x' isHexChar rest
  | _, '-' :: _ | _, ':' :: _ =>
    withToken isMomentChar (fun token => readMoment (dropTrailingBlanks token)) cs
  | _, _ => readDecimal [] cs

def readScalar (cs : Chars) : Option (Expr × Chars) :=
  match cs with
  | 't' :: 'r' :: 'u' :: 'e' :: rest => some (.boolean true, rest)
  | 'f' :: 'a' :: 'l' :: 's' :: 'e' :: rest => some (.boolean false, rest)
  | 'i' :: 'n' :: 'f' :: rest | 'n' :: 'a' :: 'n' :: rest => some (.float, rest)
  | '+' :: rest => readSigned '+' rest
  | '-' :: rest => readSigned '-' rest
  | c :: rest => if c.isDigit then readNumber (c :: rest) else none
  | [] => none

end ObjectModel.Toml
