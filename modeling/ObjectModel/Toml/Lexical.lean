import ObjectModel.Toml.Syntax

/-!
The lexical level of configuration documents: which characters may occur at all, blanks and
comments, the parts of keys, and the four kinds of strings. A reader takes the characters at hand
and gives what it read with the characters that follow, or nothing when they are malformed.
-/

namespace ObjectModel.Toml

abbrev Chars := List Char

def encodeChars (cs : Chars) : Text := cs.flatMap fun c => Text.encodeScalar c.toNat

def decodeChars (t : Text) : Option Chars :=
  (Text.pieces t).mapM fun
    | .scalar code => some (Char.ofNat code)
    | .stray _ => none

def skipByteOrderMark : Text → Text
  | 0xEF :: 0xBB :: 0xBF :: rest => rest
  | 0xFF :: 0xFE :: rest => rest
  | 0xFE :: 0xFF :: rest => rest
  | t => t

def isBlank (c : Char) : Bool := c == ' ' || c == '\t'

def isNewline (c : Char) : Bool := c == '\n' || c == '\r'

/-- No control characters but tabs and line ends, and a carriage return only as part of one. -/
def isClean : Chars → Bool
  | [] => true
  | '\r' :: '\n' :: rest => isClean rest
  | c :: rest => (0x20 ≤ c.toNat && c.toNat != 0x7F || c == '\t' || c == '\n') && isClean rest

def skipBlanks (cs : Chars) : Chars := cs.dropWhile isBlank

def skipFiller (inComment : Bool) : Chars → Chars
  | [] => []
  | c :: rest =>
    if inComment then skipFiller (!isNewline c) rest
    else if isBlank c || isNewline c then skipFiller false rest
    else if c == '#' then skipFiller true rest
    else c :: rest

/-- The end of a statement: blanks and a comment, then a line end or the end of the document. -/
def endLine (cs : Chars) : Option Chars :=
  match skipBlanks cs with
  | [] => some []
  | '#' :: rest => some (rest.dropWhile fun c => !isNewline c)
  | c :: rest => if isNewline c then some rest else none

def hexDigit (c : Char) : Option Nat :=
  if c.isDigit then some (c.toNat - 0x30)
  else if 'a' ≤ c && c ≤ 'f' then some (c.toNat - 0x61 + 10)
  else if 'A' ≤ c && c ≤ 'F' then some (c.toNat - 0x41 + 10)
  else none

def readCode (width : Nat) (cs : Chars) : Option (Char × Chars) := do
  let digits ← (cs.take width).mapM hexDigit
  let code := digits.foldl (fun n d => 16 * n + d) 0
  if digits.length = width ∧ Text.isScalarValue code then
    return (Char.ofNat code, cs.drop width)
  none

def readEscape : Chars → Option (Char × Chars)
  | 'b' :: rest => some ('\x08', rest)
  | 't' :: rest => some ('\t', rest)
  | 'n' :: rest => some ('\n', rest)
  | 'f' :: rest => some ('\x0c', rest)
  | 'r' :: rest => some ('\r', rest)
  | 'e' :: rest => some ('\x1b', rest)
  | '"' :: rest => some ('"', rest)
  | '\\' :: rest => some ('\\', rest)
  | 'x' :: rest => readCode 2 rest
  | 'u' :: rest => readCode 4 rest
  | 'U' :: rest => readCode 8 rest
  | _ => none

def readBasic : (fuel : Nat) → Chars → Chars → Option (Text × Chars)
  | 0, _, _ => none
  | _ + 1, _, [] => none
  | _ + 1, out, '"' :: rest => some (encodeChars out.reverse, rest)
  | fuel + 1, out, '\\' :: rest => do
    let (c, rest) ← readEscape rest
    readBasic fuel (c :: out) rest
  | fuel + 1, out, c :: rest => if isNewline c then none else readBasic fuel (c :: out) rest

def readLiteral : Chars → Chars → Option (Text × Chars)
  | _, [] => none
  | out, c :: rest =>
    if c == '\'' then some (encodeChars out.reverse, rest)
    else if isNewline c then none
    else readLiteral (c :: out) rest

/-- A line end straight after the opening quotes of a long string is not part of it. -/
def skipFirstNewline : Chars → Chars
  | '\r' :: '\n' :: rest => rest
  | '\n' :: rest => rest
  | cs => cs

/-- What stands at the end of a long string so far: how many quotes, and whether a backslash comes
before them. -/
structure Trail where
  quotes : Nat := 0
  escaped : Bool := false

def Trail.tooMany (t : Trail) : Bool := 2 ≤ t.quotes && !(t.quotes == 2 && t.escaped)

def Trail.quote (t : Trail) : Trail := { t with quotes := t.quotes + 1 }

/-- A long string in double quotes, after its opening quotes. A backslash before blanks and line
ends joins lines. The string ends with the last three of at most five quotes. -/
def readLongBasic : (fuel : Nat) → Trail → Chars → Chars → Option (Text × Chars)
  | 0, _, _, _ => none
  | _ + 1, _, _, [] => none
  | fuel + 1, trail, out, '"' :: rest =>
    match rest with
    | '"' :: '"' :: '"' :: _ =>
      if trail.tooMany then none else readLongBasic fuel trail.quote ('"' :: out) rest
    | '"' :: '"' :: rest => some (encodeChars out.reverse, rest)
    | _ => readLongBasic fuel trail.quote ('"' :: out) rest
  | fuel + 1, _, out, '\\' :: rest =>
    let (gap, following) := rest.span fun c => isBlank c || isNewline c
    if gap.isEmpty then do
      let (c, following) ← readEscape rest
      let trail : Trail := ⟨if c == '"' && rest.head? == some c then 1 else 0,
        rest.head? == some '"' || rest.head? == some '\\'⟩
      readLongBasic fuel trail (c :: out) following
    else if gap.contains '\n' then readLongBasic fuel {} out following
    else none
  | fuel + 1, _, out, c :: rest => readLongBasic fuel {} (c :: out) rest

def readLongLiteral : (quotes : Nat) → Chars → Chars → Option (Text × Chars)
  | _, _, [] => none
  | quotes, out, c :: rest =>
    if c == '\'' then
      match rest with
      | '\'' :: '\'' :: '\'' :: _ =>
        if 2 ≤ quotes then none else readLongLiteral (quotes + 1) (c :: out) rest
      | '\'' :: '\'' :: rest => some (encodeChars out.reverse, rest)
      | _ => readLongLiteral (quotes + 1) (c :: out) rest
    else readLongLiteral 0 (c :: out) rest

def isBareChar (c : Char) : Bool := c.isAlphanum || c == '_' || c == '-'

def readPart (cs : Chars) : Option (Text × Chars) :=
  match cs with
  | '"' :: rest => readBasic (rest.length + 1) [] rest
  | '\'' :: rest => readLiteral [] rest
  | _ =>
    let (part, rest) := cs.span isBareChar
    if part.isEmpty then none else some (encodeChars part, rest)

def readKey : (fuel : Nat) → Key → Chars → Option (Key × Chars)
  | 0, _, _ => none
  | fuel + 1, parts, cs => do
    let (part, rest) ← readPart (skipBlanks cs)
    match skipBlanks rest with
    | '.' :: rest => readKey fuel (part :: parts) rest
    | rest => some ((part :: parts).reverse, rest)

def readString (cs : Chars) : Option (Text × Chars) :=
  match cs with
  | '"' :: '"' :: '"' :: rest =>
    readLongBasic (rest.length + 1) {} [] (skipFirstNewline rest)
  | '"' :: rest => readBasic (rest.length + 1) [] rest
  | '\'' :: '\'' :: '\'' :: rest =>
    readLongLiteral 0 [] (skipFirstNewline rest)
  | '\'' :: rest => readLiteral [] rest
  | _ => none

end ObjectModel.Toml
