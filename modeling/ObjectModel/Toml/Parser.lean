import ObjectModel.Toml.Scalar

/-!
Reading configuration documents. Arrays and inline tables may run over several lines, hold comments
and end with a comma. The fuel of the readers counts characters: no two steps go by without using
one up.
-/

namespace ObjectModel.Toml

mutual

def readValue : (fuel : Nat) → Chars → Option (Expr × Chars)
  | 0, _ => none
  | fuel + 1, cs =>
    match cs with
    | '[' :: rest => readItems fuel [] rest
    | '{' :: rest => readEntries fuel [] rest
    | '"' :: _ | '\'' :: _ => (readString cs).map fun (t, rest) => (.text t, rest)
    | _ => readScalar cs

def readItems : (fuel : Nat) → List Expr → Chars → Option (Expr × Chars)
  | 0, _, _ => none
  | fuel + 1, items, cs =>
    match skipFiller false cs with
    | ']' :: rest => some (.array items.reverse, rest)
    | cs => do
      let (item, rest) ← readValue fuel cs
      match skipFiller false rest with
      | ',' :: rest => readItems fuel (item :: items) rest
      | ']' :: rest => some (.array (item :: items).reverse, rest)
      | _ => none

def readEntries : (fuel : Nat) → List (Key × Expr) → Chars → Option (Expr × Chars)
  | 0, _, _ => none
  | fuel + 1, entries, cs =>
    match skipFiller false cs with
    | '}' :: rest => some (.table entries.reverse, rest)
    | cs => do
      let (entry, rest) ← readAssignment fuel cs
      match skipFiller false rest with
      | ',' :: rest => readEntries fuel (entry :: entries) rest
      | '}' :: rest => some (.table (entry :: entries).reverse, rest)
      | _ => none

/-- A key, an equals sign and a value that begins on the same line. -/
def readAssignment : (fuel : Nat) → Chars → Option ((Key × Expr) × Chars)
  | 0, _ => none
  | fuel + 1, cs => do
    let (key, rest) ← readKey fuel [] cs
    let '=' :: rest := rest | none
    let (value, rest) ← readValue fuel (skipBlanks rest)
    return ((key, value), rest)

end

def readStatement (fuel : Nat) (cs : Chars) : Option (Statement × Chars) := do
  let (statement, rest) ←
    match cs with
    | '[' :: '[' :: cs => do
      let (key, rest) ← readKey fuel [] cs
      let ']' :: ']' :: rest := rest | none
      pure (Statement.arrayHeader key, rest)
    | '[' :: cs => do
      let (key, rest) ← readKey fuel [] cs
      let ']' :: rest := rest | none
      pure (Statement.header key, rest)
    | _ => do
      let ((key, value), rest) ← readAssignment (2 * fuel + 2) cs
      pure (Statement.assign key value, rest)
  return (statement, ← endLine rest)

def readStatements : (fuel : Nat) → List Statement → Chars → Option (List Statement)
  | 0, _, _ => none
  | fuel + 1, statements, cs =>
    match skipFiller false cs with
    | [] => some statements.reverse
    | cs => do
      let (statement, rest) ← readStatement fuel cs
      readStatements fuel (statement :: statements) rest

def parse (t : Text) : Option (List Statement) := do
  let cs ← decodeChars (skipByteOrderMark t)
  if isClean cs then readStatements (cs.length + 1) [] cs else none

end ObjectModel.Toml
