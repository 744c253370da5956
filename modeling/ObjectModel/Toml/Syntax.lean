import ObjectModel.Text.Utf8

/-!
The syntax of configuration documents. A document is a list of statements: table headers, headers
of arrays of tables, and assignments. Keys have one or more parts. Floats and moments in time are
recognised, but no setting uses them, so their values are not kept.
-/

namespace ObjectModel.Toml

/-- A key: its parts, outermost first. -/
abbrev Key := List Text

inductive Expr where
  | text (value : Text)
  | integer (value : Int)
  | boolean (value : Bool)
  | float
  | moment
  | array (items : List Expr)
  | table (entries : List (Key × Expr))

inductive Statement where
  | header (key : Key)
  | arrayHeader (key : Key)
  | assign (key : Key) (value : Expr)

def isBarePart (part : Text) : Bool :=
  !part.isEmpty && part.all fun b =>
    (0x30 ≤ b && b ≤ 0x39) || (0x41 ≤ b && b ≤ 0x5A) || (0x61 ≤ b && b ≤ 0x7A)
      || b == 0x5F || b == 0x2D

def quoteByte (b : UInt8) : Text :=
  match b with
  | 0x22 => "\\\""
  | 0x5C => "\\\\"
  | 0x08 => "\\b"
  | 0x09 => "\\t"
  | 0x0A => "\\n"
  | 0x0C => "\\f"
  | 0x0D => "\\r"
  | b => if b < 0x20 || b == 0x7F then Text.ofString "\\u" ++ Text.paddedHex 4 b.toNat else [b]

def renderPart (part : Text) : Text :=
  if isBarePart part then part else 0x22 :: part.flatMap quoteByte ++ [0x22]

/-- A key in dotted form; parts that are not bare are quoted. -/
def renderKey (key : Key) : Text := [0x2E].intercalate (key.map renderPart)

end ObjectModel.Toml
