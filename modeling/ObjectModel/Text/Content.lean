import ObjectModel.Text.Basic

/-!
The contents of strings. Contents are pieces of text, or two contents joined; the parts of a join
are shared and not copied, so contents can be far longer than the text that they were built from. A
join records its length, and a position is looked up by going down to the piece that holds it.
-/

namespace ObjectModel

/-- Pieces of text put together, with a length recorded at every join. -/
inductive Rope where
  | piece (text : Text)
  | join (length : Nat) (left right : Rope)
deriving DecidableEq, Repr

namespace Rope

def text : Rope → Text
  | .piece t => t
  | .join _ left right => left.text ++ right.text

def length : Rope → Nat
  | .piece t => t.length
  | .join n _ _ => n

/-- Every join records the length of its two parts together. -/
def Measured : Rope → Prop
  | .piece _ => True
  | .join n left right => left.Measured ∧ right.Measured ∧ n = left.length + right.length

def byte? : Rope → Nat → Option UInt8
  | .piece t, i => t[i]?
  | .join _ left right, i =>
    if i < left.length then left.byte? i else right.byte? (i - left.length)

end Rope

/-- The contents of a string. -/
structure Content where
  rope : Rope
  measured : rope.Measured
deriving DecidableEq, Repr

namespace Content

def ofText (t : Text) : Content := ⟨.piece t, trivial⟩

def text (c : Content) : Text := c.rope.text

instance : Coe Text Content := ⟨ofText⟩

instance : Coe Content Text := ⟨text⟩

def length (c : Content) : Nat := c.rope.length

def byte? (c : Content) (i : Nat) : Option UInt8 := c.rope.byte? i

def append (c d : Content) : Content :=
  ⟨.join (c.length + d.length) c.rope d.rope, c.measured, d.measured, rfl⟩

instance : Append Content := ⟨append⟩

end Content

end ObjectModel
