import ObjectModel.Text.Basic

/-!
Binary data items. An item is an integer, a byte or text string, an array, a map, a tagged item, a
simple value or a float. Each begins with a head: three bits of major type, five bits that hold a
small argument or the width of a longer one, and that many bytes of argument. Strings, arrays and
maps may also be left open and end with a break byte.

`Item.read` reads one item from the front of its input, with limits on depth and size, and says why
it cannot. `Item.encode` writes the shortest heads and no open items.
-/

namespace ObjectModel

inductive Item where
  | unsigned (value : Nat)
  /-- The integer `-1 - complement`. -/
  | negative (complement : Nat)
  /-- A byte string, in the chunks it was given in. -/
  | bytes (chunks : List Text)
  | text (chunks : List Text)
  | array (items : List Item)
  /-- Keys and values in turn. -/
  | map (entries : List Item)
  | tag (number : Nat) (content : Item)
  | simple (value : Nat)
  /-- A float of two, four or eight bytes, as its bits. -/
  | float (width bits : Nat)

namespace Item

inductive Malformed where
  | empty
  | truncated
  | misplaced
  | tooDeep
  | tooManyElements
  | tooManyPairs
  | tooLong
  | leftover
deriving DecidableEq, Repr

/-- Arrays, maps and tags may be nested this deep. -/
def maxDepth : Nat := 32

/-- Arrays hold at most this many elements, maps this many pairs. -/
def maxElements : Nat := 131072

def lengthLimit : Nat := 0x8000000000000000

def breakByte : UInt8 := 0xFF

structure Head where
  major : Nat
  info : Nat
  argument : Nat
deriving DecidableEq, Repr

def bigEndian (bytes : Text) : Nat := bytes.foldl (fun n b => n * 256 + b.toNat) 0

def takeBytes (n : Nat) (input : Text) : Except Malformed (Text × Text) :=
  let front := input.take n
  if front.length = n then .ok (front, input.drop n) else .error .truncated

def argumentWidth (info : Nat) : Option Nat :=
  match info with
  | 24 => some 1
  | 25 => some 2
  | 26 => some 4
  | 27 => some 8
  | _ => none

def mayBeOpen (major : Nat) : Bool := 2 ≤ major && major ≤ 5

def readHead : Text → Except Malformed (Head × Text)
  | [] => .error .truncated
  | b :: rest => do
    let major := b.toNat / 32
    let info := b.toNat % 32
    if info < 24 then return (⟨major, info, info⟩, rest)
    match argumentWidth info with
    | some width =>
      let (field, rest) ← takeBytes width rest
      let argument := bigEndian field
      if major = 7 ∧ info = 24 ∧ argument < 32 then throw .misplaced
      return (⟨major, info, argument⟩, rest)
    | none =>
      if info = 31 ∧ mayBeOpen major then return (⟨major, info, info⟩, rest)
      throw .misplaced

def Head.isOpen (h : Head) : Bool := h.info == 31

def readString (h : Head) (input : Text) : Except Malformed (Text × Text) :=
  if lengthLimit ≤ h.argument then .error .tooLong else takeBytes h.argument input

def readChunks (major : Nat) : (fuel : Nat) → Text → List Text →
    Except Malformed (List Text × Text)
  | 0, _, _ => .error .truncated
  | _ + 1, [], _ => .error .truncated
  | fuel + 1, b :: rest, chunks => do
    if b = breakByte then return (chunks.reverse, rest)
    if b.toNat / 32 ≠ major ∨ b.toNat % 32 = 31 then throw .misplaced
    let (h, rest) ← readHead (b :: rest)
    let (chunk, rest) ← readString h rest
    readChunks major fuel rest (chunk :: chunks)

def readText (h : Head) (fuel : Nat) (input : Text) : Except Malformed (List Text × Text) := do
  if h.isOpen then readChunks h.major fuel input []
  else
    let (chunk, rest) ← readString h input
    return ([chunk], rest)

/-- The limit that an open array or map has gone over with so many items. -/
def overfull (major count : Nat) : Option Malformed :=
  if major = 4 then (if maxElements < count then some .tooManyElements else none)
  else if count % 2 = 0 ∧ maxElements < count / 2 then some .tooManyPairs
  else none

def itemCount (h : Head) : Except Malformed Nat :=
  if lengthLimit ≤ h.argument then .error .tooLong
  else if h.argument ≤ maxElements then
    .ok (if h.major = 4 then h.argument else 2 * h.argument)
  else .error (if h.major = 4 then .tooManyElements else .tooManyPairs)

def collection (major : Nat) (items : List Item) : Item :=
  if major = 4 then .array items else .map items

def ofSimple (h : Head) : Item :=
  match h.info with
  | 25 => .float 2 h.argument
  | 26 => .float 4 h.argument
  | 27 => .float 8 h.argument
  | _ => .simple h.argument

mutual

def readItem : (fuel depth : Nat) → Text → Except Malformed (Item × Text)
  | 0, _, _ => .error .truncated
  | fuel + 1, depth, input => do
    let (h, rest) ← readHead input
    match h.major with
    | 0 => return (.unsigned h.argument, rest)
    | 1 => return (.negative h.argument, rest)
    | 2 =>
      let (chunks, rest) ← readText h fuel rest
      return (.bytes chunks, rest)
    | 3 =>
      let (chunks, rest) ← readText h fuel rest
      return (.text chunks, rest)
    | 6 => readTagged fuel depth h.argument rest
    | 7 => return (ofSimple h, rest)
    | major =>
      if maxDepth ≤ depth then throw .tooDeep
      if h.isOpen then readOpen fuel (depth + 1) major 0 rest []
      else
        let count ← itemCount h
        readMany fuel (depth + 1) major count rest []

def readMany : (fuel depth major count : Nat) → Text → List Item →
    Except Malformed (Item × Text)
  | 0, _, _, _, _, _ => .error .truncated
  | _ + 1, _, major, 0, input, items => return (collection major items.reverse, input)
  | fuel + 1, depth, major, count + 1, input, items => do
    let (item, rest) ← readItem fuel depth input
    readMany fuel depth major count rest (item :: items)

/-- The items of an open array or map, of which `count` have been read. -/
def readOpen : (fuel depth major count : Nat) → Text → List Item →
    Except Malformed (Item × Text)
  | 0, _, _, _, _, _ => .error .truncated
  | _ + 1, _, _, _, [], _ => .error .truncated
  | fuel + 1, depth, major, count, b :: input, items => do
    if b = breakByte then
      if major = 5 ∧ count % 2 = 1 then throw .misplaced
      return (collection major items.reverse, input)
    let (item, rest) ← readItem fuel depth (b :: input)
    match overfull major (count + 1) with
    | some problem => throw problem
    | none => readOpen fuel depth major (count + 1) rest (item :: items)

/-- The content of a tag. In a chain of tags every tag but the first is one level deeper. -/
def readTagged : (fuel depth number : Nat) → Text → Except Malformed (Item × Text)
  | 0, _, _, _ => .error .truncated
  | _ + 1, _, _, [] => .error .truncated
  | fuel + 1, depth, number, b :: input => do
    if b.toNat / 32 = 6 then
      let (h, rest) ← readHead (b :: input)
      if maxDepth ≤ depth then throw .tooDeep
      let (content, rest) ← readTagged fuel (depth + 1) h.argument rest
      return (.tag number content, rest)
    else
      let (content, rest) ← readItem fuel depth (b :: input)
      return (.tag number content, rest)

end

/-- Reads input that is exactly one item. Every step of the reader uses up input or leaves an
array or map, so the fuel suffices. -/
def read (input : Text) : Except Malformed Item := do
  if input.isEmpty then throw .empty
  let (item, rest) ← readItem (4 * input.length + 4) 0 input
  if rest.isEmpty then return item else throw .leftover

def bytesOf : (n : Nat) → Nat → Text
  | 0, _ => []
  | n + 1, value => bytesOf n (value / 256) ++ [UInt8.ofNat (value % 256)]

/-- The shortest head for an argument below 2^64. -/
def encodeHead (major argument : Nat) : Text :=
  let first (info : Nat) : UInt8 := UInt8.ofNat (32 * major + info)
  if argument < 24 then [first argument]
  else if argument < 0x100 then first 24 :: bytesOf 1 argument
  else if argument < 0x10000 then first 25 :: bytesOf 2 argument
  else if argument < 0x100000000 then first 26 :: bytesOf 4 argument
  else first 27 :: bytesOf 8 argument

def encodeText (major : Nat) (t : Text) : Text := encodeHead major t.length ++ t

mutual

def encode : Item → Text
  | .unsigned n => encodeHead 0 n
  | .negative n => encodeHead 1 n
  | .bytes chunks => encodeText 2 chunks.flatten
  | .text chunks => encodeText 3 chunks.flatten
  | .array items => encodeHead 4 items.length ++ encodeAll items
  | .map entries => encodeHead 5 (entries.length / 2) ++ encodeAll entries
  | .tag number content => encodeHead 6 number ++ encode content
  | .simple value => encodeHead 7 value
  | .float width bits =>
    let info := if width = 2 then 25 else if width = 4 then 26 else 27
    UInt8.ofNat (224 + info) :: bytesOf width bits

def encodeAll : List Item → Text
  | [] => []
  | item :: rest => encode item ++ encodeAll rest

end

end Item

end ObjectModel
