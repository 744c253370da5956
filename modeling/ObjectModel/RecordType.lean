/-!
Record types, described by their fields. A field holds a record, a reference or a plain value. A
record in an anonymous field is embedded; if it is an object of its own, the whole can be seen as
that object, its ancestor. The walk along the ancestors of a record takes the first such field and
goes on from the record in it, to any depth.
-/

namespace ObjectModel

/-- A field of a record, which may hold a record of the given types. -/
inductive Field (τ : Type) where
  | record (anonymous : Bool) (type : τ)
  | reference (anonymous : Bool)
  | plain

/-- A record type: the view that its instances are if they are objects, and its fields. -/
inductive RecordType (ν : Type) where
  | mk (view : Option ν) (fields : List (Field (RecordType ν)))

namespace RecordType
variable {ν : Type}

def view : RecordType ν → Option ν
  | .mk view _ => view

def fields : RecordType ν → List (Field (RecordType ν))
  | .mk _ fields => fields

mutual

/-- The ancestors embedded in a record of the type, nearest first. -/
def ancestors : RecordType ν → List ν
  | .mk _ fields => ancestorsIn fields

def ancestorsIn : List (Field (RecordType ν)) → List ν
  | [] => []
  | field :: rest =>
    match field with
    | .record true type =>
      match type.view with
      | some v => v :: type.ancestors
      | none => ancestorsIn rest
    | _ => ancestorsIn rest

end

end RecordType

end ObjectModel
