import ColumnPlan.Error

/-!
# Schemas

* `Field`                 a named column; a flag in its metadata marks the row key;
* `Schema`                the fields of a batch in order; names may repeat;
* `Schema.keyIndex?`      the place of the key, if exactly one field is flagged;
* `Schema.valueType`      the type of the values of a field;
* `Schema.merge`          the fields of one schema, then those of another.
-/

namespace ColumnPlan

structure Field where
  name : String
  type : DataType
  nullable : Bool
  /-- The text of the key flag, if the field carries one. -/
  keyFlag : Option String
  deriving DecidableEq

namespace Field

/-- The flag has to read "true", in any case of letters. -/
def isKey (f : Field) : Bool := f.keyFlag.any fun flag => flag.map Char.toLower = "true"

/-- The usual key column. -/
def key : Field := ⟨"key", .int64, false, some "true"⟩

def text (f : Field) : String :=
  f.name ++ ": " ++ f.type.text ++ (if f.isKey then " (key)" else "")

end Field

/-- The name under which expressions and filters speak of the key. -/
def keyName : String := Field.key.name

structure Schema where
  fields : List Field
  deriving DecidableEq

namespace Schema

def size (s : Schema) : Nat := s.fields.length

def names (s : Schema) : List String := s.fields.map (·.name)

def isKey (s : Schema) (i : Nat) : Bool := s.fields[i]?.any (·.isKey)

/-- The indices of the fields that satisfy a test, in order. -/
def indicesWhere (s : Schema) (test : Field → Bool) : List Nat :=
  (s.fields.zipIdx.filter fun (f, _) => test f).map (·.2)

def keyIndices (s : Schema) : List Nat := s.indicesWhere (·.isKey)

def keyIndex? (s : Schema) : Option Nat :=
  match s.keyIndices with
  | [i] => some i
  | _ => none

def valueType (s : Schema) (i : Nat) : Except Error ValueType :=
  match s.fields[i]? with
  | none => .error (.fieldIndex i s.size)
  | some f =>
    match f.type.valueType? with
    | some t => .ok t
    | none => .error (.unsupported (.dataType f.type))

def merge (s t : Schema) : Schema := ⟨s.fields ++ t.fields⟩

def text (s : Schema) : String := "[" ++ listNames (s.fields.map (·.text)) ++ "]"

@[simp] theorem size_merge (s t : Schema) : (s.merge t).size = s.size + t.size :=
  List.length_append

end Schema

end ColumnPlan
