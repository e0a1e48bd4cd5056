import ColumnPlan.Schema.Basic

/-!
# Qualified names and natural joins

A column of a table is named by the prefix of the table, a dot and the name of the column.

* `qualify`                   the name under an optional prefix;
* `stripQualifier?`           what a name says after a prefix; never empty;
* `Schema.suffixes`           what the names of the columns of a schema say after a prefix;
* `naturalJoinColumns`        the names that two schemas share.
-/

namespace ColumnPlan

def qualify (pre : Option String) (name : String) : String :=
  match pre with
  | some p => p ++ "." ++ name
  | none => name

/-- The characters after a prefix and a dot. -/
def stripChars? (pre name : List Char) : Option (List Char) :=
  match name.drop pre.length with
  | '.' :: c :: rest => if pre.isPrefixOf name then some (c :: rest) else none
  | _ => none

def stripQualifier? (name : String) (pre : Option String) : Option String :=
  match pre with
  | some p => (stripChars? p.toList name.toList).map String.ofList
  | none => some name

/-- What the names of the columns, keys apart, say after a prefix, in order. -/
def Schema.suffixes (s : Schema) (pre : Option String) : List String :=
  (s.fields.filter (!·.isKey)).filterMap fun f => stripQualifier? f.name pre

/-- The names of the build side that the probe side has too, each once, where it first occurs. -/
def naturalJoinColumns (build probe : Schema) (buildPrefix probePrefix : Option String) :
    List String :=
  ((build.suffixes buildPrefix).filter (probe.suffixes probePrefix).contains).eraseDups

end ColumnPlan
