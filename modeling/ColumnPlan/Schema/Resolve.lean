import ColumnPlan.Schema.Basic
import ColumnPlan.Schema.Glob

/-!
# Finding the columns that a path means

* `Schema.matchingWith`    the columns whose names match a glob, the key columns left out or not,
                           with some engine for regular expressions;
* `Schema.matching`        the same with an engine that has no limits;
* `Schema.named`           the columns with exactly a name;
* `Schema.unique`          the one column of a list, or an error that names the schema;
* `Schema.resolve`         the one column that a path means;
* `Schema.resolveKey`      the key column.
-/

namespace ColumnPlan.Schema

/-- The columns that match, in order.  A glob that the engine refuses matches none. -/
def matchingWith (compile : Pattern.Chars → Option Pattern.Regex) (s : Schema) (pattern : String)
    (withKey : Bool) : List Nat :=
  match Glob.Matcher.ofGlob compile pattern with
  | .ok m => s.indicesWhere fun f => (withKey || !f.isKey) && m.accepts f.name
  | .error _ => []

def matching (s : Schema) (pattern : String) (withKey : Bool) : List Nat :=
  s.matchingWith Pattern.regexOf? pattern withKey

/-- The columns that a path means; a key column is never meant. -/
def columns (s : Schema) (pattern : String) : List Nat := s.matching pattern false

/-- The columns with exactly this name, stars included. -/
def named (s : Schema) (name : String) : List Nat :=
  s.indicesWhere fun f => !f.isKey && f.name = name

def unique (s : Schema) (pattern : String) : List Nat → Except Error Nat
  | [i] => .ok i
  | [] => .error (.columnNotFound pattern s.names)
  | found => .error (.ambiguousColumn pattern (found.filterMap (s.names[·]?)) s.names)

def resolve (s : Schema) (pattern : String) : Except Error Nat :=
  s.unique pattern (s.columns pattern)

def resolveKey (s : Schema) : Except Error Nat :=
  match s.keyIndices with
  | [i] => .ok i
  | keys => .error (.ambiguousKey keys.length s.names)

end ColumnPlan.Schema
