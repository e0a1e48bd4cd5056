import ColumnPlan.Dictionary
import ColumnPlan.Function.Basic
import ColumnPlan.Text.Unicode.Property

/-!
# Registries of functions

A registry finds functions by name, in any case of letters.  A name has one function, the last
one that was registered.

* `Registry.lookup?`                    the function of a name;
* `Registry.register`, `unregister`     changes;
* `Registry.builtins`                   the functions that are always there;
* `Quoted.quote`                        a text between double quotes that stays readable;
* `Registry.text`                       the names of a registry.
-/

namespace ColumnPlan

/-- What a function is filed under. -/
def foldName (name : String) : String := name.map Char.toLower

structure Registry where
  functions : Dictionary String Function

namespace Registry

def empty : Registry := ⟨.empty⟩

def size (r : Registry) : Nat := r.functions.size

def lookup? (r : Registry) (name : String) : Option Function := r.functions.get? (foldName name)

/-- Every function needs a name. -/
def register (r : Registry) (f : Function) : Except Error Registry :=
  if f.identifier.isEmpty then .error (.malformed .emptyIdentifier)
  else .ok ⟨r.functions.set (foldName f.identifier) f⟩

def unregister (r : Registry) (name : String) : Registry := ⟨r.functions.erase (foldName name)⟩

def builtins : Registry :=
  ⟨Dictionary.empty.set (foldName Function.extract.identifier) .extract⟩

end Registry

/-! ### text -/

namespace Quoted

def hexDigits (n : Nat) : String := String.ofList (Nat.toDigits 16 n)

/-- A character between quotes.  One that cannot be printed, or that would join the character
before it, stands as its number. -/
def escape (c : Char) : String :=
  match c with
  | '"' => "\\\""
  | '\\' => "\\\\"
  | '\n' => "\\n"
  | '\r' => "\\r"
  | '\t' => "\\t"
  | '\x00' => "\\0"
  | c =>
    if Unicode.isPrintable c.toNat && !Unicode.isGraphemeExtender c.toNat then c.toString
    else "\\u\x7b" ++ hexDigits c.toNat ++ "\x7d"

def quote (s : String) : String := "\"" ++ String.join (s.toList.map escape) ++ "\""

end Quoted

def Registry.text (r : Registry) : String :=
  "FunctionRegistry \x7b functions: [" ++ ", ".intercalate (r.functions.keys.map Quoted.quote) ++
    "] \x7d"

end ColumnPlan
