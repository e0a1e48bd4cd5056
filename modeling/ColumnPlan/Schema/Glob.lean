import ColumnPlan.Error
import ColumnPlan.Pattern.Matcher

/-!
# Globs

In a glob a run of stars stands for any characters, line breaks included, and every other character
for itself.  A glob that is not just a star, and not without stars, is read as a regular expression
that has to match a whole name.

* `Glob.escape`         the regular expression of some characters that stand for themselves;
* `Glob.Reading`        how far a glob has been read;
* `Glob.source`         the regular expression of a glob;
* `Glob.Matcher`        what is done with a name; `Matcher.ofGlob` makes it of a glob;
* `Matcher.accepts`     whether a name is matched.
-/

namespace ColumnPlan.Glob

open Pattern

/-- A backslash takes its meaning from a character that has one. -/
def escape (cs : Chars) : Chars := cs.flatMap fun c => if isMeta c then ['\\', c] else [c]

/-- What has been read of a glob: its expression up to the last run of stars, whether a star was
read last, and the characters since then. -/
structure Reading where
  source : Chars
  inStar : Bool
  literal : Chars

namespace Reading

/-- A dot is to stand for line breaks too, and the match begins where the name does. -/
def initial : Reading := ⟨['(', '?', 's', ')', '^'], false, []⟩

/-- Reads one character.  The first star of a run stands for all of it. -/
def step (r : Reading) (c : Char) : Reading :=
  if c = '*' then
    if r.inStar then r else ⟨r.source ++ escape r.literal ++ ['.', '*'], true, []⟩
  else { r with inStar := false, literal := r.literal ++ [c] }

/-- The match ends where the name does. -/
def finish (r : Reading) : Chars := r.source ++ escape r.literal ++ ['$']

end Reading

def source (glob : Chars) : Chars := (glob.foldl Reading.step .initial).finish

inductive Matcher where
  | all
  | exact (name : String)
  | wildcard (regex : Regex)

namespace Matcher

/-- `compile` turns a text into a regular expression, or refuses it. -/
def ofGlob (compile : Chars → Option Regex) (glob : String) : Except Error Matcher :=
  if glob = "*" then .ok .all
  else if !glob.toList.contains '*' then .ok (.exact glob)
  else
    match compile (source glob.toList) with
    | some regex => .ok (.wildcard regex)
    | none => .error (.unsupported (.pathPattern glob))

def accepts (m : Matcher) (name : String) : Bool :=
  match m with
  | .all => true
  | .exact glob => glob = name
  | .wildcard regex => regex.isMatch (Utf8.encode name)

end Matcher

end ColumnPlan.Glob
