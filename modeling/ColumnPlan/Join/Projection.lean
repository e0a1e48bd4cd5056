import ColumnPlan.Join.Keys

/-!
# The columns that a join emits

Of two columns that are equated one is enough.  An outer join that keeps build rows without a
match, but no such probe rows, keeps the build column; any other join keeps the probe column.

* `sideOutputs`         the columns of one side;
* `joinOutputs`         all columns: a key, the two sides, and the mark of a mark join.
-/

namespace ColumnPlan

/-- The columns of a side whose names are not skipped.  Its keys are emitted under the prefix of
the side, if at all. -/
def sideOutputs (offset : Nat) (s : Schema) (pre : Option String) (emitKey : Bool)
    (skip : String → Bool) : List ScalarExpr :=
  s.fields.zipIdx.filterMap fun (f, i) =>
    if f.isKey then
      match pre with
      | some p => if emitKey then some (.field (offset + i) (qualify (some p) f.name)) else none
      | none => none
    else if skip f.name then none
    else some (.field (offset + i) none)

/-- The names that an equated pair of columns has in common. -/
def sharedNames (build probe : Schema) (keys : JoinKeys) : List String :=
  keys.equalities.filterMap fun pair => do
    let name ← build.names[pair.build]?
    if probe.names[pair.probe]? = some name then some name else none

/-- The key of the probe side, in front of all columns. -/
def leadingKey (build probe : Schema) (o : JoinOptions) : List ScalarExpr :=
  if o.emitBuildSideKey then []
  else (probe.keyIndex?.map fun i => ScalarExpr.field (build.size + i) none).toList

/-- The mark behind all columns.  It says whether there is a match. -/
def markOutput (place : Nat) (o : JoinOptions) : List ScalarExpr :=
  if o.type.isMark then
    o.mark.toList.map fun mark =>
      let cell := ScalarExpr.field place (some mark)
      if o.type.isAntiMark then .call .not [cell] (some mark) else cell
  else []

def joinOutputs (build probe : Schema) (d : JoinDescriptor) (keys : JoinKeys) :
    List ScalarExpr :=
  let o := d.options
  let keepBuild :=
    o.type.emitsBuildData && o.type.emitsBuildUnmatched && !o.type.emitsProbeUnmatched
  let shared := sharedNames build probe keys
  let buildColumns := d.columns.map (qualify d.buildPrefix)
  let probeColumns := d.columns.map (qualify d.probePrefix)
  let buildSide :=
    if o.type.emitsBuildData then
      sideOutputs 0 build d.buildPrefix o.emitBuildSideKey fun name =>
        shared.contains name || (!keepBuild && buildColumns.contains name)
    else []
  let probeSide :=
    sideOutputs build.size probe d.probePrefix o.emitBuildSideKey fun name =>
      keepBuild && probeColumns.contains name
  leadingKey build probe o ++ buildSide ++ probeSide ++ markOutput (build.size + probe.size) o

end ColumnPlan
