import ColumnPlan.Join.Keys
import ColumnPlan.Proofs.Compile.Filter
import ColumnPlan.Proofs.Compile.Success
import ColumnPlan.Proofs.Dictionary
import ColumnPlan.Proofs.Schema.Merge
import ColumnPlan.Proofs.Value.Equal

/-!
# Keys say what they are taken from

A key stands for a comparison of two paths, each of which means one column on its own side.  If
the comparison can be compiled for joined rows, the paths mean the same columns there, so nothing
is lost when keys are taken out of a condition.

* `JoinKeys.Hold row width keys`   all keys hold of a joined row;
* `equal_of_comparison`            a key that equates holds of equal cells;
* `holds_place`                    a key holds iff the comparison it is taken from is true;
* `Taken`                          filters and keys before and after some keys were taken;
* `taken_takeKeys`                 what `takeKeys` does to them;
* `forall_mem_takeKeys`            what every key has in common.
-/

namespace ColumnPlan

/-- All keys hold of a joined row. -/
def JoinKeys.Hold (row : Row) (width : Nat) (keys : JoinKeys) : Prop :=
  ∀ entry ∈ keys.entries, (JoinKeys.comparison width entry.1 entry.2).Holds row

/-! ### a key in a joined row -/

theorem Row.value?_append_left {b : Row} (p : Row) {i : Nat} (h : i < b.length) :
    Row.value? (b ++ p) i = b.value? i := by
  unfold Row.value?
  rw [List.getElem?_append_left h]

theorem Row.value?_append_right (b p : Row) (i : Nat) :
    Row.value? (b ++ p) (i + b.length) = p.value? i := by
  unfold Row.value?
  rw [List.getElem?_append_right (Nat.le_add_left _ _), Nat.add_sub_cancel]

/-- The cells that a key equates are equal where it holds, in whichever order they stand. -/
theorem equal_of_comparison {pair : KeyPair} {key : EquiKey} {b p : Row}
    (he : key.op.isEquality = true) (hi : pair.build < b.length)
    (h : (JoinKeys.comparison b.length pair key).Holds (b ++ p)) :
    Datum.Equal (b.value? pair.build) (p.value? pair.probe) := by
  have base : key.op.base = .eq := of_decide_eq_true he
  unfold JoinKeys.comparison PredicateFunction.ofOp at h
  dsimp only at h
  rw [base] at h
  cases hr : key.reversed with
  | true =>
    rw [hr, if_pos rfl, PredicateExpr.holds_comparison, ScalarExpr.value?_field,
      ScalarExpr.value?_field, Row.value?_append_left p hi, Row.value?_append_right,
      Comparison.between_eq_true_iff] at h
    exact h.symm
  | false =>
    rw [hr, if_neg Bool.false_ne_true, PredicateExpr.holds_comparison, ScalarExpr.value?_field,
      ScalarExpr.value?_field, Row.value?_append_left p hi, Row.value?_append_right,
      Comparison.between_eq_true_iff] at h
    exact h

theorem mem_equalities {keys : JoinKeys} {pair : KeyPair} :
    pair ∈ keys.equalities ↔ ∃ key, (pair, key) ∈ keys.entries ∧ key.op.isEquality = true := by
  unfold JoinKeys.equalities
  rw [List.mem_map]
  constructor
  · rintro ⟨⟨p, key⟩, h, rfl⟩
    exact ⟨key, List.mem_filter.mp h⟩
  · rintro ⟨key, h⟩
    exact ⟨(pair, key), List.mem_filter.mpr h, rfl⟩

/-! ### the place of a key -/

section
variable {build probe : Schema} {left right : String} {op : CompareOp} {pair : KeyPair}
  {key : EquiKey}

theorem pair?_eq_some (h : pair? build probe left right = some pair) :
    build.columns left = [pair.build] ∧ probe.columns right = [pair.probe] := by
  unfold pair? at h
  split at h
  · next l r hl hr =>
    cases h
    exact ⟨hl, hr⟩
  · cases h

theorem place?_eq_some (h : place? build probe left op right = some (pair, key)) :
    (pair? build probe left right = some pair ∧ key = ⟨op, false⟩) ∨
      (pair? build probe right left = some pair ∧ key = ⟨op, true⟩) := by
  unfold place? at h
  rcases Option.or_eq_some_iff.mp h with h | ⟨-, h⟩
  · obtain ⟨p, hp, he⟩ := Option.map_eq_some_iff.mp h
    cases he
    exact .inl ⟨hp, rfl⟩
  · obtain ⟨p, hp, he⟩ := Option.map_eq_some_iff.mp h
    cases he
    exact .inr ⟨hp, rfl⟩

/-- In joined rows the paths mean the columns that the key compares. -/
theorem comparison_of_place {i j : Nat}
    (h : place? build probe left op right = some (pair, key))
    (hi : (build.merge probe).columns left = [i])
    (hj : (build.merge probe).columns right = [j]) :
    JoinKeys.comparison build.size pair key =
      .compare (.ofOp op) [.field i none, .field j none] := by
  rcases place?_eq_some h with ⟨hp, rfl⟩ | ⟨hp, rfl⟩
  · obtain ⟨hl, hr⟩ := pair?_eq_some hp
    rw [Schema.columns_left_of_merge hl hi, Schema.columns_right_of_merge hr hj]
    rfl
  · obtain ⟨hr, hl⟩ := pair?_eq_some hp
    rw [Schema.columns_left_of_merge hr hj, Schema.columns_right_of_merge hl hi]
    rfl

theorem holds_place (c : Setting) (row : Row)
    (h : place? build probe left op right = some (pair, key))
    (hc : (Filter.path left op right).Compiles c (build.merge probe)) :
    (JoinKeys.comparison build.size pair key).Holds row ↔
      (Filter.path left op right).meaningIn c (build.merge probe) row = .true := by
  obtain ⟨⟨i, hi⟩, j, hj⟩ := Filter.compiles_path_iff.mp hc
  rw [comparison_of_place h hi hj, PredicateFunction.ofOp, PredicateExpr.holds_comparison,
    ScalarExpr.value?_field, ScalarExpr.value?_field, Filter.meaningIn, Filter.meaning, hi, hj]

end

/-! ### taking keys -/

variable (c : Setting) (build probe : Schema)

/-- Of some filters a part was taken into the keys: what remains can be compiled too, and says
together with the keys what was said before. -/
structure Taken (fs : List Filter) (keys : JoinKeys) (rest : List Filter) (more : JoinKeys) :
    Prop where
  compiles : ∀ f ∈ rest, f.Compiles c (build.merge probe)
  holds_iff : ∀ row : Row,
    (∀ f ∈ rest, f.meaningIn c (build.merge probe) row = .true) ∧ more.Hold row build.size ↔
      (∀ f ∈ fs, f.meaningIn c (build.merge probe) row = .true) ∧ keys.Hold row build.size

variable {c build probe}

theorem Taken.nil (keys : JoinKeys) : Taken c build probe [] keys [] keys :=
  ⟨fun _ hf => absurd hf List.not_mem_nil, fun _ => Iff.rfl⟩

theorem Taken.cons {f r : Filter} {fs rest : List Filter} {keys more most : JoinKeys}
    (h : Taken c build probe [f] keys [r] more) (hs : Taken c build probe fs more rest most) :
    Taken c build probe (f :: fs) keys (r :: rest) most := by
  refine ⟨?_, fun row => ?_⟩
  · rw [List.forall_mem_cons]
    exact ⟨h.compiles r List.mem_cons_self, hs.compiles⟩
  · have hf := h.holds_iff row
    rw [List.forall_mem_singleton, List.forall_mem_singleton] at hf
    rw [List.forall_mem_cons, List.forall_mem_cons, and_assoc, hs.holds_iff row, and_left_comm,
      hf, and_left_comm, and_assoc]

/-- A filter that stays as it is. -/
theorem Taken.refl {f : Filter} (h : f.Compiles c (build.merge probe)) (keys : JoinKeys) :
    Taken c build probe [f] keys [f] keys :=
  ⟨List.forall_mem_singleton.mpr h, fun _ => Iff.rfl⟩

/-- A filter in place of another one, with keys that make up for the difference. -/
theorem Taken.replace {f r : Filter} {keys more : JoinKeys}
    (hr : r.Compiles c (build.merge probe))
    (h : ∀ row, r.meaningIn c (build.merge probe) row = .true ∧ more.Hold row build.size ↔
      f.meaningIn c (build.merge probe) row = .true ∧ keys.Hold row build.size) :
    Taken c build probe [f] keys [r] more := by
  refine ⟨List.forall_mem_singleton.mpr hr, fun row => ?_⟩
  rw [List.forall_mem_singleton, List.forall_mem_singleton]
  exact h row

theorem meaningIn_and_eq_true_iff (s : Schema) (row : Row) (fs : List Filter) :
    (Filter.and fs).meaningIn c s row = .true ↔ ∀ f ∈ fs, f.meaningIn c s row = .true := by
  rw [Filter.meaningIn, Filter.meaning_and, Truth.all_eq_true_iff, List.forall_mem_map]
  rfl

/-- an empty conjunction where a condition was -/
theorem compiles_empty (s : Schema) : (Filter.and []).Compiles c s :=
  (Filter.compiles_and_iff c s []).mpr fun _ hf => absurd hf List.not_mem_nil

theorem meaningIn_empty (s : Schema) (row : Row) : (Filter.and []).meaningIn c s row = .true := by
  rw [meaningIn_and_eq_true_iff]
  exact fun _ hf => absurd hf List.not_mem_nil

/-- Children taken one by one make a conjunction taken as a whole. -/
theorem Taken.and {fs rest : List Filter} {keys more : JoinKeys}
    (h : Taken c build probe fs keys rest more) :
    Taken c build probe [.and fs] keys [.and rest] more := by
  refine .replace ((Filter.compiles_and_iff c _ rest).mpr h.compiles) fun row => ?_
  rw [meaningIn_and_eq_true_iff, meaningIn_and_eq_true_iff]
  exact h.holds_iff row

theorem taken_bool (b : Bool) (keys : JoinKeys) :
    Taken c build probe [.bool b] keys [if b then .and [] else .or []] keys := by
  cases b with
  | true =>
    refine .replace (compiles_empty _) fun row => and_congr_left fun _ => ?_
    exact iff_of_true (meaningIn_empty _ row) rfl
  | false =>
    have none : (Filter.or []).Compiles c (build.merge probe) :=
      (Filter.compiles_or_iff c _ []).mpr fun _ hf => absurd hf List.not_mem_nil
    exact .replace none fun row => Iff.rfl

/-- A comparison that becomes a new key. -/
theorem taken_new {left right : String} {op : CompareOp} {pair : KeyPair} {key : EquiKey}
    {keys : JoinKeys} (hp : place? build probe left op right = some (pair, key))
    (hk : keys.get? pair = none)
    (h : (Filter.path left op right).Compiles c (build.merge probe)) :
    Taken c build probe [.path left op right] keys [.and []] (keys.set pair key) := by
  refine .replace (compiles_empty _) fun row => ?_
  have hold : JoinKeys.Hold row build.size (keys.set pair key) ↔
      (JoinKeys.comparison build.size pair key).Holds row ∧ keys.Hold row build.size :=
    Dictionary.forall_mem_set key hk fun entry =>
      (JoinKeys.comparison build.size entry.1 entry.2).Holds row
  rw [hold, holds_place c row hp h]
  exact and_iff_right (meaningIn_empty _ row)

/-- A comparison that is a key already. -/
theorem taken_known {left right : String} {op : CompareOp} {pair : KeyPair} {key : EquiKey}
    {keys : JoinKeys} (hp : place? build probe left op right = some (pair, key))
    (hk : keys.get? pair = some key)
    (h : (Filter.path left op right).Compiles c (build.merge probe)) :
    Taken c build probe [.path left op right] keys [.and []] keys := by
  refine .replace (compiles_empty _) fun row => and_congr_left fun hold => ?_
  rw [← holds_place c row hp h]
  exact iff_of_true (meaningIn_empty _ row) (hold (pair, key) (Dictionary.mem_of_get? hk))

/-- what becomes of a comparison that has a place -/
theorem run_takeKeys_path {left right : String} {op : CompareOp} {pair : KeyPair} {key : EquiKey}
    (hp : place? build probe left op right = some (pair, key)) (keys : JoinKeys) :
    (takeKeys build probe (.path left op right)).run keys =
      match keys.get? pair with
      | none => (.and [], keys.set pair key)
      | some known => (if known = key then .and [] else .path left op right, keys) := by
  rw [takeKeys, hp]
  show StateT.run (match keys.get? pair with
    | none => do
      modify (·.set pair key)
      pure (.and [])
    | some known => pure (if known = key then .and [] else .path left op right) :
      StateM JoinKeys Filter) keys = _
  cases keys.get? pair with
  | none => rfl
  | some known => rfl

theorem taken_path (left : String) (op : CompareOp) (right : String) (keys : JoinKeys)
    (h : (Filter.path left op right).Compiles c (build.merge probe)) :
    Taken c build probe [.path left op right] keys
      [((takeKeys build probe (.path left op right)).run keys).1]
      ((takeKeys build probe (.path left op right)).run keys).2 := by
  cases hp : place? build probe left op right with
  | none =>
    rw [takeKeys, hp]
    exact .refl h keys
  | some placed =>
    obtain ⟨pair, key⟩ := placed
    rw [run_takeKeys_path hp]
    cases hk : keys.get? pair with
    | none => exact taken_new hp hk h
    | some known =>
      show Taken c build probe _ keys [if known = key then _ else _] keys
      split
      · next he => exact taken_known hp (he ▸ hk) h
      · exact .refl h keys

-- Only conjunctions are entered, so every other filter is a leaf of this induction.  The keys are
-- handed from child to child, which is why the lists go along with the filters.
mutual

theorem taken_takeKeys : (f : Filter) → (keys : JoinKeys) →
    f.Compiles c (build.merge probe) →
      Taken c build probe [f] keys [((takeKeys build probe f).run keys).1]
        ((takeKeys build probe f).run keys).2
  | .and fs, keys, h => by
    rw [takeKeys]
    exact (taken_takeAllKeys fs keys ((Filter.compiles_and_iff c _ fs).mp h)).and
  | .bool true, keys, _ => by
    rw [takeKeys]
    exact taken_bool true keys
  | .bool false, keys, _ => by
    rw [takeKeys]
    exact taken_bool false keys
  | .path left op right, keys, h => taken_path left op right keys h
  | .value _ _ _, keys, h | .key _ _, keys, h | .expr _ _ _, keys, h | .member _ _ _, keys, h
  | .or _, keys, h | .not _, keys, h => .refl h keys

theorem taken_takeAllKeys : (fs : List Filter) → (keys : JoinKeys) →
    (∀ f ∈ fs, f.Compiles c (build.merge probe)) →
      Taken c build probe fs keys ((takeAllKeys build probe fs).run keys).1
        ((takeAllKeys build probe fs).run keys).2
  | [], keys, _ => by
    rw [takeAllKeys]
    exact .nil keys
  | f :: fs, keys, h => by
    obtain ⟨hf, hs⟩ := List.forall_mem_cons.mp h
    rw [takeAllKeys]
    exact (taken_takeKeys f keys hf).cons
      (taken_takeAllKeys fs ((takeKeys build probe f).run keys).2 hs)

end

/-! ### what all keys have in common -/

mutual

/-- What every place has, every key has. -/
theorem forall_mem_takeKeys {P : KeyPair × EquiKey → Prop}
    (hP : ∀ left op right entry, place? build probe left op right = some entry → P entry) :
    (f : Filter) → (keys : JoinKeys) → (∀ entry ∈ keys.entries, P entry) →
      ∀ entry ∈ ((takeKeys build probe f).run keys).2.entries, P entry
  | .and fs, keys, h => by
    rw [takeKeys]
    exact forall_mem_takeAllKeys hP fs keys h
  | .path left op right, keys, h => by
    cases hp : place? build probe left op right with
    | none =>
      rw [takeKeys, hp]
      exact h
    | some placed =>
      obtain ⟨pair, key⟩ := placed
      rw [run_takeKeys_path hp]
      cases hk : keys.get? pair with
      | none => exact (Dictionary.forall_mem_set key hk P).mpr ⟨hP left op right _ hp, h⟩
      | some known => exact h
  | .bool true, _, h | .bool false, _, h | .value _ _ _, _, h | .key _ _, _, h
  | .expr _ _ _, _, h | .member _ _ _, _, h | .or _, _, h | .not _, _, h => h

theorem forall_mem_takeAllKeys {P : KeyPair × EquiKey → Prop}
    (hP : ∀ left op right entry, place? build probe left op right = some entry → P entry) :
    (fs : List Filter) → (keys : JoinKeys) → (∀ entry ∈ keys.entries, P entry) →
      ∀ entry ∈ ((takeAllKeys build probe fs).run keys).2.entries, P entry
  | [], _, h => h
  | f :: fs, keys, h =>
    forall_mem_takeAllKeys hP fs ((takeKeys build probe f).run keys).2
      (forall_mem_takeKeys hP f keys h)

end

/-- A place is a column of each side. -/
theorem lt_size_of_place {left right : String} {op : CompareOp} {entry : KeyPair × EquiKey}
    (h : place? build probe left op right = some entry) :
    entry.1.build < build.size ∧ entry.1.probe < probe.size := by
  obtain ⟨pair, key⟩ := entry
  have bounds : ∀ {l r : String}, pair? build probe l r = some pair →
      pair.build < build.size ∧ pair.probe < probe.size := fun hp => by
    obtain ⟨hl, hr⟩ := pair?_eq_some hp
    exact ⟨Schema.lt_size_of_mem_columns (hl ▸ List.mem_singleton_self _),
      Schema.lt_size_of_mem_columns (hr ▸ List.mem_singleton_self _)⟩
  rcases place?_eq_some h with ⟨hp, -⟩ | ⟨hp, -⟩
  · exact bounds hp
  · exact bounds hp

end ColumnPlan
