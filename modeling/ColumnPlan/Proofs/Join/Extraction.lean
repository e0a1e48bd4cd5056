import ColumnPlan.Proofs.Join.Hash
import ColumnPlan.Proofs.Join.Order

/-!
# What is taken out of a condition

A conjunct is located if it compares a path that means one column of the build side with one that
means one column of the probe side, in this order or, failing that, the other way round.  The first
conjunct that is located at a pair of columns is the key of the pair.  Whatever states the same key
is cleared from the condition, and everything else stays in its place.

* `Schema.Means`              a path means one column and no other;
* `Filter.Located`            the pair of columns that a comparison speaks of;
* `Filter.FirstLocated`       the first conjunct at a pair;
* `Filter.Remains`            a condition and what remains of it;
* `remains_takeKeys`          what `takeKeys` leaves;
* `Extracted`, `extracted_compileJoin`   the keys and the residual condition of a plan.
-/

namespace ColumnPlan

/-! ### columns -/

/-- The path means this column, which is not a key column, and no other one. -/
structure Schema.Means (s : Schema) (path : String) (i : Nat) : Prop where
  column : ∃ f, s.fields[i]? = some f ∧ f.isKey = false ∧ Glob.accepts path f.name = true
  unique : ∀ j f, s.fields[j]? = some f → f.isKey = false → Glob.accepts path f.name = true → j = i

theorem Schema.columns_eq_singleton_iff {s : Schema} {path : String} {i : Nat} :
    s.columns path = [i] ↔ s.Means path i := by
  constructor
  · intro h
    refine ⟨exists_of_columns h, fun j f hf hk accepts => ?_⟩
    have meant : j ∈ s.columns path := mem_columns.mpr ⟨f, hf, hk, accepts⟩
    rw [h] at meant
    exact List.mem_singleton.mp meant
  · intro h
    refine columns_eq_singleton fun j => ?_
    rw [mem_columns]
    constructor
    · rintro ⟨f, hf, hk, accepts⟩
      exact h.unique j f hf hk accepts
    · rintro rfl
      exact h.column

section
variable (build probe : Schema)

/-- Two paths mean a column of the build side and one of the probe side. -/
def PathsMean (left right : String) (pair : KeyPair) : Prop :=
  build.Means left pair.build ∧ probe.Means right pair.probe

theorem pair?_eq_some_iff {left right : String} {pair : KeyPair} :
    pair? build probe left right = some pair ↔ PathsMean build probe left right pair := by
  unfold PathsMean
  rw [← Schema.columns_eq_singleton_iff, ← Schema.columns_eq_singleton_iff]
  refine ⟨pair?_eq_some, fun ⟨hl, hr⟩ => ?_⟩
  unfold pair?
  rw [hl, hr]

/-! ### conjuncts -/

/-- A comparison of a build column and a probe column, as it is written if possible and with its
sides swapped otherwise. -/
def Filter.Located (f : Filter) (pair : KeyPair) (key : EquiKey) : Prop :=
  ∃ left op right, f = .path left op right ∧
    (PathsMean build probe left right pair ∧ key = ⟨op, false⟩ ∨
      (∀ other, ¬ PathsMean build probe left right other) ∧
        PathsMean build probe right left pair ∧ key = ⟨op, true⟩)

/-- Among the conjuncts of a condition the first one at a pair of columns states this key. -/
def Filter.FirstLocated (condition : Filter) (pair : KeyPair) (key : EquiKey) : Prop :=
  ∃ front f back, condition.conjuncts = front ++ f :: back ∧ f.Located build probe pair key ∧
    ∀ g ∈ front, ∀ other, ¬ g.Located build probe pair other

theorem place?_eq_some_iff {left right : String} {op : CompareOp} {pair : KeyPair}
    {key : EquiKey} :
    place? build probe left op right = some (pair, key) ↔
      PathsMean build probe left right pair ∧ key = ⟨op, false⟩ ∨
        (∀ other, ¬ PathsMean build probe left right other) ∧
          PathsMean build probe right left pair ∧ key = ⟨op, true⟩ := by
  have absent : (∀ other, ¬ PathsMean build probe left right other) ↔
      pair? build probe left right = none := by
    rw [Option.eq_none_iff_forall_ne_some]
    exact forall_congr' fun other => not_congr (pair?_eq_some_iff build probe).symm
  rw [absent, ← pair?_eq_some_iff, ← pair?_eq_some_iff]
  unfold place?
  cases pair? build probe left right with
  | none =>
    rw [Option.map_none, Option.none_or, Option.map_eq_some_iff]
    constructor
    · rintro ⟨other, hp, same⟩
      cases same
      exact .inr ⟨rfl, hp, rfl⟩
    · rintro (⟨⟨⟩, -⟩ | ⟨-, hp, rfl⟩)
      exact ⟨pair, hp, rfl⟩
  | some placed =>
    rw [Option.map_some, Option.some_or]
    constructor
    · rintro ⟨⟩
      exact .inl ⟨rfl, rfl⟩
    · rintro (⟨⟨⟩, rfl⟩ | ⟨⟨⟩, -⟩)
      rfl

theorem Filter.key?_eq_some_iff {f : Filter} {pair : KeyPair} {key : EquiKey} :
    f.key? build probe = some (pair, key) ↔ f.Located build probe pair key := by
  cases f with
  | path left op right =>
    rw [key?, place?_eq_some_iff]
    constructor
    · exact fun h => ⟨left, op, right, rfl, h⟩
    · rintro ⟨_, _, _, ⟨⟩, h⟩
      exact h
  | _ =>
    constructor
    · rintro ⟨⟩
    · rintro ⟨_, _, _, ⟨⟩, _⟩

/-- What is found first among some entries. -/
theorem Dictionary.find?_eq_some_iff {κ ν : Type} [DecidableEq κ] {key : κ} {value : ν}
    {entries : List (κ × ν)} :
    find? key entries = some value ↔
      ∃ front back, entries = front ++ (key, value) :: back ∧ ∀ entry ∈ front, entry.1 ≠ key := by
  constructor
  · intro h
    induction entries with
    | nil => cases h
    | cons entry rest ih =>
      obtain ⟨k, v⟩ := entry
      rw [find?] at h
      split at h
      · next same =>
        cases same
        cases h
        exact ⟨[], rest, rfl, fun _ hm => absurd hm List.not_mem_nil⟩
      · next apart =>
        obtain ⟨front, back, rfl, others⟩ := ih h
        exact ⟨(k, v) :: front, back, rfl, List.forall_mem_cons.mpr ⟨Ne.symm apart, others⟩⟩
  · rintro ⟨front, back, rfl, others⟩
    rw [find?_append, find?_eq_none_iff.mpr others, Option.none_or]
    exact if_pos rfl

/-- The first key that is stated for a pair is that of the first conjunct at the pair. -/
theorem Filter.find?_stated_eq_some_iff {condition : Filter} {pair : KeyPair} {key : EquiKey} :
    Dictionary.find? pair (condition.stated build probe) = some key ↔
      condition.FirstLocated build probe pair key := by
  unfold stated FirstLocated
  simp only [← key?_eq_some_iff]
  rw [Dictionary.find?_eq_some_iff]
  constructor
  · rintro ⟨stated, later, h, others⟩
    obtain ⟨before, after, conjuncts, hs, ha⟩ := List.filterMap_eq_append_iff.mp h
    obtain ⟨between, f, back, rfl, silent, hf, -⟩ := List.filterMap_eq_cons_iff.mp ha
    refine ⟨before ++ between, f, back, by rw [conjuncts, List.append_assoc], hf, ?_⟩
    intro g hg other ho
    rcases List.mem_append.mp hg with hg | hg
    · have entry : (pair, other) ∈ stated := hs ▸ List.mem_filterMap.mpr ⟨g, hg, ho⟩
      exact others _ entry rfl
    · cases (silent g hg).symm.trans ho
  · rintro ⟨front, f, back, conjuncts, hf, others⟩
    refine ⟨front.filterMap (key? build probe), back.filterMap (key? build probe), ?_, ?_⟩
    · rw [conjuncts, List.filterMap_append, List.filterMap_cons_some hf]
    · rintro ⟨other, known⟩ hm rfl
      obtain ⟨g, hg, ho⟩ := List.mem_filterMap.mp hm
      exact others g hg known ho

/-! ### what remains -/

/-- What remains of a condition next to some keys.  A conjunct that states one of them leaves an
empty conjunction, and a constant becomes an empty connective.  Everything else is untouched, and
nothing inside of it is looked at. -/
inductive Filter.Remains (keys : JoinKeys) : Filter → Filter → Prop
  | and {fs gs : List Filter} (h : List.Forall₂ (Remains keys) fs gs) :
    Remains keys (.and fs) (.and gs)
  | always : Remains keys (.bool true) (.and [])
  | never : Remains keys (.bool false) (.or [])
  | cleared {f : Filter} {pair : KeyPair} {key : EquiKey} (h : f.Located build probe pair key)
    (hk : (pair, key) ∈ keys.entries) : Remains keys f (.and [])
  | untouched {f : Filter} (hf : (∀ fs, f ≠ .and fs) ∧ ∀ b, f ≠ .bool b)
    (h : ∀ pair key, f.Located build probe pair key → (pair, key) ∉ keys.entries) :
    Remains keys f f

variable {build probe}

section
variable {final : JoinKeys}

theorem remains_takeKeys_path (ascending : final.Ascending) {left right : String}
    {op : CompareOp} {keys : JoinKeys}
    (kept : ∀ pair key, ((takeKeys build probe (.path left op right)).run keys).2.get? pair =
      some key → final.get? pair = some key) :
    Filter.Remains build probe final (.path left op right)
      ((takeKeys build probe (.path left op right)).run keys).1 := by
  cases hp : place? build probe left op right with
  | none =>
    rw [takeKeys, hp]
    refine .untouched ⟨nofun, nofun⟩ fun pair key located => ?_
    have placed := (Filter.key?_eq_some_iff build probe).mpr located
    rw [Filter.key?, hp] at placed
    cases placed
  | some placed =>
    obtain ⟨pair, key⟩ := placed
    have located : (Filter.path left op right).Located build probe pair key :=
      (Filter.key?_eq_some_iff build probe).mp hp
    rw [run_takeKeys_path hp] at kept ⊢
    cases hk : keys.get? pair with
    | none =>
      rw [hk] at kept
      have found : final.get? pair = some key := by
        apply kept
        show (keys.set pair key).get? pair = some key
        rw [Dictionary.get?_set, if_pos rfl]
      exact .cleared located (Dictionary.mem_of_get? found)
    | some known =>
      rw [hk] at kept
      have found : final.get? pair = some known := kept pair known hk
      show Filter.Remains build probe final _ (if known = key then _ else _)
      split
      · next same => exact .cleared located (Dictionary.mem_of_get? (same ▸ found))
      · next apart =>
        refine .untouched ⟨nofun, nofun⟩ fun other more again entry => apart ?_
        cases hp.symm.trans ((Filter.key?_eq_some_iff build probe).mpr again)
        exact Option.some.inj (found.symm.trans ((Dictionary.mem_entries_iff ascending).mp entry))

/-- A filter that is neither entered nor compared with the keys. -/
theorem remains_leaf {f : Filter} (hf : (∀ fs, f ≠ .and fs) ∧ ∀ b, f ≠ .bool b)
    (hk : f.key? build probe = none) : Filter.Remains build probe final f f := by
  refine .untouched hf fun pair key located => ?_
  cases hk.symm.trans ((Filter.key?_eq_some_iff build probe).mpr located)

-- The keys grow along the conjuncts, and what happens to a conjunct depends on the keys of this
-- moment.  It is described by the final ones, since no key is ever replaced.
mutual

theorem remains_takeKeys (ascending : final.Ascending) : (f : Filter) → (keys : JoinKeys) →
    (∀ pair key, ((takeKeys build probe f).run keys).2.get? pair = some key →
      final.get? pair = some key) →
    Filter.Remains build probe final f ((takeKeys build probe f).run keys).1
  | .and fs, keys, kept => by
    rw [takeKeys] at kept ⊢
    exact .and (remains_takeAllKeys ascending fs keys kept)
  | .path left op right, keys, kept => remains_takeKeys_path ascending kept
  | .bool true, keys, _ => .always
  | .bool false, keys, _ => .never
  | .value _ _ _, _, _ | .key _ _, _, _ | .expr _ _ _, _, _ | .member _ _ _, _, _ | .or _, _, _
  | .not _, _, _ => remains_leaf ⟨nofun, nofun⟩ rfl

theorem remains_takeAllKeys (ascending : final.Ascending) : (fs : List Filter) → (keys : JoinKeys) →
    (∀ pair key, ((takeAllKeys build probe fs).run keys).2.get? pair = some key →
      final.get? pair = some key) →
    List.Forall₂ (Filter.Remains build probe final) fs ((takeAllKeys build probe fs).run keys).1
  | [], _, _ => .nil
  | f :: fs, keys, kept => by
    rw [run_takeAllKeys_cons] at kept ⊢
    exact .cons
      (remains_takeKeys ascending f keys fun pair key h => kept pair key (get?_takeAllKeys fs _ h))
      (remains_takeAllKeys ascending fs ((takeKeys build probe f).run keys).2 kept)

end

end

/-! ### plans -/

variable (build probe)

/-- The keys of a condition and what remains of it. -/
structure Extracted (condition : Filter) (keys : JoinKeys) (rest : Filter) : Prop where
  /-- The key of a pair is the one that the first conjunct at the pair states. -/
  entries : ∀ pair key, (pair, key) ∈ keys.entries ↔
    condition.FirstLocated build probe pair key
  /-- The pairs are in order, and none has two keys. -/
  ascending : keys.Ascending
  /-- A pair is made of a column of either side, neither of them a key column. -/
  columns : ∀ pair ∈ keys.keys,
    (pair.build < build.size ∧ build.isKey pair.build = false) ∧
    (pair.probe < probe.size ∧ probe.isKey pair.probe = false)
  rest : condition.Remains build probe keys rest

theorem Schema.Means.isKey_eq_false {s : Schema} {path : String} {i : Nat} (h : s.Means path i) :
    i < s.size ∧ s.isKey i = false := by
  obtain ⟨f, hf, hk, -⟩ := h.column
  refine ⟨(List.getElem?_eq_some_iff.mp hf).1, ?_⟩
  unfold Schema.isKey
  rw [hf]
  exact hk

theorem Filter.Located.columns {f : Filter} {pair : KeyPair} {key : EquiKey}
    (h : f.Located build probe pair key) :
    (pair.build < build.size ∧ build.isKey pair.build = false) ∧
      (pair.probe < probe.size ∧ probe.isKey pair.probe = false) := by
  obtain ⟨left, op, right, -, ⟨mean, -⟩ | ⟨-, mean, -⟩⟩ := h
  · exact ⟨mean.1.isKey_eq_false, mean.2.isKey_eq_false⟩
  · exact ⟨mean.1.isKey_eq_false, mean.2.isKey_eq_false⟩

theorem mem_entries_keys_iff {condition : Filter} {pair : KeyPair} {key : EquiKey} :
    (pair, key) ∈ (condition.keys build probe).entries ↔
      condition.FirstLocated build probe pair key := by
  rw [Dictionary.mem_entries_iff (ascending_keys condition), ← Filter.find?_stated_eq_some_iff, Filter.keys,
    get?_takeKeys_eq]
  rfl

/-- What is taken out of any condition. -/
theorem extracted (condition : Filter) :
    Extracted build probe condition (condition.keys build probe)
      (condition.withoutKeys build probe) := by
  refine ⟨fun pair key => mem_entries_keys_iff build probe, ascending_keys condition, ?_, ?_⟩
  · intro pair hp
    obtain ⟨⟨_, key⟩, he, rfl⟩ := List.mem_map.mp hp
    obtain ⟨front, f, back, -, located, -⟩ := (mem_entries_keys_iff build probe).mp he
    exact located.columns build probe
  · exact remains_takeKeys (ascending_keys condition) condition .empty fun _ _ h => h

end

/-- **A join takes the first comparison of each pair of columns out of its condition, and only from
its conjuncts.**  So it is with every condition; and the residual condition of a plan is compiled
from what remains. -/
theorem extracted_compileJoin (build probe : Schema) :
    (∀ condition : Filter, Extracted build probe condition (condition.keys build probe)
      (condition.withoutKeys build probe)) ∧
    ∀ (c : Setting) (d : JoinDescriptor) (filter : Option Filter) (pool : LiteralPool)
      (plan : JoinPlan), (compileJoin c build probe d filter).result pool = .ok plan →
      ∃ rest, Extracted build probe (d.condition filter) plan.keys rest ∧
        (compileFilter c (build.merge probe) rest).outcome = .ok plan.residual := by
  refine ⟨extracted build probe, fun c d filter pool plan h => ?_⟩
  rw [(blind_compileJoin c build probe d filter).result_eq, outcome_compileJoin] at h
  obtain ⟨-, condition, hc, h⟩ := h
  obtain ⟨-, rfl⟩ := (joinCondition_eq_ok_iff build probe d).mp hc
  obtain ⟨residual, strategy, hr, -, rfl⟩ := (outcome_compileCondition c build probe d _ _).mp h
  exact ⟨_, extracted build probe (d.condition filter), hr⟩

/-- The filter and the descriptor equate the same columns in opposite order.  The filter comes
first, so its equation is the key, and that of the descriptor remains. -/
theorem extracted_compileJoin_opposite :
    let condition := Sample.condition
    ∃ plan, (compileJoin Sample.setting Sample.build Sample.probe
        (Sample.descriptor .left .nestedLoop) Sample.filter).result .empty = .ok plan ∧
      (⟨0, 0⟩, ⟨⟨.eq, .any⟩, true⟩) ∈ plan.keys.entries ∧
      (⟨0, 0⟩, ⟨⟨.eq, .any⟩, false⟩) ∉ plan.keys.entries ∧
      ∃ rest, condition.Remains Sample.build Sample.probe plan.keys rest ∧
        (compileFilter Sample.setting (Sample.build.merge Sample.probe) rest).outcome =
          .ok plan.residual := by
  intro condition
  have planned := Sample.result_compileJoin .left .nestedLoop rfl
  obtain ⟨rest, taken, residual⟩ :=
    (extracted_compileJoin Sample.build Sample.probe).2 _ _ _ _ _ planned
  have first : condition.FirstLocated Sample.build Sample.probe ⟨0, 0⟩ ⟨⟨.eq, .any⟩, true⟩ :=
    (Filter.find?_stated_eq_some_iff _ _).mp (by decide +kernel)
  have only : ¬ condition.FirstLocated Sample.build Sample.probe ⟨0, 0⟩ ⟨⟨.eq, .any⟩, false⟩ :=
    mt (Filter.find?_stated_eq_some_iff _ _).mpr (by decide +kernel)
  exact ⟨_, planned, (taken.entries _ _).mpr first, mt (taken.entries _ _).mp only, rest,
    taken.rest, residual⟩

end ColumnPlan
