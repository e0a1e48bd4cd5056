import Mathlib.Data.List.Forall2

/-!
# Steps that can fail, one after the other

* `bind_eq_ok_iff`       two steps succeed iff the first one does and then the second one;
* `exists_bind_ok_iff`   the same, when only success matters;
* `mapM_eq_ok_iff`       a list of steps succeeds iff each of them does;
* `exists_mapM_ok_iff`   the same, when only success matters;
* `exists_map_of_mapM`   then they are those of a function that cannot fail;
* `optionMapM_eq_ok_iff` a step that may be left out;
* `exceptMap_inj`        results that are told apart after a change;
* `mapM_eq_ok_of_imp`    steps in place of others that succeed;
* `exists_of_mem_mapM`   a result is the result of some step;
* `exists_mem_of_mapM`   each step has a result;
* `getElem?_of_mapM`     and it has it in its place;
* `exists_of_mapM_singleton`   one result is that of one step;
* `FailsWith K`          a step that fails only with errors of a kind, and then `failsWith_bind` and
                         `failsWith_mapM` for several.
-/

namespace ColumnPlan
variable {ε α β : Type}

theorem bind_eq_ok_iff {x : Except ε α} {f : α → Except ε β} {b : β} :
    x >>= f = .ok b ↔ ∃ a, x = .ok a ∧ f a = .ok b := by
  cases x with
  | error e =>
    constructor
    · intro h; cases h
    · rintro ⟨a, h, -⟩; cases h
  | ok a =>
    constructor
    · intro h; exact ⟨a, rfl, h⟩
    · rintro ⟨a', h, hf⟩
      cases h
      exact hf

theorem exists_bind_ok_iff {x : Except ε α} {f : α → Except ε β} :
    (∃ b, x >>= f = .ok b) ↔ ∃ a, x = .ok a ∧ ∃ b, f a = .ok b := by
  simp only [bind_eq_ok_iff]
  constructor
  · rintro ⟨b, a, ha, hb⟩
    exact ⟨a, ha, b, hb⟩
  · rintro ⟨a, ha, b, hb⟩
    exact ⟨b, a, ha, hb⟩

theorem ok_bind (a : α) (f : α → Except ε β) : Except.ok a >>= f = f a := rfl

theorem pure_eq_ok_iff {a b : α} : (pure a : Except ε α) = .ok b ↔ a = b :=
  ⟨fun h => Except.ok.inj h, fun h => h ▸ rfl⟩

theorem mapM_eq_ok_iff {f : α → Except ε β} {as : List α} {bs : List β} :
    as.mapM f = .ok bs ↔ List.Forall₂ (fun a b => f a = .ok b) as bs := by
  induction as generalizing bs with
  | nil => rw [List.mapM_nil, pure_eq_ok_iff, List.forall₂_nil_left_iff, eq_comm]
  | cons a as ih =>
    rw [List.mapM_cons, bind_eq_ok_iff, List.forall₂_cons_left_iff]
    constructor
    · rintro ⟨b, hb, h⟩
      obtain ⟨rest, hr, h⟩ := bind_eq_ok_iff.mp h
      exact ⟨b, rest, hb, ih.mp hr, (pure_eq_ok_iff.mp h).symm⟩
    · rintro ⟨b, rest, hb, hr, rfl⟩
      exact ⟨b, hb, bind_eq_ok_iff.mpr ⟨rest, ih.mpr hr, rfl⟩⟩

theorem exists_mapM_ok_iff {f : α → Except ε β} {as : List α} :
    (∃ bs, as.mapM f = .ok bs) ↔ ∀ a ∈ as, ∃ b, f a = .ok b := by
  induction as with
  | nil => exact ⟨fun _ a ha => absurd ha List.not_mem_nil, fun _ => ⟨[], rfl⟩⟩
  | cons a as ih =>
    rw [List.forall_mem_cons, ← ih]
    constructor
    · rintro ⟨bs, h⟩
      obtain ⟨b, rest, hb, hr, -⟩ := List.forall₂_cons_left_iff.mp (mapM_eq_ok_iff.mp h)
      exact ⟨⟨b, hb⟩, rest, mapM_eq_ok_iff.mpr hr⟩
    · rintro ⟨⟨b, hb⟩, rest, hr⟩
      exact ⟨b :: rest, mapM_eq_ok_iff.mpr (.cons hb (mapM_eq_ok_iff.mp hr))⟩

theorem optionMapM_eq_ok_iff {f : α → Except ε β} {a : Option α} {b : Option β} :
    a.mapM f = .ok b ↔ Option.Rel (fun a b => f a = .ok b) a b := by
  cases a with
  | none =>
    constructor
    · rintro ⟨⟩
      exact .none
    · rintro ⟨⟩
      rfl
  | some a =>
    rw [Option.mapM_some, map_eq_pure_bind, bind_eq_ok_iff]
    constructor
    · rintro ⟨x, hx, h⟩
      cases h
      exact .some hx
    · rintro ⟨hx⟩
      exact ⟨_, hx, rfl⟩

theorem exceptMap_inj {g : α → β} (hg : Function.Injective g) {x y : Except ε α}
    (h : x.map g = y.map g) : x = y := by
  cases x with
  | error e =>
    cases y with
    | error e' => exact congrArg Except.error (Except.error.inj h)
    | ok b => cases h
  | ok a =>
    cases y with
    | error e' => cases h
    | ok b => exact congrArg Except.ok (hg (Except.ok.inj h))

/-- Steps that all succeed give the list of their results. -/
theorem mapM_eq_map {f : α → Except ε β} {g : α → β} {as : List α}
    (h : ∀ a ∈ as, f a = .ok (g a)) : as.mapM f = .ok (as.map g) := by
  induction as with
  | nil => rfl
  | cons a as ih =>
    rw [List.mapM_cons, h a List.mem_cons_self,
      ih fun b hb => h b (List.mem_cons_of_mem _ hb)]
    rfl

/-- Steps that all succeed are those of a function that cannot fail. -/
theorem exists_map_of_mapM [Inhabited β] {f : α → Except ε β} {as : List α} {bs : List β}
    (h : as.mapM f = .ok bs) : ∃ g : α → β, bs = as.map g ∧ ∀ a ∈ as, f a = .ok (g a) := by
  have steps (a : α) (ha : a ∈ as) : f a = .ok ((f a).toOption.getD default) := by
    obtain ⟨b, hb⟩ := exists_mapM_ok_iff.mp ⟨bs, h⟩ a ha
    rw [hb]
    rfl
  exact ⟨_, Except.ok.inj (h.symm.trans (mapM_eq_map steps)), steps⟩

/-- Steps that succeed as other ones do, with the same results. -/
theorem mapM_eq_ok_of_imp {f g : α → Except ε β} {as : List α} {bs : List β}
    (hf : as.mapM f = .ok bs) (h : ∀ a ∈ as, ∀ b, f a = .ok b → g a = .ok b) :
    as.mapM g = .ok bs := by
  rw [mapM_eq_ok_iff] at hf ⊢
  induction hf with
  | nil => exact .nil
  | @cons a b as bs hb _ ih =>
    obtain ⟨ha, has⟩ := List.forall_mem_cons.mp h
    exact .cons (ha b hb) (ih has)

/-- A result comes from the step in its place. -/
theorem exists_of_getElem?_mapM {f : α → Except ε β} {as : List α} {bs : List β} {i : Nat} {b : β}
    (h : as.mapM f = .ok bs) (hb : bs[i]? = some b) : ∃ a, as[i]? = some a ∧ f a = .ok b := by
  rw [mapM_eq_ok_iff] at h
  induction h generalizing i with
  | nil => cases hb
  | @cons a b' as bs ha _ ih =>
    cases i with
    | zero =>
      cases hb
      exact ⟨a, rfl, ha⟩
    | succ i => exact ih hb

/-- A step has its result in its place. -/
theorem getElem?_of_mapM {f : α → Except ε β} {as : List α} {bs : List β} {i : Nat} {a : α}
    (h : as.mapM f = .ok bs) (ha : as[i]? = some a) : ∃ b, bs[i]? = some b ∧ f a = .ok b := by
  rw [mapM_eq_ok_iff] at h
  induction h generalizing i with
  | nil => cases ha
  | @cons a' b as bs hb _ ih =>
    cases i with
    | zero =>
      cases ha
      exact ⟨b, rfl, hb⟩
    | succ i => exact ih ha

theorem exists_of_mem_mapM {f : α → Except ε β} {as : List α} {bs : List β} {b : β}
    (h : as.mapM f = .ok bs) (hb : b ∈ bs) : ∃ a ∈ as, f a = .ok b := by
  obtain ⟨i, hi⟩ := List.mem_iff_getElem?.mp hb
  obtain ⟨a, ha, hf⟩ := exists_of_getElem?_mapM h hi
  exact ⟨a, List.mem_of_getElem? ha, hf⟩

theorem exists_mem_of_mapM {f : α → Except ε β} {as : List α} {bs : List β} {a : α}
    (h : as.mapM f = .ok bs) (ha : a ∈ as) : ∃ b ∈ bs, f a = .ok b := by
  obtain ⟨i, hi⟩ := List.mem_iff_getElem?.mp ha
  obtain ⟨b, hb, hf⟩ := getElem?_of_mapM h hi
  exact ⟨b, List.mem_of_getElem? hb, hf⟩

theorem length_of_mapM {f : α → Except ε β} {as : List α} {bs : List β}
    (h : as.mapM f = .ok bs) : bs.length = as.length :=
  (mapM_eq_ok_iff.mp h).length_eq.symm

theorem exists_of_mapM_singleton {f : α → Except ε β} {as : List α} {b : β}
    (h : as.mapM f = .ok [b]) : ∃ a, as = [a] ∧ f a = .ok b := by
  obtain ⟨a, rest, ha, none, rfl⟩ := List.forall₂_cons_right_iff.mp (mapM_eq_ok_iff.mp h)
  cases none
  exact ⟨a, rfl, ha⟩

/-! ### failures of a kind -/

section
variable {K : ε → Prop}

/-- The step yields something, or an error of this kind. -/
def FailsWith (K : ε → Prop) : Except ε α → Prop
  | .ok _ => True
  | .error e => K e

theorem failsWith_iff {x : Except ε α} : FailsWith K x ↔ ∀ e, x = .error e → K e := by
  cases x with
  | ok a => exact iff_of_true trivial nofun
  | error e =>
    refine ⟨?_, fun h => h e rfl⟩
    rintro h _ ⟨⟩
    exact h

/-- The second step may rely on what the first one has yielded. -/
theorem failsWith_bind {x : Except ε α} {f : α → Except ε β} (hx : FailsWith K x)
    (hf : ∀ a, x = .ok a → FailsWith K (f a)) : FailsWith K (x >>= f) := by
  cases x with
  | error e => exact hx
  | ok a => exact hf a rfl

theorem failsWith_mapM {f : α → Except ε β} {as : List α} (h : ∀ a ∈ as, FailsWith K (f a)) :
    FailsWith K (as.mapM f) := by
  induction as with
  | nil => trivial
  | cons a as ih =>
    obtain ⟨ha, has⟩ := List.forall_mem_cons.mp h
    rw [List.mapM_cons]
    exact failsWith_bind ha fun _ _ => failsWith_bind (ih has) fun _ _ => trivial

end

end ColumnPlan
