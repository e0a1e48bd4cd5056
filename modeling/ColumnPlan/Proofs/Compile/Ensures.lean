import ColumnPlan.Proofs.Compile.Outcome

/-!
# What a compilation ensures

What is in a pool of literals stays there, so what a compilation says of the pool that it leaves
behind is true in every later pool as well, and needs no second look when more is compiled.

* `Compile.Ensures m P`         the pool grows, and what is yielded has a property in every pool
                                that holds what the pool then holds;
* `ensures_bind`                steps one after the other;
* `ensures_mapM`                a list of steps.
-/

namespace ColumnPlan

namespace Compile
variable {α β : Type}

def Ensures (m : Compile α) (P : LiteralPool → α → Prop) : Prop :=
  ∀ pool : LiteralPool, pool.values ⊆ (m.after pool).values ∧
    ∀ a, m.result pool = .ok a → ∀ later : LiteralPool,
      (m.after pool).values ⊆ later.values → P later a

/-- What is yielded has the property in the pool that is left behind. -/
theorem Ensures.yields {m : Compile α} {P : LiteralPool → α → Prop} (h : Ensures m P)
    {pool : LiteralPool} {a : α} (ha : m.result pool = .ok a) : P (m.after pool) a :=
  (h pool).2 a ha _ fun _ hv => hv

theorem after_bind (m : Compile α) (f : α → Compile β) (pool : LiteralPool) :
    (m >>= f).after pool =
      match m.result pool with
      | .ok a => (f a).after (m.after pool)
      | .error _ => m.after pool := by
  show ((ExceptT.bindCont f (m.run.run pool).1 : StateM LiteralPool _).run
    (m.run.run pool).2).2 = _
  unfold result after
  cases (m.run.run pool).1 with
  | error e => rfl
  | ok a => rfl

theorem ensures_pure {a : α} {P : LiteralPool → α → Prop} (h : ∀ pool, P pool a) :
    Ensures (pure a) P := by
  intro pool
  refine ⟨fun _ hv => hv, ?_⟩
  intro b hb later _
  cases hb
  exact h later

theorem ensures_throw (e : Error) (P : LiteralPool → α → Prop) :
    Ensures (throw e : Compile α) P := fun _ => ⟨fun _ hv => hv, nofun⟩

theorem ensures_lift (x : Except Error α) :
    Ensures (liftM x : Compile α) fun _ a => x = .ok a :=
  fun _ => ⟨fun _ hv => hv, fun _ h _ _ => h⟩

theorem ensures_literal (v : Value) : Ensures (literal v) fun pool w => w ∈ pool.values := by
  intro pool
  have grown : ∀ x, x ∈ ((literal v).after pool).values ↔ x = v ∨ x ∈ pool.values :=
    pool.mem_intern v
  refine ⟨fun x hx => (grown x).mpr (.inr hx), ?_⟩
  intro w hw later hl
  rw [result_literal] at hw
  cases hw
  exact hl ((grown v).mpr (.inl rfl))

/-- What the first step yields keeps its property until the last step is done. -/
theorem ensures_bind {m : Compile α} {f : α → Compile β} {P : LiteralPool → α → Prop}
    {Q : LiteralPool → β → Prop} (hm : Ensures m P)
    (hf : ∀ a, Ensures (f a) fun pool b => P pool a → Q pool b) : Ensures (m >>= f) Q := by
  intro pool
  obtain ⟨grows, yields⟩ := hm pool
  rw [after_bind, result_bind]
  cases hr : m.result pool with
  | error e => exact ⟨grows, nofun⟩
  | ok a =>
    obtain ⟨grows', yields'⟩ := hf a (m.after pool)
    refine ⟨fun v hv => grows' (grows hv), ?_⟩
    intro b hb later hl
    exact yields' b hb later hl (yields a hr later fun v hv => hl (grows' hv))

theorem Ensures.imp {m : Compile α} {P Q : LiteralPool → α → Prop} (hm : Ensures m P)
    (h : ∀ pool a, P pool a → Q pool a) : Ensures m Q := by
  intro pool
  obtain ⟨grows, yields⟩ := hm pool
  exact ⟨grows, fun a ha later hl => h later a (yields a ha later hl)⟩

theorem ensures_mapM {f : α → Compile β} {P : LiteralPool → β → Prop} {as : List α}
    (h : ∀ a ∈ as, Ensures (f a) P) :
    Ensures (as.mapM f) fun pool bs => ∀ b ∈ bs, P pool b := by
  induction as with
  | nil => exact ensures_pure fun _ b hb => absurd hb List.not_mem_nil
  | cons a as ih =>
    obtain ⟨ha, has⟩ := List.forall_mem_cons.mp h
    rw [List.mapM_cons]
    refine ensures_bind ha fun b => ensures_bind (ih has) fun bs => ensures_pure ?_
    intro pool rest first
    exact List.forall_mem_cons.mpr ⟨first, rest⟩

end Compile

end ColumnPlan
