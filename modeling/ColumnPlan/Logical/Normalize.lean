import ColumnPlan.Logical.Fold

/-!
# Normal forms of filters

* `Filter.pushNot`       the filter without negations: they are pushed down to the leaves, where
                         they turn each operator into its opposite;
* `Filter.complexity`    the number of leaves that are expensive to evaluate;
* `Filter.reorder`       the filter with cheap parts before expensive ones;
* `Filter.normalize`     both passes, the second one if wanted.

No pass makes a filter larger (`size_normalize_le`).
-/

namespace ColumnPlan.Filter

/-! ### negations -/

mutual

def pushNot : Filter → Filter
  | .and children => .and (pushNotAll children)
  | .or children => .or (pushNotAll children)
  | .not child => negate child
  | .value p op v => .value p op v
  | .path l op r => .path l op r
  | .key op n => .key op n
  | .expr l op r => .expr l op r
  | .member p op vs => .member p op vs
  | .bool b => .bool b

/-- The negation of a filter, without negations. -/
def negate : Filter → Filter
  | .and children => .or (negateAll children)
  | .or children => .and (negateAll children)
  | .not child => pushNot child
  | .value p op v => .value p op.opposite v
  | .path l op r => .path l op.opposite r
  | .key op n => .key op.opposite n
  | .expr l op r => .expr l op.opposite r
  | .member p op vs => .member p op.opposite vs
  | .bool b => .bool !b

def pushNotAll : List Filter → List Filter
  | [] => []
  | f :: fs => pushNot f :: pushNotAll fs

def negateAll : List Filter → List Filter
  | [] => []
  | f :: fs => negate f :: negateAll fs

end

/-! ### cheap parts first -/

/-- A leaf is expensive if it compares with bytes or computes its operands. -/
def isExpensive : Filter → Bool
  | .value _ _ v => v.isBinary
  | .expr _ _ _ => true
  | .member _ _ vs => vs.any (·.isBinary)
  | _ => false

mutual

def complexity : Filter → Nat
  | .and children => complexityAll children
  | .or children => complexityAll children
  | .not child => complexity child
  | .value p op v => (isExpensive (.value p op v)).toNat
  | .path l op r => (isExpensive (.path l op r)).toNat
  | .key op n => (isExpensive (.key op n)).toNat
  | .expr l op r => (isExpensive (.expr l op r)).toNat
  | .member p op vs => (isExpensive (.member p op vs)).toNat
  | .bool b => (isExpensive (.bool b)).toNat

def complexityAll : List Filter → Nat
  | [] => 0
  | f :: fs => complexity f + complexityAll fs

end

/-- Sorts by complexity; filters of one complexity keep their order. -/
def sortByComplexity (fs : List Filter) : List Filter :=
  fs.mergeSort fun f g => f.complexity ≤ g.complexity

mutual

def reorder : Filter → Filter
  | .and children => .and (sortByComplexity (reorderAll children))
  | .or children => .or (sortByComplexity (reorderAll children))
  | .not child => .not (reorder child)
  | .value p op v => .value p op v
  | .path l op r => .path l op r
  | .key op n => .key op n
  | .expr l op r => .expr l op r
  | .member p op vs => .member p op vs
  | .bool b => .bool b

def reorderAll : List Filter → List Filter
  | [] => []
  | f :: fs => reorder f :: reorderAll fs

end

def normalize (reordering : Bool) (f : Filter) : Filter :=
  if reordering then f.pushNot.reorder else f.pushNot

/-! ### the size of a normal form -/

mutual

theorem size_pushNot_le : (f : Filter) → f.pushNot.size ≤ f.size
  | .and children => by
    have := listSize_pushNotAll_le children
    simp only [pushNot, Filter.size]
    omega
  | .or children => by
    have := listSize_pushNotAll_le children
    simp only [pushNot, Filter.size]
    omega
  | .not child => by
    have := size_negate_le child
    simp only [pushNot, Filter.size]
    omega
  | .value _ _ _ | .path _ _ _ | .key _ _ | .expr _ _ _ | .member _ _ _ | .bool _ => by
    simp only [pushNot, Filter.size, Nat.le_refl]

theorem size_negate_le : (f : Filter) → f.negate.size ≤ f.size
  | .and children => by
    have := listSize_negateAll_le children
    simp only [negate, Filter.size]
    omega
  | .or children => by
    have := listSize_negateAll_le children
    simp only [negate, Filter.size]
    omega
  | .not child => by
    have := size_pushNot_le child
    simp only [negate, Filter.size]
    omega
  | .value _ _ _ | .path _ _ _ | .key _ _ | .expr _ _ _ | .member _ _ _ | .bool _ => by
    simp only [negate, Filter.size, Nat.le_refl]

theorem listSize_pushNotAll_le :
    (fs : List Filter) → Filter.listSize (pushNotAll fs) ≤ Filter.listSize fs
  | [] => by simp only [pushNotAll, Nat.le_refl]
  | f :: fs => by
    have := size_pushNot_le f
    have := listSize_pushNotAll_le fs
    simp only [pushNotAll, Filter.listSize]
    omega

theorem listSize_negateAll_le :
    (fs : List Filter) → Filter.listSize (negateAll fs) ≤ Filter.listSize fs
  | [] => by simp only [negateAll, Nat.le_refl]
  | f :: fs => by
    have := size_negate_le f
    have := listSize_negateAll_le fs
    simp only [negateAll, Filter.listSize]
    omega

end

theorem listSize_perm {fs gs : List Filter} (h : fs.Perm gs) :
    Filter.listSize fs = Filter.listSize gs := by
  induction h with
  | nil => rfl
  | cons f _ ih => simp only [Filter.listSize, ih]
  | swap f g _ => simp only [Filter.listSize]; omega
  | trans _ _ ih₁ ih₂ => exact ih₁.trans ih₂

theorem perm_sortByComplexity (fs : List Filter) : (sortByComplexity fs).Perm fs :=
  List.mergeSort_perm ..

mutual

theorem size_reorder : (f : Filter) → f.reorder.size = f.size
  | .and children => by
    simp only [reorder, Filter.size, listSize_perm (perm_sortByComplexity _),
      listSize_reorderAll children]
  | .or children => by
    simp only [reorder, Filter.size, listSize_perm (perm_sortByComplexity _),
      listSize_reorderAll children]
  | .not child => by simp only [reorder, Filter.size, size_reorder child]
  | .value _ _ _ | .path _ _ _ | .key _ _ | .expr _ _ _ | .member _ _ _ | .bool _ => by
    simp only [reorder, Filter.size]

theorem listSize_reorderAll :
    (fs : List Filter) → Filter.listSize (reorderAll fs) = Filter.listSize fs
  | [] => by simp only [reorderAll]
  | f :: fs => by
    simp only [reorderAll, Filter.listSize, size_reorder f, listSize_reorderAll fs]

end

theorem size_normalize_le (reordering : Bool) (f : Filter) :
    (f.normalize reordering).size ≤ f.size := by
  unfold normalize
  split
  · rw [size_reorder]; exact size_pushNot_le f
  · exact size_pushNot_le f

end ColumnPlan.Filter
