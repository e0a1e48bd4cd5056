import ColumnPlan.Logical.Text
import ColumnPlan.Physical.Connective

/-!
# The pieces of a text

The text of an expression is cut into words, signs, and joints between two operands; what stands in
brackets, or from `CASE` to `END`, is one piece with pieces inside.  So a joint that binds operands
inside of another one's operand is told apart from its own by its place.

* `Joint`                        what stands between two operands;
* `Piece`, `Piece.listChars`     a piece, and the characters of some pieces;
* `joined`, `separated`          pieces with joints between them;
* `Expr.pieces`, `Filter.pieces` the pieces of an expression and of a filter;
* `chars_pieces`                 they make up its text.
-/

namespace ColumnPlan

/-- What stands between two operands. -/
inductive Joint where
  | arith (op : ArithmeticOp)
  | compare (op : CompareOp)
  | member (op : MemberOp)
  | connective (k : Connective)
  /-- In front of the condition of a branch. -/
  | condition
  /-- In front of the result of a branch. -/
  | result
  /-- In front of the last result. -/
  | otherwise
  | comma
  deriving DecidableEq

def Joint.text : Joint → String
  | .arith op => " " ++ op.text ++ " "
  | .compare op => " " ++ op.text ++ " "
  | .member op => " " ++ op.text ++ " "
  | .connective .conjunction => " && "
  | .connective .disjunction => " || "
  | .condition => " WHEN "
  | .result => " THEN "
  | .otherwise => " ELSE "
  | .comma => ", "

inductive Piece where
  | word (w : List Char)
  | sign (op : ArithmeticOp)
  | joint (j : Joint)
  /-- A bracket.  That of a call that takes each argument once has a mark in front. -/
  | group (marked : Bool) (inside : List Piece)
  | cases (inside : List Piece)

namespace Piece

def opening : Bool → List Char
  | false => "(".toList
  | true => "(distinct ".toList

mutual

def chars : Piece → List Char
  | .word w => w
  | .sign op => op.text.toList
  | .joint j => j.text.toList
  | .group marked ps => opening marked ++ (listChars ps ++ ")".toList)
  | .cases ps => "CASE".toList ++ (listChars ps ++ " END".toList)

def listChars : List Piece → List Char
  | [] => []
  | p :: ps => p.chars ++ listChars ps

end

section
variable (p : Piece) (ps qs : List Piece)

@[simp] theorem chars_word (w : List Char) : (word w).chars = w := rfl

@[simp] theorem chars_sign (op : ArithmeticOp) : (sign op).chars = op.text.toList := rfl

@[simp] theorem chars_joint (j : Joint) : (joint j).chars = j.text.toList := rfl

theorem chars_group (marked : Bool) :
    (group marked ps).chars = opening marked ++ listChars ps ++ ")".toList :=
  (List.append_assoc _ _ _).symm

@[simp] theorem chars_group_false :
    (group false ps).chars = "(".toList ++ listChars ps ++ ")".toList := rfl

@[simp] theorem chars_cases :
    (cases ps).chars = "CASE".toList ++ listChars ps ++ " END".toList :=
  (List.append_assoc _ _ _).symm

@[simp] theorem listChars_nil : listChars [] = [] := rfl

@[simp] theorem listChars_cons : listChars (p :: ps) = p.chars ++ listChars ps := rfl

@[simp] theorem listChars_append : listChars (ps ++ qs) = listChars ps ++ listChars qs := by
  induction ps with
  | nil => rfl
  | cons p ps ih => rw [List.cons_append, listChars_cons, listChars_cons, ih, List.append_assoc]

theorem listChars_singleton : listChars [p] = p.chars := List.append_nil p.chars

end

end Piece

/-! ### pieces with joints between them -/

/-- A first part and further ones, each behind its separator. -/
def joined {α : Type} (first : List α) (rest : List (α × List α)) : List α :=
  first ++ rest.flatMap fun part => part.1 :: part.2

/-- Parts with a separator between any two of them. -/
def separated {α : Type} (separator : α) : List (List α) → List α
  | [] => []
  | first :: rest => joined first (rest.map (separator, ·))

theorem joined_cons {α : Type} (first : List α) (part : α × List α) (rest : List (α × List α)) :
    joined first (part :: rest) = first ++ part.1 :: joined part.2 rest := by
  unfold joined
  rw [List.flatMap_cons, List.cons_append]

theorem listChars_separated (j : Joint) (parts : List (List Piece)) :
    Piece.listChars (separated (.joint j) parts) =
      j.text.toList.intercalate (parts.map Piece.listChars) := by
  cases parts with
  | nil => rfl
  | cons first rest =>
    show Piece.listChars (joined first (rest.map (Piece.joint j, ·))) = _
    induction rest generalizing first with
    | nil =>
      rw [List.map_nil, joined, List.flatMap_nil, List.append_nil]
      exact (List.append_nil _).symm
    | cons second rest ih =>
      rw [List.map_cons, joined_cons, Piece.listChars_append, Piece.listChars_cons, ih second]
      rfl

/-! ### the pieces of expressions and filters -/

/-- A number below zero is a sign and a word. -/
def Value.pieces (v : Value) : List Piece :=
  match v.text.toList with
  | '-' :: w => [.sign .minus, .word w]
  | w => [.word w]

def Params.pieces (params : Params) : List (List Piece) :=
  params.positional.map (·.pieces) ++
    params.named.entries.map fun (k, v) => [.word (k ++ "=" ++ v.text).toList]

def chainPieces (terms : List (List Piece)) (ops : List ArithmeticOp) : List Piece :=
  match terms with
  | [] => []
  | term :: terms =>
    .joint (.arith (ops.head?.getD .plus)) :: (term ++ chainPieces terms ops.tail)

def branchPieces : List (List Piece) → List (List Piece) → List (Piece × List Piece)
  | c :: cs, r :: rs => (.joint .condition, c) :: (.joint .result, r) :: branchPieces cs rs
  | _, _ => []

def connectivePieces (k : Connective) : List (List Piece) → List Piece
  | [] => [.word (if k = .conjunction then "true" else "false").toList]
  | parts => [.group false (separated (.joint (.connective k)) parts)]

/-- The pieces in the brackets of a call. -/
def argumentPieces (args : List (List Piece)) (params : Params) : List Piece :=
  separated (.joint .comma) (args ++ params.pieces)

mutual

def Expr.pieces : Expr → List Piece
  | .path pattern => [.word pattern.toList]
  | .key => [.word keyName.toList]
  | .const value => value.pieces
  | .binary op left right => left.pieces ++ .joint (.arith op) :: right.pieces
  | .unary op operand => .sign op :: operand.pieces
  | .bracket inner none => [.group false inner.pieces]
  | .bracket _ (some label) => [.word label.toList]
  | .caseWhen conditions results otherwise =>
    [.cases (joined [] (branchPieces (Filter.listPieces conditions) (Expr.listPieces results) ++
      Expr.optionPieces otherwise))]
  | .call name args params distinct =>
    [.word name.toList, .group distinct (argumentPieces (Expr.listPieces args) params)]
  | .chain [] _ => []
  | .chain (term :: terms) ops =>
    let op := ops.head?.getD .plus
    (if op = .plus then [] else [.sign op]) ++ term.pieces ++
      chainPieces (Expr.listPieces terms) ops.tail

def Expr.listPieces : List Expr → List (List Piece)
  | [] => []
  | e :: es => e.pieces :: Expr.listPieces es

def Expr.optionPieces : Option Expr → List (Piece × List Piece)
  | none => []
  | some e => [(.joint .otherwise, e.pieces)]

def Filter.pieces : Filter → List Piece
  | .value path op value => .word path.toList :: .joint (.compare op) :: value.pieces
  | .path left op right => [.word left.toList, .joint (.compare op), .word right.toList]
  | .key op value => .word keyName.toList :: .joint (.compare op) :: (Value.long value).pieces
  | .expr left op right => left.pieces ++ .joint (.compare op) :: right.pieces
  | .member path op values =>
    [.word path.toList, .joint (.member op),
      .group false (separated (.joint .comma) (values.map (·.pieces)))]
  | .bool value => [.word (if value then "true" else "false").toList]
  | .and children => connectivePieces .conjunction (Filter.listPieces children)
  | .or children => connectivePieces .disjunction (Filter.listPieces children)
  | .not child => [.word ['!'], .group false child.pieces]

def Filter.listPieces : List Filter → List (List Piece)
  | [] => []
  | f :: fs => f.pieces :: Filter.listPieces fs

end

/-! ### the text -/

theorem Value.chars_pieces (v : Value) : Piece.listChars v.pieces = v.text.toList := by
  unfold pieces
  split
  · next w negative =>
    rw [negative]
    exact congrArg ('-' :: ·) (List.append_nil w)
  · exact Piece.listChars_singleton _

theorem Params.chars_pieces (params : Params) (args : List (List Piece)) (texts : List String)
    (h : args.map Piece.listChars = texts.map String.toList) :
    (args ++ params.pieces).map Piece.listChars =
      (argumentTexts texts params).map String.toList := by
  unfold argumentTexts pieces
  rw [List.map_append, List.map_append, List.map_append, List.map_append, h, List.append_assoc]
  congr 2
  · rw [List.map_map, List.map_map]
    exact List.map_congr_left fun v _ => v.chars_pieces
  · rw [List.map_map, List.map_map]
    exact List.map_congr_left fun entry _ => Piece.listChars_singleton _

theorem chars_chainPieces {parts : List (List Piece)} {texts : List String}
    (h : parts.map Piece.listChars = texts.map String.toList) (ops : List ArithmeticOp) :
    Piece.listChars (chainPieces parts ops) = (chainText false texts ops).toList := by
  induction parts generalizing texts ops with
  | nil =>
    rw [List.map_nil, eq_comm, List.map_eq_nil_iff] at h
    rw [h]
    rfl
  | cons part parts ih =>
    obtain ⟨text, texts, rfl, ht, hs⟩ := List.map_eq_cons_iff.mp h.symm
    rw [chainPieces, chainText, Piece.listChars_cons, Piece.listChars_append, ih hs.symm]
    simp only [Bool.false_eq_true, if_false, Piece.chars_joint, Joint.text, String.toList_append,
      ht, List.append_assoc]

theorem chars_branchPieces {cs rs : List (List Piece)} {conditions results : List String}
    (hc : cs.map Piece.listChars = conditions.map String.toList)
    (hr : rs.map Piece.listChars = results.map String.toList) :
    Piece.listChars (joined [] (branchPieces cs rs)) = (branchesText conditions results).toList := by
  induction cs generalizing rs conditions results with
  | nil =>
    rw [List.map_nil, eq_comm, List.map_eq_nil_iff] at hc
    rw [hc]
    rfl
  | cons c cs ih =>
    obtain ⟨condition, conditions, rfl, cc, hcs⟩ := List.map_eq_cons_iff.mp hc.symm
    cases rs with
    | nil =>
      rw [List.map_nil, eq_comm, List.map_eq_nil_iff] at hr
      rw [hr]
      rfl
    | cons r rs =>
      obtain ⟨result, results, rfl, rr, hrs⟩ := List.map_eq_cons_iff.mp hr.symm
      have rest := ih hcs.symm hrs.symm
      rw [branchPieces, joined_cons, joined_cons, branchesText]
      simp only [joined, List.nil_append, Piece.listChars_cons, Piece.listChars_append,
        Piece.chars_joint, Joint.text, String.toList_append, List.append_assoc] at rest ⊢
      rw [rest, cc, rr]

theorem chars_connectivePieces {parts : List (List Piece)} {texts : List String}
    (h : parts.map Piece.listChars = texts.map String.toList) (k : Connective)
    {joiner empty : String} (hj : (Joint.connective k).text = joiner)
    (he : (if k = .conjunction then "true" else "false") = empty) :
    Piece.listChars (connectivePieces k parts) = (connectiveText joiner empty texts).toList := by
  cases parts with
  | nil =>
    rw [List.map_nil, eq_comm, List.map_eq_nil_iff] at h
    rw [h, connectivePieces, Piece.listChars_singleton, Piece.chars_word, he]
    rfl
  | cons part parts =>
    obtain ⟨text, texts, rfl, -, -⟩ := List.map_eq_cons_iff.mp h.symm
    rw [connectivePieces, Piece.listChars_singleton, Piece.chars_group_false, listChars_separated, h, hj]
    · simp only [connectiveText, String.toList_append, String.toList_intercalate]
    · exact List.cons_ne_nil _ _

mutual

/-- **The pieces of an expression make up its text.** -/
theorem Expr.chars_pieces : (e : Expr) → Piece.listChars e.pieces = e.text.toList
  | .path pattern => Piece.listChars_singleton _
  | .key => Piece.listChars_singleton _
  | .const value => value.chars_pieces
  | .binary op left right => by
    rw [Expr.pieces, Piece.listChars_append, Piece.listChars_cons, left.chars_pieces,
      right.chars_pieces, Expr.text]
    simp only [Piece.chars_joint, Joint.text, String.toList_append, List.append_assoc]
  | .unary op operand => by
    rw [Expr.pieces, Piece.listChars_cons, operand.chars_pieces, Expr.text, String.toList_append,
      Piece.chars_sign]
  | .bracket inner none => by
    rw [Expr.pieces, Piece.listChars_singleton, Piece.chars_group_false, inner.chars_pieces, Expr.text]
    simp only [Option.getD_none, String.toList_append]
  | .bracket inner (some label) => Piece.listChars_singleton _
  | .caseWhen conditions results otherwise => by
    have branches := chars_branchPieces (Filter.chars_listPieces conditions)
      (Expr.chars_listPieces results)
    have last := Expr.chars_optionPieces otherwise
    rw [Expr.pieces, Piece.listChars_singleton, Piece.chars_cases, Expr.text]
    simp only [joined, List.nil_append, List.flatMap_append, Piece.listChars_append,
      String.toList_append, List.append_assoc] at branches last ⊢
    rw [branches, last]
  | .call name args params distinct => by
    have arguments := params.chars_pieces _ _ (Expr.chars_listPieces args)
    rw [Expr.pieces, Expr.text, Piece.listChars_cons, Piece.listChars_singleton, Piece.chars_group,
      argumentPieces, listChars_separated, arguments]
    simp only [Piece.chars_word, String.toList_append, String.toList_intercalate,
      List.append_assoc]
    cases distinct with
    | true => rfl
    | false => rfl
  | .chain [] ops => rfl
  | .chain (term :: terms) ops => by
    have rest := chars_chainPieces (Expr.chars_listPieces terms) ops.tail
    rw [Expr.pieces, Expr.text, Expr.texts, chainText, Piece.listChars_append,
      Piece.listChars_append, rest, term.chars_pieces]
    simp only [if_true, String.toList_append, List.append_assoc]
    congr 1
    split
    · rfl
    · exact Piece.listChars_singleton _

theorem Expr.chars_listPieces : (es : List Expr) →
    (Expr.listPieces es).map Piece.listChars = (Expr.texts es).map String.toList
  | [] => rfl
  | e :: es => by
    rw [Expr.listPieces, Expr.texts, List.map_cons, List.map_cons, e.chars_pieces,
      Expr.chars_listPieces es]

theorem Expr.chars_optionPieces : (otherwise : Option Expr) →
    Piece.listChars (joined [] (Expr.optionPieces otherwise)) =
      (Expr.otherwiseText otherwise).toList
  | none => rfl
  | some e => by
    rw [Expr.optionPieces, joined_cons, joined, List.flatMap_nil, List.append_nil, List.nil_append,
      Piece.listChars_cons, e.chars_pieces, Expr.otherwiseText, String.toList_append]
    rfl

theorem Filter.chars_pieces : (f : Filter) → Piece.listChars f.pieces = f.text.toList
  | .value path op value => by
    simp only [Filter.pieces, Filter.text, Piece.listChars_cons, Piece.chars_word,
      Piece.chars_joint, Joint.text, value.chars_pieces, String.toList_append, List.append_assoc]
  | .path left op right => by
    simp only [Filter.pieces, Filter.text, Piece.listChars_cons, Piece.listChars_nil,
      Piece.chars_word, Piece.chars_joint, Joint.text, String.toList_append, List.append_assoc,
      List.append_nil]
  | .key op value => by
    simp only [Filter.pieces, Filter.text, Piece.listChars_cons, Piece.chars_word,
      Piece.chars_joint, Joint.text, Value.chars_pieces, Value.text, String.toList_append,
      List.append_assoc]
  | .expr left op right => by
    rw [Filter.pieces, Piece.listChars_append, Piece.listChars_cons, left.chars_pieces,
      right.chars_pieces, Filter.text]
    simp only [Piece.chars_joint, Joint.text, String.toList_append, List.append_assoc]
  | .member path op values => by
    have each : (values.map (·.pieces)).map Piece.listChars =
        (values.map (·.text)).map String.toList := by
      rw [List.map_map, List.map_map]
      exact List.map_congr_left fun v _ => v.chars_pieces
    have opened : " (".toList = " ".toList ++ "(".toList := rfl
    rw [Filter.pieces, Filter.text, Piece.listChars_cons, Piece.listChars_cons,
      Piece.listChars_singleton, Piece.chars_group_false, listChars_separated, each]
    simp only [Piece.chars_word, Piece.chars_joint, Joint.text, String.toList_append,
      String.toList_intercalate, List.append_assoc, opened]
  | .bool value => Piece.listChars_singleton _
  | .and children => chars_connectivePieces (Filter.chars_listPieces children) .conjunction rfl rfl
  | .or children => chars_connectivePieces (Filter.chars_listPieces children) .disjunction rfl rfl
  | .not child => by
    have opened : "!(".toList = ['!'] ++ "(".toList := rfl
    rw [Filter.pieces, Filter.text, Piece.listChars_cons, Piece.listChars_singleton,
      Piece.chars_group_false, child.chars_pieces]
    simp only [Piece.chars_word, String.toList_append, List.append_assoc, opened]

theorem Filter.chars_listPieces : (fs : List Filter) →
    (Filter.listPieces fs).map Piece.listChars = (Filter.texts fs).map String.toList
  | [] => rfl
  | f :: fs => by
    rw [Filter.listPieces, Filter.texts, List.map_cons, List.map_cons, f.chars_pieces,
      Filter.chars_listPieces fs]

end

end ColumnPlan
