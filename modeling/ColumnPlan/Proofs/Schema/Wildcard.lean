import ColumnPlan.Proofs.Pattern.Characters
import ColumnPlan.Proofs.Pattern.Groups
import ColumnPlan.Proofs.Schema.Glob
import ColumnPlan.Schema.Resolve

/-!
# Globs as regular expressions

The expression of a glob is read back part by part: a run of stars as any characters, and any other
character as itself, since a character with a meaning of its own has a backslash in front.  So the
expression has a meaning for every glob, and it spans a whole name just if the glob matches the name.

* `squeeze`              a glob with one star for each run of stars;
* `source_eq`            the expression of a glob, part by part;
* `parseFrom_part`       a part is read back as what it stands for;
* `regexOf?_source`      the expression has a meaning;
* `isMatch_wildcard_iff`  it matches what the glob matches;
* `exists_ofGlob`         every glob has a matcher, and it accepts what the glob accepts;
* `matchingWith_eq`       an engine with limits.
-/

namespace ColumnPlan

open Pattern

namespace Glob

/-! ### the expression, part by part -/

/-- A glob without the stars behind a star. -/
def squeeze (inStar : Bool) : Chars → Chars
  | [] => []
  | c :: cs =>
    if c = '*' then if inStar then squeeze true cs else '*' :: squeeze true cs
    else c :: squeeze false cs

/-- The expression of one part of a glob. -/
def partText (c : Char) : Chars := if c = '*' then ['.', '*'] else escape [c]

/-- The expression so far, the characters since the last star included. -/
def Reading.text (r : Reading) : Chars := r.source ++ escape r.literal

theorem escape_append (cs ds : Chars) : escape (cs ++ ds) = escape cs ++ escape ds :=
  List.flatMap_append

theorem Reading.text_foldl_step (cs : Chars) (r : Reading) :
    (cs.foldl Reading.step r).text = r.text ++ (squeeze r.inStar cs).flatMap partText := by
  induction cs generalizing r with
  | nil => exact (List.append_nil _).symm
  | cons c cs ih =>
    rw [List.foldl_cons, ih, squeeze, Reading.step]
    by_cases star : c = '*'
    · rw [if_pos star, if_pos star]
      cases inStar : r.inStar with
      | true => rw [if_pos rfl, if_pos rfl, inStar]
      | false =>
        rw [if_neg Bool.false_ne_true, if_neg Bool.false_ne_true, List.flatMap_cons,
          ← List.append_assoc]
        show r.source ++ escape r.literal ++ ['.', '*'] ++ [] ++ _ = _
        rw [List.append_nil]
        rfl
    · have text : partText c = escape [c] := if_neg star
      rw [if_neg star, if_neg star, List.flatMap_cons, text, Reading.text, escape_append]
      simp only [Reading.text, List.append_assoc]

theorem source_eq (glob : Chars) :
    source glob =
      Reading.initial.text ++ ((squeeze false glob).flatMap partText ++ ['$']) := by
  have whole := Reading.text_foldl_step glob .initial
  show (glob.foldl Reading.step .initial).text ++ ['$'] = _
  rw [whole, List.append_assoc]
  rfl

/-- A run of stars matches what one star matches. -/
theorem matches_squeeze_iff (glob : Chars) :
    (∀ name, Matches (squeeze false glob) name ↔ Matches glob name) ∧
      ∀ name, Matches ('*' :: squeeze true glob) name ↔ Matches ('*' :: glob) name := by
  induction glob with
  | nil => exact ⟨fun _ => Iff.rfl, fun _ => Iff.rfl⟩
  | cons c cs ih =>
    obtain ⟨outside, behind⟩ := ih
    by_cases star : c = '*'
    · subst star
      refine ⟨fun name => behind name, fun name => ?_⟩
      show Matches ('*' :: squeeze true cs) name ↔ _
      rw [behind, matches_star_star_iff]
    · have cut (inStar : Bool) : squeeze inStar (c :: cs) = c :: squeeze false cs := if_neg star
      have both (name : Chars) : Matches (c :: squeeze false cs) name ↔ Matches (c :: cs) name := by
        rw [matches_char_iff star, matches_char_iff star]
        simp only [outside]
      refine ⟨fun name => ?_, fun name => ?_⟩
      · rw [cut]
        exact both name
      · rw [cut, matches_star_iff, matches_star_iff]
        simp only [both]

/-! ### reading the expression -/

/-- What a part is read as. -/
def partAst (c : Char) : Ast :=
  if c = '*' then .repetition (.primitive .dot) 0 none else .primitive (.literal ⟨c, false⟩)

section
variable {c : Char} {s : State} (rest : Chars)

theorem isDigit_of_isMeta (special : isMeta c = true) : c.isDigit = false := by
  have all : ("\\.+*?()|[]\x7b\x7d^$#&-~".toList.all fun d => !d.isDigit) = true := rfl
  have other := List.all_eq_true.mp all c (List.contains_iff_mem.mp special)
  rwa [Bool.not_eq_true'] at other

theorem item_escaped (special : isMeta c = true) :
    item s ('\\' :: c :: rest) = some (s.push (.primitive (.literal ⟨c, false⟩)), rest) := by
  have escapable : isEscapable c = true := by
    unfold isEscapable
    rw [special, Bool.true_or]
  have read : primitive s.free ('\\' :: c :: rest) = some (.literal ⟨c, false⟩, rest) := by
    show Pattern.escape s.free (c :: rest) = _
    unfold Pattern.escape
    dsimp only
    rw [if_neg (Bool.eq_false_iff.mp (isDigit_of_isMeta special)), if_pos escapable]
  show unit s ('\\' :: c :: rest) = _
  rw [unit, read]
  rfl

theorem item_plain (plain : isMeta c = false) :
    item s (c :: rest) = some (s.push (.primitive (.literal ⟨c, false⟩)), rest) := by
  have ne {d : Char} {cs : Chars} (special : isMeta d = true) : c :: rest ≠ d :: cs := by
    intro same
    rw [(List.cons.inj same).1, special] at plain
    cases plain
  have read : primitive s.free (c :: rest) = some (.literal ⟨c, false⟩, rest) := by
    unfold primitive
    split
    case h_1 same => cases same
    case h_6 same => cases same; rfl
    all_goals next same => exact absurd same (ne rfl)
  unfold item
  split
  case h_9 =>
    rw [unit, read]
    rfl
  all_goals next same => exact absurd same (ne rfl)

theorem parseFrom_literal (free : s.free = false) :
    parseFrom s (escape [c] ++ rest) =
      parseFrom (s.push (.primitive (.literal ⟨c, false⟩))) rest := by
  have space (cs : Chars) : skipSpace s.free cs = cs := by
    rw [free]
    rfl
  have text : escape [c] = if isMeta c then ['\\', c] else [c] := List.flatMap_singleton ..
  rw [text]
  by_cases special : isMeta c = true
  · rw [if_pos special, List.cons_append, List.singleton_append, parseFrom_item (space _),
      item_escaped rest special]
    rfl
  · rw [if_neg special, List.singleton_append, parseFrom_item (space _),
      item_plain rest (Bool.eq_false_iff.mpr special)]
    rfl

theorem parseFrom_star (free : s.free = false) (calm : rest.head? ≠ some '?') :
    parseFrom s ('.' :: '*' :: rest) =
      parseFrom (s.push (.repetition (.primitive .dot) 0 none)) rest := by
  have space (cs : Chars) : skipSpace s.free cs = cs := by
    rw [free]
    rfl
  have greedy : dropLazy rest = rest := by
    unfold dropLazy
    split
    · exact absurd rfl calm
    · rfl
  rw [parseFrom_item (space _)]
  show parseFrom (s.push (.primitive .dot)) ('*' :: rest) = _
  rw [parseFrom_item (s := s.push (.primitive .dot)) (space _)]
  show parseFrom (s.push (.repetition (.primitive .dot) 0 none)) (dropLazy rest) = _
  rw [greedy]

/-- **A part is read back as what it stands for.** -/
theorem parseFrom_part (free : s.free = false) (calm : rest.head? ≠ some '?') :
    parseFrom s (partText c ++ rest) = parseFrom (s.push (partAst c)) rest := by
  unfold partText partAst
  split
  · exact parseFrom_star rest free calm
  · exact parseFrom_literal rest free

end

/-- A part does not begin like the mark of a lazy repetition. -/
theorem head?_parts (cs : Chars) : (cs.flatMap partText ++ ['$']).head? ≠ some '?' := by
  intro mark
  cases cs with
  | nil => cases mark
  | cons c cs =>
    rw [List.flatMap_cons, List.append_assoc] at mark
    unfold partText escape at mark
    rw [List.flatMap_singleton] at mark
    split at mark
    · cases mark
    · split at mark
      · cases mark
      · next plain =>
        cases mark
        exact plain rfl

def endAst : Ast := .primitive (.assertion .lineEnd)

theorem parseFrom_parts (cs : Chars) (parts : List Ast) :
    parseFrom ⟨false, [], [], [], parts⟩ (cs.flatMap partText ++ ['$']) =
      some (.ofParts (parts.reverse ++ (cs.map partAst ++ [endAst])), []) := by
  induction cs generalizing parts with
  | nil =>
    rw [List.flatMap_nil, List.nil_append, parseFrom_item rfl]
    show parseFrom ⟨false, [], [], [], endAst :: parts⟩ [] = _
    rw [parseFrom_end rfl]
    show some (Ast.ofParts (endAst :: parts).reverse, _) = _
    rw [List.reverse_cons]
    rfl
  | cons c cs ih =>
    rw [List.flatMap_cons, List.append_assoc, parseFrom_part _ rfl (head?_parts cs)]
    show parseFrom ⟨false, [], [], [], partAst c :: parts⟩ _ = _
    rw [ih, List.reverse_cons, List.append_assoc]
    rfl

/-- What stands in front of the parts. -/
def startAsts : List Ast := [.flags [(.dotAll, true)], .primitive (.assertion .lineStart)]

theorem parse?_source (glob : Chars) :
    parse? (source glob) =
      some (.concat (startAsts ++ ((squeeze false glob).map partAst ++ [endAst]))) := by
  have start (rest : Chars) : parseFrom .initial ('(' :: '?' :: 's' :: ')' :: '^' :: rest) =
      parseFrom ⟨false, [], [], [], startAsts.reverse⟩ rest := by
    rw [parseFrom_item rfl]
    show parseFrom (State.initial.push (.flags [(.dotAll, true)])) ('^' :: rest) = _
    rw [parseFrom_item rfl]
    rfl
  have text : source glob = '(' :: '?' :: 's' :: ')' :: '^' ::
      ((squeeze false glob).flatMap partText ++ ['$']) := source_eq glob
  show (parseFrom .initial (source glob)).map (·.1) = _
  rw [text, start, parseFrom_parts]
  rfl

/-! ### what the expression means -/

/-- The flags behind the first part. -/
def dotFlags : Flags := ⟨false, false, true, true, false⟩

def partRegex (c : Char) : Regex :=
  if c = '*' then .loop (.scalar (dotSet dotFlags)) 0 none else .scalar (.singleton c.toNat)

/-- The parts and the end behind them. -/
def partsRegex : Chars → Regex
  | [] => .seq (.place .textEnd) .empty
  | c :: cs => .seq (partRegex c) (partsRegex cs)

theorem regexWith?_partAst (c : Char) :
    (partAst c).regexWith? dotFlags = some (partRegex c, dotFlags) := by
  unfold partAst partRegex
  split
  · simp only [Ast.regexWith?]
    rfl
  · simp only [Ast.regexWith?]
    rfl

theorem sequence?_parts (cs : Chars) :
    Ast.sequence? dotFlags (cs.map partAst ++ [endAst]) = some (partsRegex cs, dotFlags) := by
  induction cs with
  | nil =>
    simp only [List.map_nil, List.nil_append, Ast.sequence?, endAst, Ast.regexWith?]
    rfl
  | cons c cs ih =>
    rw [List.map_cons, List.cons_append, Ast.sequence?, regexWith?_partAst]
    simp only [Option.bind_eq_bind, Option.bind_some, ih]
    rfl

def wildcardRegex (glob : Chars) : Regex :=
  .seq .empty (.seq (.place .textStart) (partsRegex (squeeze false glob)))

/-- **The expression has a meaning for every glob.** -/
theorem regexOf?_source (glob : Chars) : regexOf? (source glob) = some (wildcardRegex glob) := by
  have parts := sequence?_parts (squeeze false glob)
  have start : Flags.initial.setAll [(.dotAll, true)] = dotFlags := rfl
  have anchor : (Primitive.assertion .lineStart).regex? dotFlags = some (.place .textStart) := rfl
  unfold regexOf?
  rw [parse?_source]
  simp only [startAsts, List.cons_append, List.nil_append, Ast.regex?, Ast.regexWith?,
    Ast.sequence?, Option.bind_eq_bind, Option.bind_some, Option.pure_def, start, anchor, parts]
  rfl

/-! ### what the expression matches -/

theorem mem_dotSet (c : Char) : (dotSet dotFlags).mem c.toNat = true := rfl

theorem mem_singleton_iff {c d : Char} :
    (CharSet.singleton c.toNat).mem d.toNat = true ↔ d = c := by
  rw [← Char.toNat_inj]
  simp only [CharSet.singleton, CharSet.mem, Unicode.inRanges, List.any_cons, List.any_nil,
    Bool.or_false, Bool.and_eq_true, decide_eq_true_iff]
  omega

/-- Behind what has been read of a name, the parts match what is left of it. -/
theorem exists_spans_parts_iff (cs : Chars) {whole pre rest : Chars} (h : whole = pre ++ rest) :
    (∃ j, Regex.Spans (Utf8.encodeChars whole).toArray (partsRegex cs) (place pre) j) ↔
      Matches cs rest := by
  induction cs generalizing pre rest with
  | nil =>
    simp only [partsRegex, Regex.spans_seq_iff, spans_end_place_iff h, Regex.spans_empty_iff]
    constructor
    · rintro ⟨_, _, ⟨-, rfl⟩, -⟩
      exact .nil
    · rintro ⟨⟩
      exact ⟨_, _, ⟨rfl, rfl⟩, rfl⟩
  | cons c cs ih =>
    have next (part : Chars) {later : Chars} (cut : rest = part ++ later) :
        (∃ j, Regex.Spans (Utf8.encodeChars whole).toArray (partsRegex cs)
          (place (pre ++ part)) j) ↔ Matches cs later :=
      ih (by rw [h, cut, List.append_assoc])
    by_cases star : c = '*'
    · subst star
      have first : partRegex '*' = .loop (.scalar (dotSet dotFlags)) 0 none := rfl
      simp only [partsRegex, Regex.spans_seq_iff, first, spans_any_place_iff h mem_dotSet]
      rw [matches_star_iff]
      constructor
      · rintro ⟨j, _, ⟨part, later, cut, rfl⟩, others⟩
        exact ⟨part, later, cut, (next part cut).mp ⟨j, others⟩⟩
      · rintro ⟨part, later, cut, others⟩
        obtain ⟨j, others⟩ := (next part cut).mpr others
        exact ⟨j, _, ⟨part, later, cut, rfl⟩, others⟩
    · have first : partRegex c = .scalar (.singleton c.toNat) := if_neg star
      simp only [partsRegex, Regex.spans_seq_iff, first, spans_scalar_place_iff h,
        mem_singleton_iff]
      rw [matches_char_iff star]
      constructor
      · rintro ⟨j, _, ⟨d, later, cut, rfl, rfl⟩, others⟩
        exact ⟨later, cut, (next [d] cut).mp ⟨j, others⟩⟩
      · rintro ⟨later, cut, others⟩
        obtain ⟨j, others⟩ := (next [c] cut).mpr others
        exact ⟨j, _, ⟨c, later, cut, rfl, rfl⟩, others⟩

/-- **The expression matches what the glob matches.** -/
theorem isMatch_wildcard_iff (glob name : String) :
    (wildcardRegex glob.toList).isMatch (Utf8.encode name) = true ↔
      Matches glob.toList name.toList := by
  have start (i : Nat) :
      Place.holds (Utf8.encodeChars name.toList).toArray i .textStart = true ↔ i = 0 :=
    decide_eq_true_iff
  have parts := exists_spans_parts_iff (squeeze false glob.toList)
    (show name.toList = [] ++ name.toList from rfl)
  rw [← (matches_squeeze_iff _).1, ← parts, Utf8.encode, Regex.isMatch_iff]
  simp only [wildcardRegex, Regex.spans_seq_iff, Regex.spans_empty_iff, Regex.spans_place_iff, start]
  constructor
  · rintro ⟨_, -, j, _, rfl, _, ⟨rfl, rfl⟩, h⟩
    exact ⟨j, h⟩
  · rintro ⟨j, h⟩
    exact ⟨0, Nat.zero_le _, j, 0, rfl, 0, ⟨rfl, rfl⟩, h⟩

/-! ### matchers -/

/-- **Every glob has a matcher, and it accepts what the glob accepts.** -/
theorem exists_ofGlob (glob : String) :
    ∃ m, Matcher.ofGlob regexOf? glob = .ok m ∧ ∀ name, m.accepts name = accepts glob name := by
  unfold Matcher.ofGlob
  split
  · next star =>
    subst star
    refine ⟨.all, rfl, fun name => ((accepts_iff_matches _ _).mpr ?_).symm⟩
    have all := Matches.star name.toList .nil
    rwa [List.append_nil] at all
  · split
    · next starless =>
      have starless : '*' ∉ glob.toList := by simpa using starless
      refine ⟨.exact glob, rfl, fun name => ?_⟩
      rw [Bool.eq_iff_iff, accepts_iff_of_starless starless]
      show decide (glob = name) = true ↔ name = glob
      rw [decide_eq_true_iff, eq_comm]
    · rw [regexOf?_source]
      refine ⟨.wildcard _, rfl, fun name => ?_⟩
      rw [Bool.eq_iff_iff, accepts_iff_matches, ← isMatch_wildcard_iff]
      exact Iff.rfl

end Glob

namespace Schema

theorem matching_eq (s : Schema) (pattern : String) (withKey : Bool) :
    s.matching pattern withKey =
      s.indicesWhere fun f => (withKey || !f.isKey) && Glob.accepts pattern f.name := by
  obtain ⟨m, matcher, same⟩ := Glob.exists_ofGlob pattern
  unfold matching matchingWith
  rw [matcher]
  simp only [same]

/-- An engine that takes fewer texts, and means the same by those it takes, finds the same columns, or
none where it does not take the text of a path with stars. -/
theorem matchingWith_eq {compile : Chars → Option Regex}
    (agrees : ∀ cs r, compile cs = some r → regexOf? cs = some r) (s : Schema) (pattern : String)
    (withKey : Bool) :
    s.matchingWith compile pattern withKey =
      if pattern ≠ "*" ∧ '*' ∈ pattern.toList ∧ compile (Glob.source pattern.toList) = none then []
      else s.matching pattern withKey := by
  unfold matching matchingWith Glob.Matcher.ofGlob
  by_cases star : pattern = "*"
  · simp [star]
  · by_cases starless : '*' ∈ pattern.toList
    · cases taken : compile (Glob.source pattern.toList) with
      | none => simp [star, starless]
      | some r => simp [star, starless, agrees _ r taken]
    · simp [star, starless]

end Schema

end ColumnPlan
