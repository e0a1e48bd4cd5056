import Mathlib.Data.List.Lex
import ColumnPlan.Physical.Eval
import ColumnPlan.Proofs.Calendar
import ColumnPlan.Proofs.Fallible

/-!
# The fields of a timestamp

A second is a date and a time of day, and from these it can be told.  A timestamp shows the fields
of its second, rounded towards the past, if the calendar has its year.

* `Moment`                a date with a time of day;
* `momentOf`              the moment of a second;
* `seconds_momentOf`      from which the second can be told;
* `fields_lt_iff`         later seconds have later fields;
* `extractUnit_moment`    the fields that are extracted from a timestamp.
-/

namespace ColumnPlan

open Calendar

/-- A date with a time of day. -/
structure Moment where
  date : Date
  hour : Int
  minute : Int
  second : Int

namespace Moment

structure Valid (m : Moment) : Prop where
  date : m.date.Valid
  hour : 0 ≤ m.hour ∧ m.hour ≤ 23
  minute : 0 ≤ m.minute ∧ m.minute ≤ 59
  second : 0 ≤ m.second ∧ m.second ≤ 59

/-- The seconds from the start of 1970. -/
def seconds (m : Moment) : Int :=
  dayOfDate m.date * 86400 + m.hour * 3600 + m.minute * 60 + m.second

def field (m : Moment) : TemporalUnit → Int
  | .year => m.date.year
  | .month => m.date.month
  | .day => m.date.day
  | .hour => m.hour
  | .minute => m.minute
  | .second => m.second

/-- All fields, from the year to the second. -/
def fields (m : Moment) : List Int := TemporalUnit.all.map m.field

end Moment

/-! ### the moment of a second -/

def momentOf (second : Int) : Moment where
  date := dateOfDay (second / 86400)
  hour := second % 86400 / 3600
  minute := second % 86400 / 60 % 60
  second := second % 86400 % 60

theorem valid_momentOf (second : Int) : (momentOf second).Valid := by
  refine ⟨valid_dateOfDay _, ?_, ?_, ?_⟩
  · unfold momentOf
    dsimp only
    omega
  · unfold momentOf
    dsimp only
    omega
  · unfold momentOf
    dsimp only
    omega

theorem seconds_momentOf (second : Int) : (momentOf second).seconds = second := by
  have day := dayOfDate_dateOfDay (second / 86400)
  simp only [Moment.seconds, momentOf, day]
  omega

theorem fieldAt?_eq (unit : TemporalUnit) (millis : Int) :
    fieldAt? unit millis =
      if hasYear (momentOf (millis / 1000)).date.year then
        some ((momentOf (millis / 1000)).field unit)
      else none := by
  unfold fieldAt?
  cases unit <;> rfl

/-! ### the order of moments -/

section
variable {m n : Moment}

theorem fields_lt_fields_iff : m.fields < n.fields ↔
    m.date.year < n.date.year ∨ m.date.year = n.date.year ∧ (m.date.month < n.date.month ∨
      m.date.month = n.date.month ∧ (m.date.day < n.date.day ∨ m.date.day = n.date.day ∧
        (m.hour < n.hour ∨ m.hour = n.hour ∧ (m.minute < n.minute ∨
          m.minute = n.minute ∧ m.second < n.second)))) := by
  show [m.date.year, m.date.month, m.date.day, m.hour, m.minute, m.second] <
    [n.date.year, n.date.month, n.date.day, n.hour, n.minute, n.second] ↔ _
  simp only [List.cons_lt_cons_iff, List.not_lt_nil, and_false, or_false]

/-- Later fields belong to a later second. -/
theorem seconds_lt_of_fields_lt (hm : m.Valid) (hn : n.Valid) (h : m.fields < n.fields) :
    m.seconds < n.seconds := by
  obtain ⟨dm, hour, minute, second⟩ := hm
  obtain ⟨dn, hour', minute', second'⟩ := hn
  have earlier (day : dayOfDate m.date < dayOfDate n.date) : m.seconds < n.seconds := by
    unfold Moment.seconds
    omega
  have sameDay (year : m.date.year = n.date.year) (month : m.date.month = n.date.month)
      (day : m.date.day = n.date.day) : dayOfDate m.date = dayOfDate n.date := by
    unfold dayOfDate
    rw [year, month, day]
  rcases fields_lt_fields_iff.mp h with lt | ⟨year, lt | ⟨month, lt | ⟨day, rest⟩⟩⟩
  · exact earlier (dayOfDate_lt_of_year dm dn lt)
  · exact earlier (dayOfDate_lt_of_month dm dn year lt)
  · exact earlier (dayOfDate_lt_of_day year month lt)
  · have same := sameDay year month day
    unfold Moment.seconds
    omega

theorem fields_inj (h : m.fields = n.fields) : m = n := by
  obtain ⟨⟨year, month, day⟩, hour, minute, second⟩ := m
  obtain ⟨⟨year', month', day'⟩, hour', minute', second'⟩ := n
  have same : [year, month, day, hour, minute, second] =
    [year', month', day', hour', minute', second'] := h
  simp only [List.cons.injEq, and_true] at same
  obtain ⟨rfl, rfl, rfl, rfl, rfl, rfl⟩ := same
  rfl

/-- Later seconds have later fields, and only they. -/
theorem fields_lt_iff (hm : m.Valid) (hn : n.Valid) :
    m.fields < n.fields ↔ m.seconds < n.seconds := by
  refine ⟨seconds_lt_of_fields_lt hm hn, fun later => ?_⟩
  rcases lt_trichotomy m.fields n.fields with lt | eq | gt
  · exact lt
  · exact absurd (congrArg Moment.seconds (fields_inj eq)) later.ne
  · exact absurd (seconds_lt_of_fields_lt hn hm gt) later.not_gt

end

/-! ### timestamps -/

/-- So many milliseconds have come to a year that has dates. -/
def InYears (millis : Int) : Prop :=
  dayOfDate ⟨-9999, 1, 1⟩ * 86400000 ≤ millis ∧ millis < dayOfDate ⟨10000, 1, 1⟩ * 86400000

instance (millis : Int) : Decidable (InYears millis) := inferInstanceAs (Decidable (_ ∧ _))

theorem hasYear_momentOf_iff (millis : Int) :
    hasYear (momentOf (millis / 1000)).date.year = true ↔ InYears millis := by
  refine (hasYear_dateOfDay_iff _).trans ?_
  unfold InYears
  omega

theorem field_bounds {m : Moment} (h : m.Valid) (inside : hasYear m.date.year = true)
    (unit : TemporalUnit) : -9999 ≤ m.field unit ∧ m.field unit ≤ 9999 := by
  rw [hasYear, Bool.and_eq_true, decide_eq_true_eq, decide_eq_true_eq] at inside
  have long : daysInMonth m.date.year m.date.month ≤ 31 := by
    unfold daysInMonth
    split
    · split <;> decide
    · split <;> decide
  obtain ⟨⟨month_pos, month_le, day_pos, day_le⟩, hour, minute, second⟩ := h
  cases unit <;> unfold Moment.field <;> dsimp only <;> omega

/-- In these years the field of a moment is extracted. -/
theorem extractUnit_of_inYears {millis : Int64} (h : InYears millis.toInt) (unit : TemporalUnit) :
    extractUnit unit millis = .ok (.ofInt ((momentOf (millis.toInt / 1000)).field unit)) := by
  have inside := (hasYear_momentOf_iff millis.toInt).mpr h
  unfold extractUnit
  rw [fieldAt?_eq, if_pos inside]

theorem toInt_field {millis : Int} (h : InYears millis) (unit : TemporalUnit) :
    (Int64.ofInt ((momentOf (millis / 1000)).field unit)).toInt =
      (momentOf (millis / 1000)).field unit := by
  have inside := (hasYear_momentOf_iff millis).mpr h
  obtain ⟨low, high⟩ := field_bounds (valid_momentOf _) inside unit
  exact Int64.toInt_ofInt_of_le (le_trans (by decide) low) (lt_of_le_of_lt high (by decide))

/-- In other years nothing is extracted. -/
theorem extractUnit_of_not_inYears {millis : Int64} (h : ¬ InYears millis.toInt)
    (unit : TemporalUnit) :
    extractUnit unit millis = .error (.evaluation (.timestampRange millis)) := by
  have outside := mt (hasYear_momentOf_iff millis.toInt).mp h
  unfold extractUnit
  rw [fieldAt?_eq, if_neg outside]

/-- All fields that are extracted are those of one moment. -/
theorem map_toInt_of_extractUnit {millis : Int64} {fields : List Int64}
    (h : (TemporalUnit.all.mapM fun unit => extractUnit unit millis) = .ok fields) :
    fields.map Int64.toInt = (momentOf (millis.toInt / 1000)).fields := by
  have inside : InYears millis.toInt := by
    by_contra outside
    rw [TemporalUnit.all, List.mapM_cons, extractUnit_of_not_inYears outside] at h
    cases h
  have all : TemporalUnit.all.mapM (fun unit => extractUnit unit millis) =
      .ok (TemporalUnit.all.map fun unit => .ofInt ((momentOf (millis.toInt / 1000)).field unit)) :=
    mapM_eq_map fun unit _ => extractUnit_of_inYears inside unit
  cases h.symm.trans all
  rw [List.map_map]
  exact List.map_congr_left fun unit _ => toInt_field inside unit

/-- **The fields of a timestamp determine its second.**  The days are numbered as the calendar goes
on from the start of 1970.  All fields are extracted if the timestamp is one of the years -9999 to
9999, and else none; they are a date that there is and a time of day, and together they count the
seconds, rounded towards the past.  So later seconds have later fields, and one second has one set
of fields. -/
theorem extractUnit_moment (millis : Int64) :
    (dayOfDate ⟨1970, 1, 1⟩ = 0 ∧ ∀ d : Date, d.Valid → dayOfDate d.next = dayOfDate d + 1) ∧
    (InYears millis.toInt → ∃ m : Moment, m.Valid ∧ -9999 ≤ m.date.year ∧ m.date.year ≤ 9999 ∧
      m.seconds = millis.toInt / 1000 ∧
        ∀ unit, ∃ n, extractUnit unit millis = .ok n ∧ n.toInt = m.field unit) ∧
    (¬ InYears millis.toInt →
      ∀ unit, extractUnit unit millis = .error (.evaluation (.timestampRange millis))) ∧
    ∀ (other : Int64) (fields others : List Int64),
      (TemporalUnit.all.mapM fun unit => extractUnit unit millis) = .ok fields →
        (TemporalUnit.all.mapM fun unit => extractUnit unit other) = .ok others →
          (fields.map Int64.toInt < others.map Int64.toInt ↔
            millis.toInt / 1000 < other.toInt / 1000) ∧
          (fields = others ↔ millis.toInt / 1000 = other.toInt / 1000) := by
  refine ⟨⟨dayOfDate_start_of_1970, fun d => dayOfDate_next⟩, fun inside => ?_,
    fun outside => extractUnit_of_not_inYears outside, fun other fields others hf ho => ?_⟩
  · obtain ⟨first, last⟩ := field_bounds (valid_momentOf _)
      ((hasYear_momentOf_iff millis.toInt).mpr inside) .year
    refine ⟨_, valid_momentOf _, first, last, seconds_momentOf _, fun unit => ?_⟩
    exact ⟨_, extractUnit_of_inYears inside unit, toInt_field inside unit⟩
  · have shown := map_toInt_of_extractUnit hf
    have shown' := map_toInt_of_extractUnit ho
    constructor
    · rw [shown, shown', fields_lt_iff (valid_momentOf _) (valid_momentOf _), seconds_momentOf,
        seconds_momentOf]
    · constructor
      · rintro rfl
        have same := congrArg Moment.seconds (fields_inj (shown.symm.trans shown'))
        rwa [seconds_momentOf, seconds_momentOf] at same
      · intro second
        rw [← second, ← shown] at shown'
        exact List.map_injective_iff.mpr (fun _ _ => Int64.toInt_inj.mp) shown'.symm

/-- The last millisecond before 1970 is of the second before, and the last timestamp there is has no
date. -/
theorem extractUnit_moment_turn :
    let last : List Int64 := [1969, 12, 31, 23, 59, 59]
    let first : List Int64 := [1970, 1, 1, 0, 0, 0]
    (TemporalUnit.all.mapM fun unit => extractUnit unit (-1)) = .ok last ∧
      (TemporalUnit.all.mapM fun unit => extractUnit unit 0) = .ok first ∧
      last.map Int64.toInt < first.map Int64.toInt ∧
      (∃ m : Moment, m.Valid ∧ m.seconds = -1 ∧
        ∀ unit, ∃ n, extractUnit unit (-1) = .ok n ∧ n.toInt = m.field unit) ∧
      ∀ unit, extractUnit unit Int64.maxValue =
        .error (.evaluation (.timestampRange Int64.maxValue)) := by
  intro last first
  have before : (TemporalUnit.all.mapM fun unit => extractUnit unit (-1)) = .ok last := by rfl
  have start : (TemporalUnit.all.mapM fun unit => extractUnit unit 0) = .ok first := by rfl
  have inside : InYears (-1) := by decide
  have outside : ¬ InYears Int64.maxValue.toInt := by decide
  obtain ⟨-, moment, -, order⟩ := extractUnit_moment (-1)
  obtain ⟨m, valid, -, -, seconds, fields⟩ := moment inside
  refine ⟨before, start, ?_, ⟨m, valid, seconds, fields⟩, ?_⟩
  · exact (order 0 last first before start).1.mpr (by decide)
  · exact (extractUnit_moment Int64.maxValue).2.2.1 outside

end ColumnPlan
