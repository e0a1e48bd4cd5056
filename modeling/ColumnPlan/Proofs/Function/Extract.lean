import ColumnPlan.Function.Basic
import ColumnPlan.Proofs.Fallible
import ColumnPlan.Proofs.Logical.Joints

/-!
# The field of an extraction is known from the text of its parameters

A text does not show where the name of a parameter ends, and a value by place can be written like
one by name.  But the value that names a field of a timestamp has no equals sign, so in its text
there is only the one behind its name, or none.

* `Value.unit?`              the field that a value names;
* `extractUnit?_eq_ok_iff`   the field that the parameters of a call name;
* `text_eq_of_get?`          the value that names it is known from the text of all parameters;
* `extractUnit?_inj`         and so is the field.
-/

namespace ColumnPlan

/-- The field of a timestamp that a value names. -/
def Value.unit? (v : Value) : Option TemporalUnit :=
  v.bytes?.bind fun bytes => TemporalUnit.ofName? (Utf8.lossy bytes)

theorem extractUnit?_eq_ok_iff {params : Params} {u : TemporalUnit} :
    Function.extractUnit? params = .ok u ↔ ∃ v, params.get? 0 "field" = some v ∧ v.unit? = some u := by
  unfold Function.extractUnit? Value.unit?
  cases hv : params.get? 0 "field" with
  | none =>
    refine iff_of_false nofun ?_
    rintro ⟨v, hv, -⟩
    cases hv
  | some v =>
    simp only [Option.bind_some, Option.some.injEq, exists_eq_left']
    cases hb : v.bytes? with
    | none => exact iff_of_false nofun nofun
    | some bytes =>
      simp only [Option.bind_some]
      cases TemporalUnit.ofName? (Utf8.lossy bytes) with
      | none => exact iff_of_false nofun nofun
      | some unit => simp only [Except.ok.injEq, Option.some.injEq]

section
variable {v w : Value} {u u' : TemporalUnit}

theorem text_of_unit? (h : v.unit? = some u) :
    ∃ name, TemporalUnit.ofName? name = some u ∧ v.text = "'" ++ name ++ "'" := by
  unfold Value.unit? at h
  obtain ⟨bytes, hb, name⟩ := Option.bind_eq_some_iff.mp h
  cases v with
  | binary b =>
    cases hb
    exact ⟨_, name, rfl⟩
  | boolean | integer | long | float | double => cases hb

/-- Values of one text name one field. -/
theorem unit?_inj (h : v.unit? = some u) (h' : w.unit? = some u') (same : v.text = w.text) :
    u = u' := by
  obtain ⟨name, hn, text⟩ := text_of_unit? h
  obtain ⟨name', hn', text'⟩ := text_of_unit? h'
  rw [text, text', ← String.toList_inj] at same
  simp only [String.toList_append, List.append_cancel_right_eq, List.append_cancel_left_eq,
    String.toList_inj] at same
  rw [same, hn'] at hn
  exact (Option.some_inj.mp hn).symm

/-- No field has an equals sign in its name. -/
theorem equals_notMem (h : v.unit? = some u) : '=' ∉ v.text.toList := by
  obtain ⟨name, hn, text⟩ := text_of_unit? h
  have found := List.find?_some hn
  have known : u.name = name.map Char.toLower := of_decide_eq_true found
  intro member
  rw [text] at member
  simp only [String.toList_append, List.mem_append] at member
  have inside : '=' ∈ name.toList := by
    rcases member with (quote | inside) | quote
    · exact absurd quote (by decide)
    · exact inside
    · exact absurd quote (by decide)
  have lower : '=' ∈ u.name.toList := by
    rw [known, String.toList_map]
    exact List.mem_map.mpr ⟨'=', inside, rfl⟩
  cases u <;> exact absurd lower (by decide)

/-! ### the text of all parameters -/

theorem toList_entry (k t : String) : (k ++ "=" ++ t).toList = k.toList ++ '=' :: t.toList := by
  rw [String.toList_append, String.toList_append, List.append_assoc]
  rfl

/-- If the value has no equals sign, and the name has none, the entry shows both. -/
theorem entry_inj {k k' t t' : String} (name : '=' ∉ k.toList) (value : '=' ∉ t.toList)
    (same : k ++ "=" ++ t = k' ++ "=" ++ t') : k = k' ∧ t = t' := by
  rw [← String.toList_inj, toList_entry, toList_entry] at same
  have once := congrArg (List.count '=') same
  simp only [List.count_append, List.count_cons_self, List.count_eq_zero.mpr name,
    List.count_eq_zero.mpr value] at once
  have name' : '=' ∉ k'.toList := List.count_eq_zero.mp (by omega)
  obtain ⟨keys, -, values⟩ := append_cons_inj (P := (· = '='))
    (fun c hc (equals : c = '=') => name (equals ▸ hc))
    (fun c hc (equals : c = '=') => name' (equals ▸ hc)) rfl rfl same
  exact ⟨String.toList_inj.mp keys, String.toList_inj.mp values⟩

theorem text_eq_of_find? {entries entries' : List (String × Value)}
    (same : (entries.map fun (k, v) => k ++ "=" ++ v.text) =
      entries'.map fun (k, v) => k ++ "=" ++ v.text)
    (hv : Dictionary.find? "field" entries = some v) (hw : Dictionary.find? "field" entries' = some w)
    (h : v.unit? = some u) (h' : w.unit? = some u') : v.text = w.text := by
  have plain : '=' ∉ "field".toList := by decide
  induction entries generalizing entries' with
  | nil => cases hv
  | cons entry entries ih =>
    obtain ⟨entry', entries', rfl, first, rest⟩ := List.map_eq_cons_iff.mp same.symm
    obtain ⟨k, x⟩ := entry
    obtain ⟨k', x'⟩ := entry'
    unfold Dictionary.find? at hv hw
    by_cases here : "field" = k
    · subst here
      rw [if_pos rfl] at hv
      cases hv
      obtain ⟨rfl, texts⟩ := entry_inj plain (equals_notMem h) first.symm
      rw [if_pos rfl] at hw
      cases hw
      exact texts
    · by_cases there : "field" = k'
      · subst there
        rw [if_pos rfl] at hw
        cases hw
        exact absurd (entry_inj plain (equals_notMem h') first).1 here
      · rw [if_neg here] at hv
        rw [if_neg there] at hw
        exact ih rest.symm hv hw

/-- The value is the first one, or the one of its name. -/
theorem text_eq_of_get? {params params' : Params}
    (same : argumentTexts [] params = argumentTexts [] params')
    (hv : params.get? 0 "field" = some v) (hw : params'.get? 0 "field" = some w)
    (h : v.unit? = some u) (h' : w.unit? = some u') : v.text = w.text := by
  have unnamed {v : Value} {u : TemporalUnit} (h : v.unit? = some u) (k : String) (x : Value) :
      v.text ≠ k ++ "=" ++ x.text := by
    intro text
    refine equals_notMem h ?_
    rw [text, toList_entry]
    exact List.mem_append_right _ List.mem_cons_self
  obtain ⟨places, ⟨entries⟩⟩ := params
  obtain ⟨places', ⟨entries'⟩⟩ := params'
  unfold argumentTexts at same
  cases places with
  | cons x places =>
    cases hv
    cases places' with
    | cons x' places' =>
      cases hw
      exact (List.cons.inj same).1
    | nil =>
      cases entries' with
      | nil => cases same
      | cons entry entries' => exact absurd (List.cons.inj same).1 (unnamed h _ _)
  | nil =>
    cases places' with
    | cons x' places' =>
      cases hw
      cases entries with
      | nil => cases same
      | cons entry entries => exact absurd (List.cons.inj same).1.symm (unnamed h' _ _)
    | nil => exact text_eq_of_find? same hv hw h h'

end

/-- **Parameters of one text name one field**, if they name any. -/
theorem extractUnit?_inj {params params' : Params} {u u' : TemporalUnit}
    (same : params.pieces = params'.pieces) (h : Function.extractUnit? params = .ok u)
    (h' : Function.extractUnit? params' = .ok u') : u = u' := by
  obtain ⟨v, hv, unit⟩ := extractUnit?_eq_ok_iff.mp h
  obtain ⟨w, hw, unit'⟩ := extractUnit?_eq_ok_iff.mp h'
  have texts : argumentTexts [] params = argumentTexts [] params' := by
    have left := params.chars_pieces [] [] rfl
    have right := params'.chars_pieces [] [] rfl
    rw [same, right] at left
    exact (List.map_injective_iff.mpr (fun _ _ => String.toList_inj.mp) left).symm
  exact unit?_inj unit unit' (text_eq_of_get? texts hv hw unit unit')

end ColumnPlan
