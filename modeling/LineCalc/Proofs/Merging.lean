import Mathlib.Data.List.Pairwise
import LineCalc.Settings.Value

set_option autoImplicit false

/- Values joined under paths. What is joined under a path changes nothing elsewhere, and values
under paths of which none starts another may be joined in any order. -/
namespace LineCalc.Settings

namespace Value

/-! Keys -/

theorem lookup_put_self (key : String) (value : Value) (entries : Entries) :
    (put key value entries).lookup key = some value := by
  induction entries with
  | nil => simp [put]
  | cons entry rest ih =>
    obtain ⟨other, held⟩ := entry
    rw [put]
    split
    · simp
    · rename_i different
      split
      · simp
      · rw [List.lookup_cons, beq_false_of_ne (Ne.symm different)]
        exact ih

theorem lookup_put_of_ne {key other : String} (different : other ≠ key) (value : Value)
    (entries : Entries) : (put key value entries).lookup other = entries.lookup other := by
  induction entries with
  | nil => simp [put, List.lookup_cons, beq_false_of_ne different]
  | cons entry rest ih =>
    obtain ⟨first, held⟩ := entry
    rw [put]
    split
    · rename_i same
      simp [List.lookup_cons, same, beq_false_of_ne different]
    · split
      · rw [List.lookup_cons, beq_false_of_ne different]
      · rw [List.lookup_cons, List.lookup_cons, ih]

/-- The later value of a key takes the place of the earlier one. -/
theorem put_put_self (key : String) (value later : Value) (entries : Entries) :
    put key later (put key value entries) = put key later entries := by
  induction entries with
  | nil => simp [put]
  | cons entry rest ih =>
    obtain ⟨other, held⟩ := entry
    by_cases same : other = key
    · simp [put, same]
    · by_cases lower : key < other
      · simp [put, same, lower]
      · simp [put, same, lower, ih]

theorem put_comm_of_lt {key other : String} (less : key < other) (value held : Value)
    (entries : Entries) :
    put key value (put other held entries) = put other held (put key value entries) := by
  have different : other ≠ key := by
    rintro rfl
    exact String.lt_irrefl _ less
  have late : ¬other < key := String.lt_asymm less
  induction entries with
  | nil => simp [put, different, different.symm, less, late]
  | cons entry rest ih =>
    obtain ⟨first, old⟩ := entry
    by_cases own : first = key
    · subst own
      simp [put, different.symm, late]
    by_cases above : first = other
    · subst above
      simp [put, own, different.symm, less, late]
    by_cases behind : other < first
    · have low : key < first := String.lt_trans less behind
      simp [put, own, above, behind, low, different, different.symm, less, late]
    by_cases before : key < first
    · simp [put, own, above, behind, before, different.symm, late]
    · simp [put, own, above, behind, before, ih]

/-- Different keys may be set in either order. -/
theorem put_comm {key other : String} (different : key ≠ other) (value held : Value)
    (entries : Entries) :
    put key value (put other held entries) = put other held (put key value entries) := by
  by_cases less : key < other
  · exact put_comm_of_lt less value held entries
  · have greater : other < key :=
      String.not_le.mp fun above => different (String.le_antisymm above (String.not_lt.mp less))
    exact (put_comm_of_lt greater held value entries).symm

/-! Paths -/

/-- A value joined to what is held already, if anything is. -/
def joined (held : Option Value) (value : Value) : Value :=
  match held with
  | some held => merge held value
  | none => value

/-- What is held by key; nothing if that is not a map. -/
def entries : Value → Entries
  | .map entries => entries
  | _ => []

theorem mergeEntries_singleton (entries : Entries) (key : String) (value : Value) :
    mergeEntries entries [(key, value)] = put key (joined (entries.lookup key) value) entries := by
  rw [mergeEntries, mergeEntries]
  rfl

/-- Under a path, nothing but the first key changes. -/
theorem merge_nest_cons (held : Value) (key : String) (path : List String) (value : Value) :
    merge held (nest (key :: path) value) =
      .map (put key (joined (held.entries.lookup key) (nest path value)) held.entries) := by
  cases held with
  | map entries => exact congrArg Value.map (mergeEntries_singleton entries key (nest path value))
  | _ => rfl

/-- A map with nothing in it is as good as nothing. -/
theorem joined_nest {path : List String} (inner : path ≠ []) (held : Option Value) (value : Value) :
    joined held (nest path value) = merge (held.getD (.map [])) (nest path value) := by
  cases held with
  | some held => rfl
  | none =>
    obtain ⟨key, rest, rfl⟩ := List.exists_cons_of_ne_nil inner
    rw [Option.getD_none, merge_nest_cons]
    rfl

/-- Neither path starts the other. -/
def Apart (path other : List String) : Prop := ¬path <+: other ∧ ¬other <+: path

theorem Apart.symm {path other : List String} (apart : Apart path other) : Apart other path :=
  And.symm apart

theorem Apart.ne_nil {path other : List String} (apart : Apart path other) : path ≠ [] := by
  rintro rfl
  exact apart.1 List.nil_prefix

theorem Apart.tail {key : String} {path other : List String}
    (apart : Apart (key :: path) (key :: other)) : Apart path other := by
  simpa [Apart, List.cons_prefix_cons] using apart

/-- Values under paths that are apart may be joined in either order. -/
theorem merge_nest_comm {path other : List String} (apart : Apart path other)
    (held value later : Value) :
    merge (merge held (nest path value)) (nest other later) =
      merge (merge held (nest other later)) (nest path value) := by
  induction path generalizing other held with
  | nil => exact absurd rfl apart.ne_nil
  | cons key path ih =>
    obtain ⟨first, rest, rfl⟩ := List.exists_cons_of_ne_nil apart.symm.ne_nil
    simp only [merge_nest_cons, entries]
    by_cases same : first = key
    · subst same
      have inner := apart.tail
      rw [lookup_put_self, lookup_put_self, put_put_self, put_put_self, joined, joined,
        joined_nest inner.ne_nil, joined_nest inner.symm.ne_nil, ih inner]
    · rw [lookup_put_of_ne same, lookup_put_of_ne (Ne.symm same), put_comm same]

end Value

/-! Settings one after another -/

/-- A value for a key, or for a place below it. -/
structure Setting where
  key : String
  path : List String
  value : Value

/-- A setting joined to what was set before. -/
def Entries.set (entries : Entries) (setting : Setting) : Entries :=
  Value.put setting.key
    (Value.joined (entries.lookup setting.key) (Value.nest setting.path setting.value)) entries

theorem merge_nest_eq_set (entries : Entries) (key : String) (path : List String) (value : Value) :
    Value.merge (.map entries) (Value.nest (key :: path) value) =
      .map (Entries.set entries ⟨key, path, value⟩) := Value.merge_nest_cons _ key path value

theorem lookup_set (entries : Entries) (setting : Setting) (key : String) :
    (entries.set setting).lookup key =
      if setting.key = key then
        some (Value.joined (entries.lookup key) (Value.nest setting.path setting.value))
      else entries.lookup key := by
  rw [Entries.set]
  split
  · rename_i same
    rw [← same, Value.lookup_put_self]
  · rename_i other
    exact Value.lookup_put_of_ne (Ne.symm other) _ _

/-- What is found under a key depends on the settings of that key alone. -/
theorem lookup_foldl_set (settings : List Setting) {entries part : Entries} {key : String}
    (same : entries.lookup key = part.lookup key) :
    (settings.foldl Entries.set entries).lookup key =
      ((settings.filter fun setting => setting.key = key).foldl Entries.set part).lookup key := by
  induction settings generalizing entries part with
  | nil => exact same
  | cons setting rest ih =>
    rw [List.foldl_cons]
    by_cases own : setting.key = key
    · rw [List.filter_cons_of_pos (by simpa using own), List.foldl_cons]
      apply ih
      rw [lookup_set, lookup_set, if_pos own, if_pos own, same]
    · rw [List.filter_cons_of_neg (by simpa using own)]
      apply ih
      rw [lookup_set, if_neg own, same]

/-- The places of two settings are apart. -/
def Setting.Apart (setting other : Setting) : Prop :=
  Value.Apart (setting.key :: setting.path) (other.key :: other.path)

instance : Std.Symm Setting.Apart := ⟨fun _ _ apart => Value.Apart.symm apart⟩

theorem set_comm {setting other : Setting} (apart : setting.Apart other) (entries : Entries) :
    (entries.set setting).set other = (entries.set other).set setting := by
  have joined := Value.merge_nest_comm apart (.map entries) setting.value other.value
  simpa only [merge_nest_eq_set, Value.map.injEq] using joined

/-- Settings whose places are apart may be made in any order. -/
theorem foldl_set_perm {settings others : List Setting} (apart : settings.Pairwise Setting.Apart)
    (shuffled : settings.Perm others) (entries : Entries) :
    settings.foldl Entries.set entries = others.foldl Entries.set entries := by
  apply shuffled.foldl_eq'
  intro setting inside other within entries
  by_cases same : setting = other
  · rw [same]
  · exact set_comm (apart.forall inside within same) entries

end LineCalc.Settings
