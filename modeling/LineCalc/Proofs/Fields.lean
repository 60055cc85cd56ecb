import Mathlib.Data.List.Basic
import LineCalc.Proofs.Merging
import LineCalc.Settings.Extraction

set_option autoImplicit false

/- Settings field by field. A variable sets one place, by its name; each field is taken from what
the variables with its own name set, and other names set nothing. -/
namespace LineCalc.Settings

/-! Results -/

/-- The error of a result, if it is one. -/
def fault? {ε α : Type} : Except ε α → Option ε
  | .ok _ => none
  | .error fault => some fault

@[simp] theorem fault?_map {ε α β : Type} (f : α → β) (result : Except ε α) :
    fault? (result.map f) = fault? result := by
  cases result <;> rfl

@[simp] theorem fault?_mapError {ε δ α : Type} (f : ε → δ) (result : Except ε α) :
    fault? (result.mapError f) = (fault? result).map f := by
  cases result <;> rfl

theorem fault?_eq_some {ε α : Type} {result : Except ε α} {fault : ε} :
    fault? result = some fault ↔ result = .error fault := by
  cases result <;> simp [fault?]

theorem bind_eq_ok {ε α β : Type} {first : Except ε α} {next : α → Except ε β} {value : β} :
    (first >>= next) = .ok value ↔ ∃ between, first = .ok between ∧ next between = .ok value := by
  cases first <;> simp [bind, Except.bind]

theorem fault?_bind {ε α β : Type} (first : Except ε α) {next : α → Except ε β} {rest : Option ε}
    (same : ∀ value, fault? (next value) = rest) :
    fault? (first >>= next) = (fault? first).or rest := by
  cases first with
  | error fault => rfl
  | ok value => exact same value

theorem findSome?_cons_eq_or {α β : Type} (f : α → Option β) (first : α) (rest : List α) :
    (first :: rest).findSome? f = (f first).or (rest.findSome? f) := by
  rw [List.findSome?_cons]
  cases f first <;> rfl

theorem mapError_eq_ok {ε δ α : Type} {f : ε → δ} {result : Except ε α} {value : α} :
    result.mapError f = .ok value ↔ result = .ok value := by
  cases result <;> simp [Except.mapError]

/-! Names -/

namespace Assignment

/-- The name after its mark with the first underscore, if there is one, made a dot. -/
def Sectioned (name dotted : List Char) : Prop :=
  '_' ∉ name ∧ dotted = name ∨
    ∃ front rest, '_' ∉ front ∧ name = front ++ '_' :: rest ∧ dotted = front ++ '.' :: rest

theorem sectioned_of_not_mem {name : List Char} (plain : '_' ∉ name) : sectioned name = name := by
  induction name with
  | nil => rfl
  | cons c rest ih =>
    rw [List.mem_cons, not_or] at plain
    rw [sectioned, if_neg (Ne.symm plain.1), ih plain.2]

theorem sectioned_append {front : List Char} (plain : '_' ∉ front) (rest : List Char) :
    sectioned (front ++ '_' :: rest) = front ++ '.' :: rest := by
  induction front with
  | nil => rfl
  | cons c front ih =>
    rw [List.mem_cons, not_or] at plain
    rw [List.cons_append, sectioned, if_neg (Ne.symm plain.1), ih plain.2, List.cons_append]

theorem sectioned_iff {name dotted : List Char} :
    Sectioned name dotted ↔ dotted = sectioned name := by
  constructor
  · rintro (⟨plain, rfl⟩ | ⟨front, rest, plain, rfl, rfl⟩)
    · exact (sectioned_of_not_mem plain).symm
    · exact (sectioned_append plain rest).symm
  · rintro rfl
    by_cases held : '_' ∈ name
    · obtain ⟨front, rest, rfl, plain⟩ := List.eq_append_cons_of_mem held
      exact .inr ⟨front, rest, plain, rfl, sectioned_append plain rest⟩
    · exact .inl ⟨held, sectioned_of_not_mem held⟩

theorem splitDots_eq (text : List Char) :
    (splitDots text).1 :: (splitDots text).2 = text.splitOn '.' := by
  induction text with
  | nil => rfl
  | cons c rest ih =>
    rw [List.splitOn_cons_eq_if_modifyHead, ← ih, splitDots]
    by_cases dot : c = '.'
    · simp [dot]
    · simp [dot]

/-- The path of a variable is read off its name: behind the mark, in letters of either case, stand
the keys, between dots of which the first may be an underscore. -/
theorem path?_eq_some_iff {assignment : Assignment} {path : List String} :
    assignment.path? = some path ↔
      ∃ name dotted, assignment.name.toList.map Char.toLower = mark ++ name ∧
        Sectioned name dotted ∧ path.map String.toList = dotted.splitOn '.' ∧ "" ∉ path := by
  have whole : ∀ name, assignment.name.toList.map Char.toLower = mark ++ name →
      assignment.path? = if [] ∈ (sectioned name).splitOn '.' then none
        else some (((sectioned name).splitOn '.').map String.ofList) := by
    intro name marked
    have starts : mark.isPrefixOf (mark ++ name) = true :=
      List.isPrefixOf_iff_prefix.mpr (List.prefix_append mark name)
    rw [path?]
    simp only [marked, starts, if_true, List.drop_left, ← splitDots_eq, List.any_eq_true,
      List.isEmpty_iff, exists_eq_right]
  constructor
  · intro found
    have marked : mark <+: assignment.name.toList.map Char.toLower := by
      by_contra other
      rw [path?, if_neg (by simpa using other)] at found
      cases found
    obtain ⟨name, marked⟩ := marked
    refine ⟨name, sectioned name, marked.symm, sectioned_iff.mpr rfl, ?_⟩
    rw [whole name marked.symm] at found
    split at found
    · cases found
    · rename_i full
      cases found
      refine ⟨by simp [Function.comp_def], fun member => full ?_⟩
      obtain ⟨key, inside, empty⟩ := List.mem_map.mp member
      have bare : key = [] := by rw [← @String.toList_ofList key, empty, String.toList_empty]
      exact bare ▸ inside
  · rintro ⟨name, dotted, marked, sections, parts, full⟩
    rw [sectioned_iff] at sections
    rw [whole name marked, ← sections, ← parts, List.map_map]
    have same : String.ofList ∘ String.toList = id := funext fun key => String.ofList_toList
    have solid : [] ∉ path.map String.toList := by
      intro member
      obtain ⟨key, inside, empty⟩ := List.mem_map.mp member
      exact full (String.toList_eq_nil_iff.mp empty ▸ inside)
    rw [same, List.map_id, if_neg solid]

end Assignment

/-! Environments -/

namespace Assignment

def key? (assignment : Assignment) : Option String := assignment.path?.bind List.head?

def setting? (assignment : Assignment) : Option Setting :=
  match assignment.path?, Value.ofText? assignment.text.toList with
  | some (key :: path), some value => some ⟨key, path, value⟩
  | _, _ => none

theorem path?_of_setting? {assignment : Assignment} {setting : Setting}
    (made : assignment.setting? = some setting) :
    assignment.path? = some (setting.key :: setting.path) := by
  rw [setting?] at made
  split at made
  · rename_i place read
    cases made
    exact place
  · cases made

/-- If the name has a path, the text means something. -/
def Readable (assignment : Assignment) : Prop :=
  assignment.path? ≠ none → Value.ofText? assignment.text.toList ≠ none

theorem path?_ne_nil {assignment : Assignment} : assignment.path? ≠ some [] := by
  intro found
  obtain ⟨_, dotted, _, _, parts, _⟩ := path?_eq_some_iff.mp found
  exact List.splitOn_ne_nil _ _ parts.symm

/-- A variable that can be read sets nothing, or one place. -/
inductive Meaning (assignment : Assignment) : Prop where
  | nothing (nowhere : assignment.path? = none)
  | sets {key : String} {path : List String} {value : Value}
      (place : assignment.path? = some (key :: path))
      (read : Value.ofText? assignment.text.toList = some value)

theorem Readable.meaning {assignment : Assignment} (readable : assignment.Readable) :
    assignment.Meaning := by
  cases place : assignment.path? with
  | none => exact .nothing place
  | some path =>
    cases path with
    | nil => exact absurd place path?_ne_nil
    | cons key path =>
      obtain ⟨value, read⟩ := Option.ne_none_iff_exists'.mp (readable (by simp [place]))
      exact .sets place read

/-- What a variable makes of the value before it. -/
def join (value : Value) (assignment : Assignment) : Except Assignment Value :=
  match assignment.path? with
  | some path =>
    match Value.ofText? assignment.text.toList with
    | some assigned => .ok (Value.merge value (Value.nest path assigned))
    | none => .error assignment
  | none => .ok value

end Assignment

namespace Environment

variable {environment : Environment}

def Readable (environment : Environment) : Prop :=
  ∀ assignment ∈ environment, assignment.Readable

/-- No path of a variable is the path of another one or the start of it. -/
def Separate (environment : Environment) : Prop :=
  environment.Pairwise fun assignment other =>
    ∀ path ∈ assignment.path?, ∀ longer ∈ other.path?, Value.Apart path longer

def settings (environment : Environment) : List Setting :=
  environment.filterMap Assignment.setting?

/-- The variables whose paths start with a key. -/
def only (environment : Environment) (key : String) : Environment :=
  environment.filter fun assignment => assignment.key? = some key

def entries (environment : Environment) : Entries :=
  environment.settings.foldl Entries.set []

theorem value_eq_foldlM (environment : Environment) :
    environment.value = environment.foldlM Assignment.join (.map []) := rfl

theorem Readable.foldlM_join (readable : environment.Readable) (entries : Entries) :
    environment.foldlM Assignment.join (.map entries) =
      .ok (.map (environment.settings.foldl Entries.set entries)) := by
  induction environment generalizing entries with
  | nil => rfl
  | cons assignment rest ih =>
    have later := ih fun other member => readable other (List.mem_cons_of_mem _ member)
    rw [List.foldlM_cons, settings]
    cases (readable assignment List.mem_cons_self).meaning with
    | nothing nowhere =>
      have silent : assignment.setting? = none := by rw [Assignment.setting?, nowhere]
      rw [List.filterMap_cons_none silent, Assignment.join, nowhere]
      exact later entries
    | @sets key path value place read =>
      have setting : assignment.setting? = some ⟨key, path, value⟩ := by
        rw [Assignment.setting?, place, read]
      rw [List.filterMap_cons_some setting, List.foldl_cons, Assignment.join, place, read]
      simp only [merge_nest_eq_set]
      exact later _

theorem readable_of_foldlM_join {start whole : Value}
    (joined : environment.foldlM Assignment.join start = .ok whole) : environment.Readable := by
  induction environment generalizing start with
  | nil => simp [Readable]
  | cons assignment rest ih =>
    rw [List.foldlM_cons, bind_eq_ok] at joined
    obtain ⟨between, first, later⟩ := joined
    refine List.forall_mem_cons.mpr ⟨fun placed unread => ?_, ih later⟩
    obtain ⟨path, place⟩ := Option.ne_none_iff_exists'.mp placed
    rw [Assignment.join, place, unread] at first
    cases first

/-- Variables that are chosen by their keys make the settings of these keys. -/
theorem settings_filter (environment : Environment) (chosen : Option String → Bool) :
    settings (environment.filter fun assignment => chosen assignment.key?) =
      environment.settings.filter fun setting => chosen (some setting.key) := by
  rw [settings, settings, List.filterMap_filter, List.filter_filterMap]
  congr
  funext assignment
  rw [Assignment.key?, Assignment.setting?]
  cases assignment.path? with
  | none => simp
  | some path =>
    cases path with
    | nil => by_cases taken : chosen none = true <;> simp [taken]
    | cons key path =>
      by_cases taken : chosen (some key) = true
      · cases Value.ofText? assignment.text.toList <;> simp [taken, Option.filter]
      · cases Value.ofText? assignment.text.toList <;> simp [taken, Option.filter]

/-- Under a chosen key, variables that are chosen by their keys set what all set. -/
theorem lookup_entries_filter (environment : Environment) (chosen : Option String → Bool)
    (key : String) :
    (entries (environment.filter fun assignment => chosen assignment.key?)).lookup key =
      if chosen (some key) then environment.entries.lookup key else none := by
  rw [entries, entries, settings_filter, @lookup_foldl_set _ _ [] key rfl, List.filter_filter]
  split
  · rename_i taken
    have same : (environment.settings.filter fun setting =>
        decide (setting.key = key) && chosen (some setting.key)) =
        environment.settings.filter fun setting => setting.key = key := by
      apply List.filter_congr
      intro setting _
      by_cases own : setting.key = key
      · rw [own, taken, Bool.and_true]
      · simp [own]
    rw [same, ← @lookup_foldl_set _ _ [] key rfl]
  · rename_i other
    have nothing : (environment.settings.filter fun setting =>
        decide (setting.key = key) && chosen (some setting.key)) = [] := by
      rw [List.filter_eq_nil_iff]
      intro setting _ both
      rw [Bool.and_eq_true, decide_eq_true_eq] at both
      exact other (both.1 ▸ both.2)
    rw [nothing]
    rfl

theorem lookup_entries_only (environment : Environment) (key other : String) :
    (environment.only key).entries.lookup other =
      if other = key then environment.entries.lookup other else none := by
  have found := environment.lookup_entries_filter (fun found => found = some key) other
  rw [only]
  simpa only [decide_eq_true_eq, Option.some.injEq] using found

end Environment

/-! Fields -/

/-- The keys of the fields, in the order of their names. -/
def fields : List String := ["a", "b", "evaluator", "format", "metrics", "prefix"]

namespace Reader

variable {α : Type} {entries part : Entries} {key : String}

theorem field_congr (same : entries.lookup key = part.lookup key) (reader : Reader α)
    (default : α) : field entries key reader default = field part key reader default := by
  rw [field, field, same]

theorem field_of_lookup_eq_none (missing : entries.lookup key = none) (reader : Reader α)
    (default : α) : field entries key reader default = .ok default := by
  rw [field, missing]

end Reader

theorem ofEntries_congr {entries part : Entries}
    (same : ∀ key ∈ fields, entries.lookup key = part.lookup key) :
    ofEntries entries = ofEntries part := by
  simp only [fields, List.forall_mem_cons, List.not_mem_nil, false_implies, implies_true,
    and_true] at same
  obtain ⟨a, b, evaluator, format, metrics, lead⟩ := same
  rw [ofEntries, ofEntries, Reader.field_congr a, Reader.field_congr b,
    Reader.field_congr evaluator, Reader.field_congr format, Reader.field_congr metrics,
    Reader.field_congr lead]

/-- Each field is what it is where nothing else is set. -/
theorem ofEntries_part {entries : Entries} {part : String → Entries}
    (parts : ∀ key other,
      (part key).lookup other = if other = key then entries.lookup other else none) :
    let base : Settings := {}
    (ofEntries (part "a")).map Settings.a = Reader.field entries "a" Reader.number base.a ∧
      (ofEntries (part "b")).map Settings.b = Reader.field entries "b" Reader.number base.b ∧
      (ofEntries (part "evaluator")).map Settings.limit =
        Reader.field entries "evaluator" (Reader.evaluator base.limit) base.limit ∧
      (ofEntries (part "format")).map (·.style.format) =
        Reader.field entries "format" Reader.format base.style.format ∧
      (ofEntries (part "metrics")).map Settings.metrics =
        Reader.field entries "metrics" Reader.flag base.metrics ∧
      (ofEntries (part "prefix")).map (·.style.lead) =
        Reader.field entries "prefix" Reader.text base.style.lead := by
  have own : ∀ {α : Type} (key : String) (reader : Reader α) (default : α),
      Reader.field (part key) key reader default = Reader.field entries key reader default :=
    fun key reader default => Reader.field_congr ((parts key key).trans (if_pos rfl)) reader default
  have missing : ∀ {α : Type} {key other : String} (_ : other ≠ key) (reader : Reader α)
      (default : α), Reader.field (part key) other reader default = .ok default :=
    fun different reader default =>
      Reader.field_of_lookup_eq_none ((parts _ _).trans (if_neg different)) reader default
  intro base
  refine ⟨?_, ?_, ?_, ?_, ?_, ?_⟩
  · rw [ofEntries, own "a", missing (by decide), missing (by decide), missing (by decide),
      missing (by decide), missing (by decide)]
    cases Reader.field entries "a" Reader.number base.a <;> rfl
  · rw [ofEntries, own "b", missing (by decide), missing (by decide), missing (by decide),
      missing (by decide), missing (by decide)]
    cases Reader.field entries "b" Reader.number base.b <;> rfl
  · rw [ofEntries, own "evaluator", missing (by decide), missing (by decide), missing (by decide),
      missing (by decide), missing (by decide)]
    cases Reader.field entries "evaluator" (Reader.evaluator base.limit) base.limit <;> rfl
  · rw [ofEntries, own "format", missing (by decide), missing (by decide), missing (by decide),
      missing (by decide), missing (by decide)]
    cases Reader.field entries "format" Reader.format base.style.format <;> rfl
  · rw [ofEntries, own "metrics", missing (by decide), missing (by decide), missing (by decide),
      missing (by decide), missing (by decide)]
    cases Reader.field entries "metrics" Reader.flag base.metrics <;> rfl
  · rw [ofEntries, own "prefix", missing (by decide), missing (by decide), missing (by decide),
      missing (by decide), missing (by decide)]
    cases Reader.field entries "prefix" Reader.text base.style.lead <;> rfl

/-- All fields are taken, or the first that is wrong is reported. -/
theorem ofEntries_eq_ok {entries : Entries} {settings : Settings} :
    let base : Settings := {}
    ofEntries entries = .ok settings ↔
      Reader.field entries "a" Reader.number base.a = .ok settings.a ∧
        Reader.field entries "b" Reader.number base.b = .ok settings.b ∧
        Reader.field entries "evaluator" (Reader.evaluator base.limit) base.limit =
          .ok settings.limit ∧
        Reader.field entries "format" Reader.format base.style.format =
          .ok settings.style.format ∧
        Reader.field entries "metrics" Reader.flag base.metrics = .ok settings.metrics ∧
        Reader.field entries "prefix" Reader.text base.style.lead = .ok settings.style.lead := by
  intro base
  simp only [ofEntries, bind_eq_ok]
  constructor
  · rintro ⟨a, first, b, second, limit, third, format, fourth, metrics, fifth, lead, last, made⟩
    cases made
    exact ⟨first, second, third, fourth, fifth, last⟩
  · rintro ⟨first, second, third, fourth, fifth, last⟩
    exact ⟨_, first, _, second, _, third, _, fourth, _, fifth, _, last, rfl⟩

theorem fault?_ofEntries (entries : Entries) :
    let base : Settings := {}
    fault? (ofEntries entries) =
      (fault? (Reader.field entries "a" Reader.number base.a)).or
        ((fault? (Reader.field entries "b" Reader.number base.b)).or
          ((fault? (Reader.field entries "evaluator" (Reader.evaluator base.limit)
              base.limit)).or
            ((fault? (Reader.field entries "format" Reader.format base.style.format)).or
              ((fault? (Reader.field entries "metrics" Reader.flag base.metrics)).or
                (fault? (Reader.field entries "prefix" Reader.text base.style.lead)))))) := by
  intro base
  rw [ofEntries]
  refine fault?_bind _ fun a => fault?_bind _ fun b => fault?_bind _ fun limit =>
    fault?_bind _ fun format => fault?_bind _ fun metrics => ?_
  have last : ∀ settings : Settings,
      fault? (pure settings : Except SettingsError Settings) = none := fun _ => rfl
  rw [fault?_bind _ fun lead => last _, Option.or_none]

/-! Settings of an environment -/

namespace Environment

variable {environment : Environment}

theorem Readable.load_eq (readable : environment.Readable) :
    load environment = (ofEntries environment.entries).mapError .unfit := by
  rw [load, value_eq_foldlM, readable.foldlM_join []]
  rfl

theorem Readable.filter (readable : environment.Readable) (kept : Assignment → Bool) :
    Readable (environment.filter kept) :=
  fun assignment member => readable assignment (List.mem_of_mem_filter member)

theorem Readable.only (readable : environment.Readable) (key : String) :
    (environment.only key).Readable := readable.filter _

/-- A field is wrong if it is wrong where nothing else is set. -/
theorem Readable.map_load_only {α : Type} (readable : environment.Readable) {key : String}
    {field : Settings → α} {taken : Except SettingsError α}
    (own : (ofEntries (environment.only key).entries).map field = taken) :
    (load (environment.only key)).map field = taken.mapError .unfit ∧
      fault? (load (environment.only key)) = (fault? taken).map .unfit := by
  rw [(readable.only key).load_eq, fault?_mapError, ← own, fault?_map]
  refine ⟨?_, rfl⟩
  cases ofEntries (environment.only key).entries <;> rfl

/-- What loads can be read. -/
theorem readable_of_load {settings : Settings} (loads : load environment = .ok settings) :
    environment.Readable := by
  cases read : environment.value with
  | error assignment =>
    rw [load, read] at loads
    cases loads
  | ok whole =>
    rw [value_eq_foldlM] at read
    exact readable_of_foldlM_join read

theorem Readable.perm {other : Environment} (readable : environment.Readable)
    (shuffled : environment.Perm other) : other.Readable :=
  fun assignment member => readable assignment (shuffled.mem_iff.mpr member)

theorem Separate.apart (separate : environment.Separate) :
    environment.settings.Pairwise Setting.Apart := by
  rw [settings, List.pairwise_filterMap]
  refine separate.imp fun {assignment other} apart setting made later after => ?_
  exact apart _ (Assignment.path?_of_setting? made) _ (Assignment.path?_of_setting? after)

theorem Separate.entries_eq {other : Environment} (separate : environment.Separate)
    (shuffled : environment.Perm other) : environment.entries = other.entries :=
  foldl_set_perm separate.apart (shuffled.filterMap _) []

theorem Readable.load_filter (readable : environment.Readable) {chosen : Option String → Bool}
    (taken : ∀ key ∈ fields, chosen (some key) = true) :
    load (environment.filter fun assignment => chosen assignment.key?) = load environment := by
  have same : ∀ key ∈ fields, (entries (environment.filter fun assignment =>
      chosen assignment.key?)).lookup key = environment.entries.lookup key := fun key member =>
    (environment.lookup_entries_filter chosen key).trans (if_pos (taken key member))
  rw [(readable.filter _).load_eq, readable.load_eq, ofEntries_congr same]

theorem Readable.load_eq_ok (readable : environment.Readable) {settings : Settings} :
    load environment = .ok settings ↔
      (load (environment.only "a")).map (·.a) = .ok settings.a ∧
        (load (environment.only "b")).map (·.b) = .ok settings.b ∧
        (load (environment.only "evaluator")).map (·.limit) = .ok settings.limit ∧
        (load (environment.only "format")).map (·.style.format) = .ok settings.style.format ∧
        (load (environment.only "metrics")).map (·.metrics) = .ok settings.metrics ∧
        (load (environment.only "prefix")).map (·.style.lead) = .ok settings.style.lead := by
  obtain ⟨a, b, limit, format, metrics, lead⟩ :=
    ofEntries_part fun key other => environment.lookup_entries_only key other
  rw [readable.load_eq, (readable.map_load_only a).1, (readable.map_load_only b).1,
    (readable.map_load_only limit).1, (readable.map_load_only format).1,
    (readable.map_load_only metrics).1, (readable.map_load_only lead).1]
  simp only [mapError_eq_ok]
  exact ofEntries_eq_ok

theorem Readable.load_eq_error (readable : environment.Readable) {error : LoadError} :
    load environment = .error error ↔
      fields.findSome? (fun key => fault? (load (environment.only key))) = some error := by
  obtain ⟨a, b, limit, format, metrics, lead⟩ :=
    ofEntries_part fun key other => environment.lookup_entries_only key other
  rw [readable.load_eq, ← fault?_eq_some, fault?_mapError, fault?_ofEntries]
  simp only [fields, findSome?_cons_eq_or, List.findSome?_nil, Option.or_none, Option.map_or,
    (readable.map_load_only a).2, (readable.map_load_only b).2, (readable.map_load_only limit).2,
    (readable.map_load_only format).2, (readable.map_load_only metrics).2,
    (readable.map_load_only lead).2]

theorem Readable.load_perm {other : Environment} (readable : environment.Readable)
    (separate : environment.Separate) (shuffled : environment.Perm other) :
    load other = load environment := by
  rw [(readable.perm shuffled).load_eq, readable.load_eq, separate.entries_eq shuffled]

end Environment

/-- Settings are loaded field by field, if every variable with a path can be read; otherwise nothing
is loaded. A path is read off the name, and names without the mark or with an empty key have none.
Only the variables whose first key is that of a field have an effect. The settings are loaded if
each field is right where the variables of its own key are all there is, and they have these fields,
or their defaults where there are none; else the first field that is wrong is reported, in the order
of the keys. If no path is another one or the start of it, the variables may come in any order. -/
theorem load_by_field {environment : Environment} (readable : environment.Readable) :
    (∀ assignment : Assignment, ∀ path, assignment.path? = some path ↔
      ∃ name dotted, assignment.name.toList.map Char.toLower = Assignment.mark ++ name ∧
        Assignment.Sectioned name dotted ∧ path.map String.toList = dotted.splitOn '.' ∧
        "" ∉ path) ∧
    (∀ other settings, load other = .ok settings → other.Readable) ∧
    load (environment.filter fun assignment => ∃ own ∈ fields, assignment.key? = some own) =
      load environment ∧
    (∀ settings, load environment = .ok settings ↔
      (load (environment.only "a")).map (·.a) = .ok settings.a ∧
        (load (environment.only "b")).map (·.b) = .ok settings.b ∧
        (load (environment.only "evaluator")).map (·.limit) = .ok settings.limit ∧
        (load (environment.only "format")).map (·.style.format) = .ok settings.style.format ∧
        (load (environment.only "metrics")).map (·.metrics) = .ok settings.metrics ∧
        (load (environment.only "prefix")).map (·.style.lead) = .ok settings.style.lead) ∧
    (∀ error, load environment = .error error ↔
      fields.findSome? (fun key => fault? (load (environment.only key))) = some error) ∧
    fields.Pairwise (· < ·) ∧
    (∀ key, environment.only key = [] → load (environment.only key) = .ok {}) ∧
    (environment.Separate → ∀ other, environment.Perm other → load other = load environment) := by
  refine ⟨fun _ _ => Assignment.path?_eq_some_iff, fun _ _ => Environment.readable_of_load, ?_,
    fun _ => readable.load_eq_ok, fun _ => readable.load_eq_error, by decide,
    fun key nothing => ?_, fun separate _ shuffled => readable.load_perm separate shuffled⟩
  · have taken : ∀ key ∈ fields, decide (∃ own ∈ fields, some key = some own) = true :=
      fun key member => decide_eq_true ⟨key, member, rfl⟩
    exact @Environment.Readable.load_filter _ readable
      (fun found => decide (∃ own ∈ fields, found = some own)) taken
  · rw [nothing]
    rfl

/-- A field and a place in another one, with a name that sets nothing between them. -/
theorem load_depth :
    let environment : Environment :=
      [⟨"APP_A", "3"⟩, ⟨"APP_Z", "\x7b"⟩, ⟨"app_evaluator_max_depth", "7"⟩]
    environment.Readable ∧ environment.Separate ∧
      ∀ other, environment.Perm other → load other = .ok { a := .ofInt 3, limit := 7 } := by
  intro environment
  have first : (Assignment.mk "APP_A" "3").path? = some ["a"] := by decide +kernel
  have second : (Assignment.mk "APP_Z" "\x7b").path? = some ["z"] := by decide +kernel
  have third : (Assignment.mk "app_evaluator_max_depth" "7").path? =
      some ["evaluator", "max_depth"] := by decide +kernel
  have number : Value.ofText? ['3'] = some (.unsigned 3) := rfl
  have brace : Value.ofText? ['{'] = some (.string ['{']) := rfl
  have depth : Value.ofText? ['7'] = some (.unsigned 7) := rfl
  have readable : environment.Readable := by
    simp [Environment.Readable, environment, Assignment.Readable, number, brace, depth]
  have separate : environment.Separate := by
    simp [Environment.Separate, environment, first, second, third, Value.Apart]
  have loads : load environment = .ok { a := .ofInt 3, limit := 7 } := by
    rw [load, Environment.value]
    simp only [environment, List.foldlM_cons, List.foldlM_nil, first, second, third]
    rfl
  obtain ⟨_, _, _, _, _, _, _, shuffle⟩ := load_by_field readable
  exact ⟨readable, separate, fun other shuffled => (shuffle separate other shuffled).trans loads⟩

/-- A text that cannot be read is in the way, although its name sets nothing. -/
theorem load_unreadable :
    let assignment : Assignment := ⟨"APP_Z", "\"é\\n\""⟩
    Environment.Separate [assignment] ∧ (∀ key ∈ fields, assignment.key? ≠ some key) ∧
      load [assignment] = .error (.unreadable assignment) ∧ load [] = .ok {} := by
  intro assignment
  have place : assignment.path? = some ["z"] := by decide +kernel
  have letters : assignment.text.toList = ['\x22', 'é', '\\', 'n', '\x22'] := by decide +kernel
  have severed : Value.ofText? ['\x22', 'é', '\\', 'n', '\x22'] = none := rfl
  refine ⟨List.pairwise_singleton _ _, ?_, ?_, rfl⟩
  · rw [Assignment.key?, place]
    decide
  · rw [load, Environment.value]
    simp only [List.foldlM_cons, List.foldlM_nil, place, letters, severed]
    rfl

end LineCalc.Settings
