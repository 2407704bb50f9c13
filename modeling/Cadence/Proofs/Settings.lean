import Cadence.Proofs.Reading
import Cadence.Proofs.Setting.Merge
import Cadence.Settings
import Mathlib.Data.List.Nodup

/-!
# Where the settings come from

If every name stands for a setting as a whole and none is given twice, what a setting is worth is
decided by the last source that gives it: the environment, else the file, else the built-in values.
-/

namespace Cadence

open Environment (settingName)

namespace Setting

/-- A name of the characters that names are made of stands for a setting as a whole. -/
theorem plainName_of_all {name : String} (some : name ≠ "")
    (all : ∀ c ∈ name.toList, Path.isNameChar c = true) : PlainName name := by
  have whole : name.toList.span Path.isNameChar = (name.toList, []) := by
    rw [List.span_eq_takeWhile_dropWhile, List.takeWhile_eq_self_iff.mpr all,
      List.dropWhile_eq_nil_iff.mpr all]
  have nonempty : name.toList.isEmpty = false := by simpa using some
  have parsed : Path.parse? name = Option.some [.name name] := by
    simp only [Path.parse?, whole, nonempty, Path.steps?, Option.map_some, String.ofList_toList,
      Bool.false_eq_true, if_false]
  rw [PlainName, Path.ofName, parsed, Option.getD_some]

end Setting

namespace Settings

open Setting

/-- The values that a source gives for a setting, whatever the letter case of their names. -/
def given {α : Type} (source : List (String × α)) (name : String) : List α :=
  (source.filter fun entry => settingName entry.1 == name).map (·.2)

theorem mem_given_iff {α : Type} {source : List (String × α)} {name : String} {value : α} :
    value ∈ given source name ↔ ∃ other, (other, value) ∈ source ∧ settingName other = name := by
  simp [given]

/-- A source that gives settings as a whole, each at most once. -/
structure PlainSource {α : Type} (source : List (String × α)) : Prop where
  names : ∀ entry ∈ source, PlainName (settingName entry.1)
  once : (source.map fun entry => settingName entry.1).Nodup

instance {α : Type} (source : List (String × α)) : Decidable (PlainSource source) :=
  decidable_of_iff ((∀ entry ∈ source, PlainName (settingName entry.1)) ∧
      (source.map fun entry => settingName entry.1).Nodup)
    ⟨fun h => ⟨h.1, h.2⟩, fun h => ⟨h.names, h.once⟩⟩

/-- The names of the settings that are built in. -/
theorem plainName_builtIn : ∀ entry ∈ builtIn, PlainName entry.1 := by
  have checked : ∀ entry ∈ builtIn, entry.1 ≠ "" ∧
      entry.1.toList.all Path.isNameChar = true := by decide +kernel
  intro entry member
  obtain ⟨some, all⟩ := checked entry member
  exact plainName_of_all some (List.all_eq_true.mp all)

theorem literalNames_subset : ∀ name ∈ literalNames, name ∈ builtIn.map (·.1) := by decide +kernel

section Gather

variable {file : List (String × Setting)} {environment : Environment} {name : String}

/-- The entries of the tree that all sources are gathered in. -/
def entries (file : List (String × Setting)) (environment : Environment) :
    List (String × Setting) :=
  merge (merge (merge (merge [] builtInSettings) (lowered file)) environment.settings)
    (literals environment)

theorem mem_literals_iff {value : Setting} :
    (name, value) ∈ literals environment ↔
      name ∈ literalNames ∧ environment.literal? name = some value := by
  rw [literals, List.mem_filterMap]
  constructor
  · rintro ⟨other, known, found⟩
    obtain ⟨setting, here, same⟩ := Option.map_eq_some_iff.mp found
    cases same
    exact ⟨known, here⟩
  · rintro ⟨known, found⟩
    exact ⟨name, known, by rw [found, Option.map_some]⟩

theorem nodup_literals (environment : Environment) :
    ((literals environment).map (·.1)).Nodup := by
  have names : (literals environment).map (·.1) =
      literalNames.filter fun name => (environment.literal? name).isSome := by
    rw [literals, List.map_filterMap, ← List.filterMap_eq_filter]
    refine List.filterMap_congr fun name _ => ?_
    cases found : environment.literal? name <;> simp [Option.guard, found]
  rw [names]
  exact List.Nodup.filter _ (by decide +kernel)

theorem gather_eq (plainFile : PlainSource file) (plainEnvironment : PlainSource environment) :
    gather file environment = .table (entries file environment) none := by
  have ofBuiltIn : ∀ entry ∈ builtInSettings, PlainName entry.1 := by
    intro entry member
    obtain ⟨source, given, rfl⟩ := List.mem_map.mp member
    exact plainName_builtIn source given
  have ofFile : ∀ entry ∈ lowered file, PlainName entry.1 := by
    intro entry member
    obtain ⟨source, given, rfl⟩ := List.mem_map.mp member
    exact plainFile.names source given
  have ofVariables : ∀ entry ∈ environment.settings, PlainName entry.1 := by
    intro entry member
    obtain ⟨source, given, rfl⟩ := List.mem_map.mp member
    exact plainEnvironment.names source given
  have ofLiterals : ∀ entry ∈ literals environment, PlainName entry.1 := by
    intro entry member
    obtain ⟨source, given, same⟩ := List.mem_map.mp
      (literalNames_subset entry.1 (mem_literals_iff.mp member).1)
    rw [← same]
    exact plainName_builtIn source given
  rw [gather, putAll_table _ _ ofBuiltIn, putAll_table _ _ ofFile, putAll_table _ _ ofVariables,
    putAll_table _ _ ofLiterals, entries]

/-- A variable that is taken as it is written. -/
theorem literal?_of_mem (plain : PlainSource environment) {text : String}
    (member : text ∈ given environment name) :
    environment.literal? name = some (.scalar (.text text) (some Environment.origin)) := by
  obtain ⟨other, member, same⟩ := mem_given_iff.mp member
  unfold Environment.literal?
  cases found : environment.reverse.find? fun entry => decide (settingName entry.1 = name) with
  | none =>
    have absent := List.find?_eq_none.mp found (other, text) (List.mem_reverse.mpr member)
    exact absurd (decide_eq_true same) absent
  | some entry =>
    have here : entry ∈ environment := List.mem_reverse.mp (List.mem_of_find?_eq_some found)
    have named : settingName entry.1 = name := by simpa using List.find?_some found
    have alone : entry = (other, text) :=
      List.inj_on_of_nodup_map plain.once here member (named.trans same.symm)
    rw [alone, Option.map_some]

theorem literal?_of_absent (absent : given environment name = []) :
    environment.literal? name = none := by
  rw [Environment.literal?, Option.map_eq_none_iff, List.find?_eq_none]
  intro entry member same
  have here : entry.2 ∈ given environment name :=
    mem_given_iff.mpr ⟨entry.1, List.mem_reverse.mp member, of_decide_eq_true same⟩
  rw [absent] at here
  cases here

theorem absent_of_given_eq_nil {α : Type} {source : List (String × α)}
    (absent : given source name = []) : ∀ entry ∈ source, settingName entry.1 ≠ name := by
  intro entry member same
  have here : entry.2 ∈ given source name := mem_given_iff.mpr ⟨entry.1, member, same⟩
  rw [absent] at here
  cases here

/-- What a variable of the environment sets a setting to. -/
def variableSetting (name text : String) : Setting :=
  .scalar (if name ∈ literalNames then .text text else Environment.parse text)
    (some Environment.origin)

/-- The environment decides where it gives a setting. -/
theorem lookup_entries_of_variable (plain : PlainSource environment) {text : String}
    (member : text ∈ given environment name) :
    (entries file environment).lookup name = some (variableSetting name text) := by
  unfold variableSetting entries
  by_cases literal : name ∈ literalNames
  · have here := mem_literals_iff.mpr ⟨literal, literal?_of_mem plain member⟩
    rw [lookup_merge_of_mem _ (nodup_literals environment) here, if_pos literal, placed_scalar]
  · have absent : ∀ entry ∈ literals environment, entry.1 ≠ name := by
      intro entry here same
      exact literal (same ▸ (mem_literals_iff.mp here).1)
    obtain ⟨other, member, same⟩ := mem_given_iff.mp member
    have here : (name, .scalar (Environment.parse text) (some Environment.origin)) ∈
        environment.settings := List.mem_map.mpr ⟨(other, text), member, by rw [← same]⟩
    have once : (environment.settings.map (·.1)).Nodup := by
      rw [Environment.settings, List.map_map]
      exact plain.once
    rw [lookup_merge_of_absent _ absent, lookup_merge_of_mem _ once here, if_neg literal,
      placed_scalar]

theorem lookup_entries_of_no_variable (absent : given environment name = []) :
    (entries file environment).lookup name =
      (merge (merge [] builtInSettings) (lowered file)).lookup name := by
  have fromLiterals : ∀ entry ∈ literals environment, entry.1 ≠ name := by
    rintro ⟨other, value⟩ here rfl
    have none := literal?_of_absent absent
    rw [(mem_literals_iff.mp here).2] at none
    cases none
  have fromVariables : ∀ entry ∈ environment.settings, entry.1 ≠ name := by
    intro entry here same
    obtain ⟨source, member, rfl⟩ := List.mem_map.mp here
    exact absent_of_given_eq_nil absent source member same
  rw [entries, lookup_merge_of_absent _ fromLiterals, lookup_merge_of_absent _ fromVariables]

theorem merge_builtInSettings : merge [] builtInSettings = builtInSettings := by
  simp [merge, builtInSettings, builtIn, adjustEntry]

/-- The file decides where the environment does not. -/
theorem lookup_entries_of_file (plain : PlainSource file) (absent : given environment name = [])
    {setting : Setting} (member : setting ∈ given file name) :
    (entries file environment).lookup name =
      some (setting.placed (builtInSettings.lookup name)) := by
  obtain ⟨other, member, same⟩ := mem_given_iff.mp member
  have here : (name, setting) ∈ lowered file :=
    List.mem_map.mpr ⟨(other, setting), member, by rw [← same]⟩
  have once : ((lowered file).map (·.1)).Nodup := by
    rw [lowered, List.map_map]
    exact plain.once
  rw [lookup_entries_of_no_variable absent, lookup_merge_of_mem _ once here,
    merge_builtInSettings]

/-- The built-in value is left where neither gives a setting. -/
theorem lookup_entries_of_neither (absent : given environment name = [])
    (absentInFile : given file name = []) :
    (entries file environment).lookup name = builtInSettings.lookup name := by
  have fromFile : ∀ entry ∈ lowered file, entry.1 ≠ name := by
    intro entry here same
    obtain ⟨source, member, rfl⟩ := List.mem_map.mp here
    exact absent_of_given_eq_nil absentInFile source member same
  rw [lookup_entries_of_no_variable absent, lookup_merge_of_absent _ fromFile,
    merge_builtInSettings]

end Gather

section Entry

variable {α β : Type} {name : String} {value : α}

theorem entry_eq_ok_iff {read : Setting → Except Mismatch α} {entries : List (String × Setting)} :
    entry read name entries = .ok value ↔
      ∃ setting, entries.lookup name = some setting ∧ read setting = .ok value := by
  unfold entry
  cases entries.lookup name with
  | none => simp [missing]
  | some setting =>
    cases converted : read setting <;> simp [convert, converted]

/-- A table that gives nothing, so that whatever stands in its place stays. -/
def isEmptyTable : Setting → Bool
  | .table [] _ => true
  | _ => false

theorem placed_of_isEmptyTable {setting : Setting} (empty : isEmptyTable setting = true)
    (existing : Setting) : setting.placed (some existing) = existing := by
  unfold isEmptyTable at empty
  split at empty
  · exact placed_empty _ existing
  · cases empty

/-- Anything else takes the place of what stands there, or makes a table of it. -/
theorem placed_of_filled {setting : Setting} (filled : isEmptyTable setting = false)
    (existing : Option Setting) :
    setting.placed existing = setting ∨
      ∃ entries origin, setting.placed existing = .table entries origin := by
  cases setting with
  | scalar => exact Or.inl rfl
  | list => exact Or.inl rfl
  | table fields origin =>
    cases fields with
    | nil => cases filled
    | cons field fields => exact Or.inr (exists_placed_eq_table field fields origin existing)

/-- A value is taken from the last source that gives its setting. -/
structure Sourced (file : List (String × Setting)) (environment : Environment) (name : String)
    (ofText : String → Option α) (ofSetting : Setting → Option α) (value : α) : Prop where
  fromEnvironment : ∀ text ∈ given environment name, ofText text = some value
  fromFile : given environment name = [] →
    ∀ setting ∈ given file name, isEmptyTable setting = false → ofSetting setting = some value
  fromBuiltIn : given environment name = [] →
    (∀ setting ∈ given file name, isEmptyTable setting = true) →
      ∃ scalar, (name, scalar) ∈ builtIn ∧ ofSetting (.scalar scalar none) = some value

/-- A value that depends on another one only is taken from the same source. -/
theorem Sourced.bind {file : List (String × Setting)} {environment : Environment}
    {ofText : String → Option α} {ofSetting : Setting → Option α} {result : β}
    (next : α → Option β) (same : next value = some result)
    (h : Sourced file environment name ofText ofSetting value) :
    Sourced file environment name (fun text => (ofText text).bind next)
      (fun setting => (ofSetting setting).bind next) result where
  fromEnvironment text member := by rw [h.fromEnvironment text member, Option.bind_some, same]
  fromFile absent setting member filled := by
    rw [h.fromFile absent setting member filled, Option.bind_some, same]
  fromBuiltIn absent empty := by
    obtain ⟨scalar, member, read⟩ := h.fromBuiltIn absent empty
    exact ⟨scalar, member, by rw [read, Option.bind_some, same]⟩

/-- Sources that give the same for a setting come to the same value. -/
theorem Sourced.unique {file file' : List (String × Setting)} {environment environment' : Environment}
    {ofText : String → Option α} {ofSetting : Setting → Option α} {value' : α}
    (h : Sourced file environment name ofText ofSetting value)
    (h' : Sourced file' environment' name ofText ofSetting value')
    (sameFile : given file name = given file' name)
    (sameEnvironment : given environment name = given environment' name) : value = value' := by
  cases texts : given environment name with
  | cons text _ =>
    have here : text ∈ given environment name := texts ▸ List.mem_cons_self
    exact Option.some.inj ((h.fromEnvironment text here).symm.trans
      (h'.fromEnvironment text (sameEnvironment ▸ here)))
  | nil =>
    have none' : given environment' name = [] := sameEnvironment ▸ texts
    by_cases empty : ∀ setting ∈ given file name, isEmptyTable setting = true
    · obtain ⟨scalar, member, read⟩ := h.fromBuiltIn texts empty
      obtain ⟨scalar', member', read'⟩ := h'.fromBuiltIn none' (sameFile ▸ empty)
      have once : (builtIn.map (·.1)).Nodup := by decide +kernel
      obtain rfl : scalar = scalar' :=
        congrArg Prod.snd (List.inj_on_of_nodup_map once member member' rfl)
      exact Option.some.inj (read.symm.trans read')
    · push Not at empty
      obtain ⟨setting, member, filled⟩ := empty
      have filled := Bool.eq_false_iff.mpr filled
      exact Option.some.inj ((h.fromFile texts setting member filled).symm.trans
        (h'.fromFile none' setting (sameFile ▸ member) filled))

theorem lookup_builtInSettings {setting : Setting}
    (h : builtInSettings.lookup name = some setting) :
    ∃ scalar, (name, scalar) ∈ builtIn ∧ setting = .scalar scalar none := by
  obtain ⟨before, after, split, -⟩ := List.lookup_eq_some_iff.mp h
  have member : (name, setting) ∈ builtInSettings := by
    rw [split]
    simp
  obtain ⟨⟨other, scalar⟩, known, same⟩ := List.mem_map.mp member
  cases same
  exact ⟨scalar, known, rfl⟩

/-- An entry of the gathered tree that was converted is taken from the last source that gives it. -/
theorem sourced_of_entry {file : List (String × Setting)} {environment : Environment}
    (plainFile : PlainSource file) (plainEnvironment : PlainSource environment)
    {read : Setting → Except Mismatch α}
    (refuses : ∀ fields origin, (read (.table fields origin)).toOption = none)
    (known : (builtInSettings.lookup name).isSome)
    (h : entry read name (entries file environment) = .ok value) :
    Sourced file environment name (fun text => (read (variableSetting name text)).toOption)
      (fun setting => (read setting).toOption) value := by
  obtain ⟨setting, found, converted⟩ := entry_eq_ok_iff.mp h
  have converted : (read setting).toOption = some value := by rw [converted]; rfl
  obtain ⟨default, standard⟩ := Option.isSome_iff_exists.mp known
  obtain ⟨scalar, member, rfl⟩ := lookup_builtInSettings standard
  constructor
  case fromEnvironment =>
    intro text member
    rw [lookup_entries_of_variable plainEnvironment member] at found
    cases found
    exact converted
  case fromFile =>
    intro absent given member filled
    rw [lookup_entries_of_file plainFile absent member, standard] at found
    cases found
    rcases placed_of_filled filled (some (.scalar scalar none)) with same | ⟨entries, origin, same⟩
    · rwa [same] at converted
    · rw [same, refuses] at converted
      cases converted
  case fromBuiltIn =>
    intro absent empty
    refine ⟨scalar, member, ?_⟩
    cases inFile : given file name with
    | nil =>
      rw [lookup_entries_of_neither absent inFile, standard] at found
      cases found
      exact converted
    | cons given others =>
      have here : given ∈ Settings.given file name := inFile ▸ List.mem_cons_self
      rw [lookup_entries_of_file plainFile absent here, standard,
        placed_of_isEmptyTable (empty given here)] at found
      cases found
      exact converted

end Entry

/-- The settings that are read from the entries of a tree. -/
structure Typed (entries : List (String × Setting)) (settings : Settings) : Prop where
  baseUrl : entry Setting.toText "base_url" entries = .ok settings.baseUrl
  keyPrefix : entry Setting.toText "key_prefix" entries = .ok settings.keyPrefix
  value : entry Setting.toText "value" entries = .ok settings.value
  ttlMillis : entry Setting.toCount "ttl_ms" entries = .ok settings.ttlMillis
  ratePing : entry Setting.toFloat "rate_ping" entries = .ok settings.ratePing
  ratePutGet : entry Setting.toFloat "rate_putget" entries = .ok settings.ratePutGet
  duration : entry Setting.toText "duration" entries = .ok settings.duration
  gracePeriod : entry Setting.toText "grace_period" entries = .ok settings.gracePeriod
  settleMillis : entry Setting.toCount "settle_ms" entries = .ok settings.settleMillis
  minWorkers : entry Setting.toCount "min_workers" entries = .ok settings.minWorkers
  requestTimeout : entry Setting.toText "request_timeout" entries = .ok settings.requestTimeout
  progressInterval :
    entry Setting.toText "progress_interval" entries = .ok settings.progressInterval
  abortCheckInterval :
    entry Setting.toText "abort_check_interval" entries = .ok settings.abortCheckInterval
  thresholds : thresholdsOf (entries.lookup "thresholds") = .ok settings.thresholds

theorem typed_of_ofTree {entries : List (String × Setting)} {origin : Option String}
    {settings : Settings} (h : ofTree (.table entries origin) = .ok settings) :
    Typed entries settings := by
  unfold ofTree at h
  obtain ⟨_, baseUrl, h⟩ := bind_eq_ok.mp h
  obtain ⟨_, keyPrefix, h⟩ := bind_eq_ok.mp h
  obtain ⟨_, value, h⟩ := bind_eq_ok.mp h
  obtain ⟨_, ttlMillis, h⟩ := bind_eq_ok.mp h
  obtain ⟨_, ratePing, h⟩ := bind_eq_ok.mp h
  obtain ⟨_, ratePutGet, h⟩ := bind_eq_ok.mp h
  obtain ⟨_, duration, h⟩ := bind_eq_ok.mp h
  obtain ⟨_, gracePeriod, h⟩ := bind_eq_ok.mp h
  obtain ⟨_, settleMillis, h⟩ := bind_eq_ok.mp h
  obtain ⟨_, minWorkers, h⟩ := bind_eq_ok.mp h
  obtain ⟨_, requestTimeout, h⟩ := bind_eq_ok.mp h
  obtain ⟨_, progressInterval, h⟩ := bind_eq_ok.mp h
  obtain ⟨_, abortCheckInterval, h⟩ := bind_eq_ok.mp h
  obtain ⟨_, thresholds, h⟩ := bind_eq_ok.mp h
  cases h
  exact ⟨baseUrl, keyPrefix, value, ttlMillis, ratePing, ratePutGet, duration, gracePeriod,
    settleMillis, minWorkers, requestTimeout, progressInterval, abortCheckInterval, thresholds⟩

end Settings

end Cadence
