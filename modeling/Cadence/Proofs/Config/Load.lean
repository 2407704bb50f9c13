import Cadence.Config.Load
import Cadence.Proofs.Settings

/-!
# Where a configuration comes from

Each field of a loaded configuration is read from one setting, and that setting from the last source
that gives it. Texts in the environment are taken as they are written; other settings are converted
from what their texts are worth. No field depends on where any other one comes from.
-/

namespace Cadence

/-- The view of a directory that holds one file. -/
def FileView.single (path text : String) : FileView :=
  ⟨"/", fun other => if other = path then some text else none⟩

namespace Setting

theorem toText_table (fields : List (String × Setting)) (origin : Option String) :
    (table fields origin).toText.toOption = none := rfl

theorem toCount_table (fields : List (String × Setting)) (origin : Option String) :
    (table fields origin).toCount.toOption = none := rfl

theorem toFloat_table (fields : List (String × Setting)) (origin : Option String) :
    (table fields origin).toFloat.toOption = none := rfl

end Setting

namespace Settings

section Entry

variable {file : List (String × Setting)} {environment : Environment} {name : String} {α : Type}

/-- A setting that is read as a text: what the environment says is taken as it is written. -/
def Worded (file : List (String × Setting)) (environment : Environment) (name : String)
    (read : String → Option α) (value : α) : Prop :=
  Sourced file environment name read (fun setting => setting.toText.toOption.bind read) value

/-- A setting that is converted from what the text in the environment is worth. -/
def Converted (file : List (String × Setting)) (environment : Environment) (name : String)
    (read : Setting → Option α) (value : α) : Prop :=
  Sourced file environment name
    (fun text => read (.scalar (Environment.parse text) (some Environment.origin))) read value

/-- A text that is read further. -/
theorem Worded.read {text : String} {next : String → Option α} {value : α}
    (h : Worded file environment name some text) (same : next text = some value) :
    Worded file environment name next value := by
  simpa only [Worded, Option.bind_some, Option.bind_fun_some] using Sourced.bind next same h

theorem Converted.map {β : Type} {read : Setting → Option α} {value : α} (f : α → β)
    (h : Converted file environment name read value) :
    Converted file environment name (fun setting => (read setting).map f) (f value) := by
  simpa only [Converted, Option.map_eq_bind] using Sourced.bind (some ∘ f) rfl h

theorem worded_of_entry (plainFile : PlainSource file) (plainEnvironment : PlainSource environment)
    (literal : name ∈ literalNames) {text : String}
    (h : entry Setting.toText name (entries file environment) = .ok text) :
    Worded file environment name some text := by
  have known : ∀ name ∈ literalNames, (builtInSettings.lookup name).isSome = true := by
    decide +kernel
  have sourced := sourced_of_entry plainFile plainEnvironment Setting.toText_table
    (known name literal) h
  refine ⟨fun text member => ?_, fun absent setting member filled => ?_, fun absent empty => ?_⟩
  · rw [← sourced.fromEnvironment text member, variableSetting, if_pos literal]
    rfl
  · rw [sourced.fromFile absent setting member filled]
    rfl
  · obtain ⟨scalar, member, read⟩ := sourced.fromBuiltIn absent empty
    exact ⟨scalar, member, by rw [read]; rfl⟩

theorem converted_of_entry (plainFile : PlainSource file)
    (plainEnvironment : PlainSource environment) (other : name ∉ literalNames)
    (known : (builtInSettings.lookup name).isSome) {read : Setting → Except Mismatch α} {value : α}
    (refuses : ∀ fields origin, (read (.table fields origin)).toOption = none)
    (h : entry read name (entries file environment) = .ok value) :
    Converted file environment name (fun setting => (read setting).toOption) value := by
  have sourced := sourced_of_entry plainFile plainEnvironment refuses known h
  have variableSetting (text : String) : variableSetting name text =
      .scalar (Environment.parse text) (some Environment.origin) := by
    rw [Settings.variableSetting, if_neg other]
  simpa only [Converted, variableSetting] using sourced

end Entry

section Thresholds

/-- Nothing in the place of a list. -/
def isNull : Setting → Bool
  | .scalar .null _ => true
  | _ => false

theorem parse_ne_null (text : String) : Environment.parse text ≠ .null := by
  unfold Environment.parse
  dsimp only
  split_ifs
  · exact nofun
  · exact nofun
  · split
    · exact nofun
    · split <;> exact nofun

/-- Only nothing and lists are accepted in the place of the thresholds. -/
theorem thresholdsOf_eq_ok {setting : Setting} {thresholds : Option (List ThresholdText)}
    (h : thresholdsOf (some setting) = .ok thresholds) :
    (isNull setting = true ∧ thresholds = none) ∨
      ∃ items origin written, setting = .list items origin ∧ thresholds = some written ∧
        thresholdList 0 items = .ok written := by
  unfold thresholdsOf at h
  split at h
  next same => cases same
  next same =>
    cases same
    cases h
    exact Or.inl ⟨rfl, rfl⟩
  next items origin same =>
    cases same
    cases list : thresholdList 0 items with
    | error fault =>
      rw [list] at h
      cases h
    | ok written =>
      rw [list] at h
      cases h
      exact Or.inr ⟨items, origin, written, rfl, rfl, list⟩
  next => cases h

variable {file : List (String × Setting)} {environment : Environment}
  {thresholds : Option (List ThresholdText)}

theorem lookup_builtIn_thresholds : builtInSettings.lookup "thresholds" = none := by
  rw [List.lookup_eq_none_iff]
  decide +kernel

/-- No text of a variable is worth a list. -/
theorem given_thresholds_eq_nil (plainEnvironment : PlainSource environment)
    (h : thresholdsOf ((entries file environment).lookup "thresholds") = .ok thresholds) :
    given environment "thresholds" = [] := by
  refine List.eq_nil_iff_forall_not_mem.mpr fun text member => ?_
  have other : "thresholds" ∉ literalNames := by decide +kernel
  rw [lookup_entries_of_variable plainEnvironment member, variableSetting, if_neg other] at h
  rcases thresholdsOf_eq_ok h with ⟨null, -⟩ | ⟨_, _, _, list, -⟩
  · have some := parse_ne_null text
    cases parsed : Environment.parse text <;> rw [parsed] at null some
    · exact some rfl
    all_goals cases null
  · cases list

/-- The thresholds are those of the list in the file. -/
theorem thresholds_listed (plainFile : PlainSource file) (plainEnvironment : PlainSource environment)
    (h : thresholdsOf ((entries file environment).lookup "thresholds") = .ok thresholds) :
    ∀ setting ∈ given file "thresholds", isNull setting = false →
      ∃ items origin written, setting = .list items origin ∧ thresholds = some written ∧
        thresholdList 0 items = .ok written := by
  intro setting member filled
  rw [lookup_entries_of_file plainFile (given_thresholds_eq_nil plainEnvironment h) member,
    lookup_builtIn_thresholds] at h
  cases setting with
  | scalar value origin =>
    rcases thresholdsOf_eq_ok h with ⟨null, -⟩ | ⟨_, _, _, list, -⟩
    · exact absurd (null.symm.trans filled) (by decide)
    · cases list
  | list items origin => exact (thresholdsOf_eq_ok h).resolve_left fun null => nomatch null.1
  | table fields origin =>
    cases fields with
    | nil => cases h
    | cons field fields =>
      obtain ⟨entries, origin', same⟩ := Setting.exists_placed_eq_table field fields origin none
      rw [same] at h
      cases h

/-- There are none if the file has nothing in the place of the list. -/
theorem thresholds_unlisted (plainFile : PlainSource file)
    (plainEnvironment : PlainSource environment)
    (h : thresholdsOf ((entries file environment).lookup "thresholds") = .ok thresholds)
    (empty : ∀ setting ∈ given file "thresholds", isNull setting = true) : thresholds = none := by
  have absent := given_thresholds_eq_nil plainEnvironment h
  cases inFile : given file "thresholds" with
  | nil =>
    rw [lookup_entries_of_neither absent inFile, lookup_builtIn_thresholds] at h
    cases h
    rfl
  | cons setting others =>
    have here : setting ∈ given file "thresholds" := inFile ▸ List.mem_cons_self
    have null := empty setting here
    rw [lookup_entries_of_file plainFile absent here, lookup_builtIn_thresholds] at h
    cases setting with
    | scalar value origin =>
      rcases thresholdsOf_eq_ok h with ⟨-, same⟩ | ⟨_, _, _, list, -⟩
      · exact same
      · cases list
    | list => cases null
    | table => cases null

end Thresholds

end Settings

namespace RunConfig

open Settings

variable {file file' : List (String × Setting)} {environment environment' : Environment}
  {config config' : RunConfig}

/-- A text without the blanks at its ends. -/
def trimmed (text : String) : Option String := some (String.ofList (Text.trim text.toList))

/-- The time that the phrase of a duration setting names. -/
def phrase (name text : String) : Option Duration := (durationSetting name text).toOption

/-- A time that is given in milliseconds. -/
def millis (setting : Setting) : Option Duration := setting.toCount.toOption.map .ofMillis

def number (setting : Setting) : Option Float := setting.toFloat.toOption

def count (setting : Setting) : Option Nat := setting.toCount.toOption

/-- What an item at a place of the list of thresholds is read as. -/
def thresholdAt (place : Nat) (item : Setting) : Option Threshold :=
  (threshold place item).toOption.bind fun written => (thresholdSetting written).toOption

/-- Where every field of a configuration comes from. -/
structure Assembled (file : List (String × Setting)) (environment : Environment)
    (config : RunConfig) : Prop where
  baseUrl : Worded file environment "base_url" trimmed config.baseUrl
  keyPrefix : Worded file environment "key_prefix" some config.keyPrefix
  value : Worded file environment "value" some config.value
  ttl : Converted file environment "ttl_ms" millis config.ttl
  rates : ∃ ping putGet, config.scenarioRates = [(pingName, ping), (putGetName, putGet)] ∧
    Converted file environment "rate_ping" number ping ∧
    Converted file environment "rate_putget" number putGet
  duration : Worded file environment "duration" (phrase "duration") config.duration
  gracePeriod : Worded file environment "grace_period" (phrase "grace_period") config.gracePeriod
  settle : Converted file environment "settle_ms" millis config.settle
  minWorkers : Converted file environment "min_workers" count config.minWorkers
  requestTimeout :
    Worded file environment "request_timeout" (phrase "request_timeout") config.requestTimeout
  progressInterval :
    Worded file environment "progress_interval" (phrase "progress_interval") config.progressInterval
  abortCheckInterval : Worded file environment "abort_check_interval"
    (phrase "abort_check_interval") config.abortCheckInterval
  /-- Every item of the list in the file is a threshold, and they keep their order. -/
  listed : ∀ setting ∈ given file "thresholds", isNull setting = false →
    ∃ items origin, setting = .list items origin ∧
      items.mapIdx thresholdAt = config.thresholds.map some
  unlisted : (∀ setting ∈ given file "thresholds", isNull setting = true) →
    config.thresholds = defaultThresholds

/-- What a configuration says about a setting. -/
inductive Field where
  | text (s : String)
  | time (t : Duration)
  | rate (perSecond : Option Float)
  | count (n : Nat)
  | thresholds (list : List Threshold)

/-- The field that a setting is for. -/
def field? (config : RunConfig) : String → Option Field
  | "base_url" => some (.text config.baseUrl)
  | "key_prefix" => some (.text config.keyPrefix)
  | "value" => some (.text config.value)
  | "ttl_ms" => some (.time config.ttl)
  | "rate_ping" => some (.rate (config.rateOf? pingName))
  | "rate_putget" => some (.rate (config.rateOf? putGetName))
  | "duration" => some (.time config.duration)
  | "grace_period" => some (.time config.gracePeriod)
  | "settle_ms" => some (.time config.settle)
  | "min_workers" => some (.count config.minWorkers)
  | "request_timeout" => some (.time config.requestTimeout)
  | "progress_interval" => some (.time config.progressInterval)
  | "abort_check_interval" => some (.time config.abortCheckInterval)
  | "thresholds" => some (.thresholds config.thresholds)
  | _ => none

theorem toOption_eq_some_iff {ε α : Type} {result : Except ε α} {value : α} :
    result.toOption = some value ↔ result = .ok value := by
  cases result <;> simp [Except.toOption]

/-- A list of thresholds that was read is read item by item. -/
theorem mapIdx_thresholdAt {index : Nat} {items : List Setting} {written : List ThresholdText}
    {thresholds : List Threshold} (list : thresholdList index items = .ok written)
    (read : written.mapM thresholdSetting = .ok thresholds) :
    items.mapIdx (fun i => thresholdAt (index + i)) = thresholds.map some := by
  induction items generalizing index written thresholds with
  | nil =>
    cases list
    cases read
    rfl
  | cons item items ih =>
    obtain ⟨text, here, list⟩ := bind_eq_ok.mp list
    obtain ⟨texts, behind, list⟩ := bind_eq_ok.mp list
    cases list
    rw [List.mapM_cons] at read
    obtain ⟨threshold, first, read⟩ := bind_eq_ok.mp read
    obtain ⟨others, rest, read⟩ := bind_eq_ok.mp read
    cases read
    have shifted : (fun i => thresholdAt (index + (i + 1))) =
        fun i => thresholdAt (index + 1 + i) := by
      funext i
      rw [Nat.add_right_comm, Nat.add_assoc]
    rw [List.mapIdx_cons, shifted, ih behind rest, Nat.add_zero, thresholdAt, here]
    exact congrArg (· :: others.map some) (toOption_eq_some_iff.mpr first)

/-- A configuration that was made of the gathered settings. -/
theorem assembled_of_ofSettings (plainFile : PlainSource file)
    (plainEnvironment : PlainSource environment) {settings : Settings}
    (typed : Typed (entries file environment) settings) (h : ofSettings settings = .ok config) :
    Assembled file environment config := by
  unfold ofSettings at h
  obtain ⟨thresholds, list, h⟩ := bind_eq_ok.mp h
  obtain ⟨_, duration, h⟩ := bind_eq_ok.mp h
  obtain ⟨_, gracePeriod, h⟩ := bind_eq_ok.mp h
  obtain ⟨_, requestTimeout, h⟩ := bind_eq_ok.mp h
  obtain ⟨_, progressInterval, h⟩ := bind_eq_ok.mp h
  obtain ⟨_, abortCheckInterval, h⟩ := bind_eq_ok.mp h
  cases h
  have text {name text : String} (literal : name ∈ literalNames)
      (h : entry Setting.toText name (entries file environment) = .ok text) :=
    worded_of_entry plainFile plainEnvironment literal h
  have count {name : String} {n : Nat} (other : name ∉ literalNames)
      (known : (builtInSettings.lookup name).isSome)
      (h : entry Setting.toCount name (entries file environment) = .ok n) :=
    converted_of_entry plainFile plainEnvironment other known Setting.toCount_table h
  have number {name : String} {x : Float} (other : name ∉ literalNames)
      (known : (builtInSettings.lookup name).isSome)
      (h : entry Setting.toFloat name (entries file environment) = .ok x) :=
    converted_of_entry plainFile plainEnvironment other known Setting.toFloat_table h
  exact
    { baseUrl := (text (by decide +kernel) typed.baseUrl).read rfl
      keyPrefix := text (by decide +kernel) typed.keyPrefix
      value := text (by decide +kernel) typed.value
      ttl := (count (by decide +kernel) (by decide +kernel) typed.ttlMillis).map Duration.ofMillis
      rates := ⟨_, _, rfl, number (by decide +kernel) (by decide +kernel) typed.ratePing,
        number (by decide +kernel) (by decide +kernel) typed.ratePutGet⟩
      duration := (text (by decide +kernel) typed.duration).read (toOption_eq_some_iff.mpr duration)
      gracePeriod := (text (by decide +kernel) typed.gracePeriod).read (toOption_eq_some_iff.mpr gracePeriod)
      settle := (count (by decide +kernel) (by decide +kernel) typed.settleMillis).map Duration.ofMillis
      minWorkers := count (by decide +kernel) (by decide +kernel) typed.minWorkers
      requestTimeout :=
        (text (by decide +kernel) typed.requestTimeout).read (toOption_eq_some_iff.mpr requestTimeout)
      progressInterval :=
        (text (by decide +kernel) typed.progressInterval).read (toOption_eq_some_iff.mpr progressInterval)
      abortCheckInterval :=
        (text (by decide +kernel) typed.abortCheckInterval).read
          (toOption_eq_some_iff.mpr abortCheckInterval)
      listed := by
        intro setting member filled
        obtain ⟨items, origin, written, same, absent, read⟩ :=
          thresholds_listed plainFile plainEnvironment typed.thresholds setting member filled
        rw [absent] at list
        refine ⟨items, origin, same, ?_⟩
        simpa only [Nat.zero_add] using mapIdx_thresholdAt read list
      unlisted := by
        intro empty
        rw [thresholds_unlisted plainFile plainEnvironment typed.thresholds empty] at list
        cases list
        rfl }

/-- A configuration that was loaded. -/
theorem assembled_of_load {path : Option String} {view : FileView}
    (found : fileSettings path environment view = .ok file) (plainFile : PlainSource file)
    (plainEnvironment : PlainSource environment)
    (loaded : load path environment view = .ok config) : Assembled file environment config := by
  obtain ⟨settings, gathered, loaded⟩ := bind_eq_ok.mp loaded
  obtain ⟨_, made, loaded⟩ := bind_eq_ok.mp loaded
  obtain ⟨_, -, same⟩ := bind_eq_ok.mp loaded
  cases same
  have gathered : Settings.load path environment view = .ok settings := by
    cases read : Settings.load path environment view <;> rw [read] at gathered <;> cases gathered
    rfl
  obtain ⟨_, same, typed⟩ := bind_eq_ok.mp gathered
  cases found.symm.trans same
  rw [gather_eq plainFile plainEnvironment] at typed
  exact assembled_of_ofSettings plainFile plainEnvironment (typed_of_ofTree typed) made

theorem Assembled.thresholds_eq (h : Assembled file environment config)
    (h' : Assembled file' environment' config')
    (same : given file "thresholds" = given file' "thresholds") :
    config.thresholds = config'.thresholds := by
  by_cases empty : ∀ setting ∈ given file "thresholds", isNull setting = true
  · rw [h.unlisted empty, h'.unlisted (same ▸ empty)]
  · push Not at empty
    obtain ⟨setting, member, filled⟩ := empty
    have filled := Bool.eq_false_iff.mpr filled
    obtain ⟨items, origin, rfl, read⟩ := h.listed setting member filled
    obtain ⟨items', origin', list, read'⟩ := h'.listed _ (same ▸ member) filled
    cases list
    exact (List.map_inj_right fun _ _ => Option.some.inj).mp (read.symm.trans read')

/-- Sources that give the same for a setting come to the same field. -/
theorem Assembled.field?_eq (h : Assembled file environment config)
    (h' : Assembled file' environment' config') {name : String}
    (sameFile : given file name = given file' name)
    (sameEnvironment : given environment name = given environment' name) :
    config.field? name = config'.field? name := by
  obtain ⟨ping, putGet, rates, fromPing, fromPutGet⟩ := h.rates
  obtain ⟨ping', putGet', rates', fromPing', fromPutGet'⟩ := h'.rates
  unfold field?
  split
  · rw [Sourced.unique h.baseUrl h'.baseUrl sameFile sameEnvironment]
  · rw [Sourced.unique h.keyPrefix h'.keyPrefix sameFile sameEnvironment]
  · rw [Sourced.unique h.value h'.value sameFile sameEnvironment]
  · rw [Sourced.unique h.ttl h'.ttl sameFile sameEnvironment]
  · rw [rateOf?, rateOf?, rates, rates', Sourced.unique fromPing fromPing' sameFile sameEnvironment]
    rfl
  · rw [rateOf?, rateOf?, rates, rates',
      Sourced.unique fromPutGet fromPutGet' sameFile sameEnvironment]
    rfl
  · rw [Sourced.unique h.duration h'.duration sameFile sameEnvironment]
  · rw [Sourced.unique h.gracePeriod h'.gracePeriod sameFile sameEnvironment]
  · rw [Sourced.unique h.settle h'.settle sameFile sameEnvironment]
  · rw [Sourced.unique h.minWorkers h'.minWorkers sameFile sameEnvironment]
  · rw [Sourced.unique h.requestTimeout h'.requestTimeout sameFile sameEnvironment]
  · rw [Sourced.unique h.progressInterval h'.progressInterval sameFile sameEnvironment]
  · rw [Sourced.unique h.abortCheckInterval h'.abortCheckInterval sameFile sameEnvironment]
  · rw [h.thresholds_eq h' sameFile]
  · rfl

/-- A configuration takes each of its fields from the last source that gives the setting of the
field, and no source of one setting has an effect on another field. -/
theorem loaded_from_sources {path : Option String} {view : FileView}
    (found : fileSettings path environment view = .ok file) (plainFile : PlainSource file)
    (plainEnvironment : PlainSource environment)
    (loaded : load path environment view = .ok config) :
    Assembled file environment config ∧
      ∀ path' view' environment' file' config',
        fileSettings path' environment' view' = .ok file' → PlainSource file' →
        PlainSource environment' → load path' environment' view' = .ok config' →
        ∀ name, given file name = given file' name →
          given environment name = given environment' name →
          config.field? name = config'.field? name := by
  have assembled := assembled_of_load found plainFile plainEnvironment loaded
  refine ⟨assembled, ?_⟩
  intro path' view' environment' file' config' found' plainFile' plainEnvironment' loaded' name
    sameFile sameEnvironment
  have other := assembled_of_load found' plainFile' plainEnvironment' loaded'
  exact assembled.field?_eq other sameFile sameEnvironment

/-- Loading can be computed. -/
theorem exists_loaded (path : Option String) (environment : Environment) (view : FileView)
    (p : List (String × Setting) → RunConfig → Prop) [∀ file config, Decidable (p file config)]
    (computed : ((fileSettings path environment view).toOption.any fun file =>
      (load path environment view).toOption.any fun config => decide (p file config)) = true) :
    ∃ file config, fileSettings path environment view = .ok file ∧
      load path environment view = .ok config ∧ p file config := by
  obtain ⟨file, found, computed⟩ := (Option.any_eq_true _ _).mp computed
  obtain ⟨config, loaded, checked⟩ := (Option.any_eq_true _ _).mp computed
  exact ⟨file, config, toOption_eq_some_iff.mp found, toOption_eq_some_iff.mp loaded,
    of_decide_eq_true checked⟩

/-- A text that looks like a number is taken as it is written, whatever the file says. -/
theorem loaded_from_sources_digits : ∃ file config,
    let view := FileView.single "c.json" "\x7b\"value\": \"file\"\x7d"
    fileSettings (some "c.json") [("Value", "007")] view = .ok file ∧ PlainSource file ∧
      PlainSource [("Value", "007")] ∧ load (some "c.json") [("Value", "007")] view = .ok config ∧
      config.value = "007" := by
  obtain ⟨file, config, found, loaded, plainFile, plainEnvironment, member⟩ :=
    exists_loaded (some "c.json") [("Value", "007")]
      (.single "c.json" "\x7b\"value\": \"file\"\x7d")
      (fun file _ => PlainSource file ∧ PlainSource [("Value", "007")] ∧
        "007" ∈ given [("Value", "007")] "value")
      (by decide +kernel)
  have assembled := (loaded_from_sources found plainFile plainEnvironment loaded).1
  have value := Option.some.inj (assembled.value.fromEnvironment "007" member)
  exact ⟨file, config, found, plainFile, plainEnvironment, loaded, value.symm⟩

/-- A file may give an empty table for a text; the text is then not taken from the file. -/
theorem empty_table_left_out : ∃ file config,
    let view := FileView.single "c.json" "\x7b\"value\": \x7b\x7d\x7d"
    fileSettings (some "c.json") [] view = .ok file ∧ PlainSource file ∧
      load (some "c.json") [] view = .ok config ∧
      ∃ setting ∈ given file "value", setting.toText.toOption ≠ some config.value := by
  obtain ⟨file, config, found, loaded, plain, differs⟩ :=
    exists_loaded (some "c.json") [] (.single "c.json" "\x7b\"value\": \x7b\x7d\x7d")
      (fun file config => PlainSource file ∧
        ∃ setting ∈ given file "value", setting.toText.toOption ≠ some config.value)
      (by decide +kernel)
  exact ⟨file, config, found, plain, loaded, differs⟩

end RunConfig

end Cadence
