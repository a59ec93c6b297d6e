import ClaimStore.Config.Load
import ClaimStore.Proofs.Config.Fields
import ClaimStore.Proofs.Config.Layers
import ClaimStore.Proofs.Config.Variables

/-!
What loaded options come from.

Every field has its value from the topmost of the three layers that says something of it: the
variables, the file, or the defaults.
-/
namespace ClaimStore

open Setting

variable {options : Options} {loader : ConfigLoader}
variable {environment : List (String × String)}

/-! ### Defaults -/

theorem Setting.durationGives (duration : Duration) :
    Gives toInterval (some (Duration.setting duration)) duration :=
  ⟨_, rfl, durationOfText_text duration⟩

theorem Setting.durationMayGive (duration : Option Duration) :
    MayGive toInterval (some (Duration.setting duration)) duration := by
  cases duration with
  | none => rfl
  | some duration => exact congrArg (Except.map some) (durationOfText_text duration)

theorem Setting.limitMayGive (limit : Option Limit) :
    MayGive toLimit (some (Limit.setting limit)) limit := by
  cases limit with
  | none => rfl
  | some limit =>
      have read : toLimit (.natural limit.count) = .ok limit := by
        show limitOfInt (limit.toNat : Int) = .ok limit
        rw [limitOfInt, Int.toNat_natCast, limit.ofNat?_toNat]
      exact congrArg (Except.map some) read

theorem Setting.factorGives (factor : Number.Single) :
    Gives (fun setting => setting.toFactor.map Number.Single.datum) (some (.float factor.toDouble))
      factor.datum := by
  refine ⟨_, rfl, ?_⟩
  by_cases number : factor.datum = .nan
  · have same : factor.toDouble = .ofDatum .nan := congrArg Number.Double.ofDatum number
    rw [number, same]
    rfl
  · exact congrArg (Except.map Number.Single.datum) (toFactor_toDouble number)

theorem RetryPolicy.readFrom_setting (policy : RetryPolicy) :
    policy.ReadFrom policy.setting.find? := by
  cases policy with
  | none => exact ⟨⟨_, rfl, rfl⟩, trivial⟩
  | fixedDelay interval limit =>
      exact ⟨⟨_, rfl, rfl⟩, durationGives interval, limitMayGive limit⟩
  | exponential initial factor limit longest =>
      exact ⟨⟨_, rfl, rfl⟩, durationGives initial, factorGives factor, limitMayGive limit,
        durationMayGive longest⟩

/-- The settings of options give back their fields. -/
theorem Options.readFrom_configuration (options : Options) :
    options.ReadFrom fun path => options.configuration.find? ("claim-store" :: path) where
  commitTimeout := ⟨_, rfl, durationOfText_text options.commitTimeout⟩
  loadPolicy := options.loadPolicy.readFrom_setting
  batchLimit := limitMayGive options.batchLimit

theorem ordered_duration (duration : Option Duration) :
    (Duration.setting duration).sorted.Ordered := by
  cases duration <;> exact .plain nofun nofun

theorem ordered_limit (limit : Option Limit) : (Limit.setting limit).sorted.Ordered := by
  cases limit <;> exact .plain nofun nofun

theorem RetryPolicy.ordered_setting (policy : RetryPolicy) : policy.setting.sorted.Ordered := by
  have plain : ∀ word, (text word).sorted.Ordered := fun _ => .plain nofun nofun
  cases policy with
  | none => exact ordered_sortedEntries (by simp [plain])
  | fixedDelay interval limit =>
      exact ordered_sortedEntries (by simp [plain, ordered_duration, ordered_limit])
  | exponential initial factor limit longest =>
      have number : (float factor.toDouble).sorted.Ordered := .plain nofun nofun
      exact ordered_sortedEntries (by simp [plain, number, ordered_duration, ordered_limit])

theorem Options.ordered_configuration (options : Options) : options.configuration.sorted.Ordered := by
  have inner : options.setting.sorted.Ordered :=
    ordered_sortedEntries
      (by simp [ordered_duration, ordered_limit, options.loadPolicy.ordered_setting])
  exact ordered_sortedEntries (List.forall_mem_singleton.mpr inner)

/-! ### Files and runs -/

theorem ConfigSources.ordered_fileSetting? {file : ConfigFile} {setting : Setting}
    (found : fileSetting? file = some setting) : setting.Ordered := by
  cases file with
  | notGiven =>
      cases found
      exact ordered_empty
  | missing => cases found
  | document text => exact (Toml.ordered_parse? found).1

/-- The variables that count. -/
def ConfigLoader.bindings (loader : ConfigLoader) (environment : List (String × String)) :
    List (String × String) :=
  if loader.usesVariables then environment else []

/-- Options are decoded from the three layers. -/
theorem ConfigLoader.exists_of_loadOnce (loaded : loader.loadOnce environment = .ok options) :
    ∃ assigned file, Environment.settings? (loader.bindings environment) = some assigned ∧
      ConfigSources.fileSetting? loader.file = some file ∧
      ((loader.defaults.configuration.sorted.overlay file).overlay assigned).toConfiguration =
        .ok options := by
  have bindings : (if loader.usesVariables then some environment else none).getD [] =
      loader.bindings environment := by
    unfold ConfigLoader.bindings
    split <;> rfl
  unfold loadOnce ConfigSources.load ConfigSources.layers at loaded
  dsimp only at loaded
  rw [bindings] at loaded
  cases assigned : Environment.settings? (loader.bindings environment) with
  | none =>
      rw [assigned] at loaded
      cases loaded
  | some settings =>
      cases file : ConfigSources.fileSetting? loader.file with
      | none =>
          rw [assigned, file] at loaded
          cases loaded
      | some setting =>
          rw [assigned, file] at loaded
          dsimp only at loaded
          refine ⟨settings, setting, rfl, rfl, ?_⟩
          split at loaded
          · cases loaded
          · split at loaded
            · cases loaded
            · cases loaded
              assumption

/-! ### Layers -/

/-- What a layer says of a path, or else what is found below it. -/
def Setting.over (upper : Setting) (below : List String → Option Setting) (path : List String) :
    Option Setting :=
  (upper.says? path).getD (below path)

theorem Setting.SameBut.getD {first second : Option Setting} (same : SameBut first second)
    (said : Option (Option Setting)) : SameBut (said.getD first) (said.getD second) := by
  cases said with
  | none => exact same
  | some said => exact .refl _

theorem Setting.find?_layers {defaults file assigned : Setting} (read : file.Ordered)
    (set : assigned.Ordered) (path : List String) :
    SameBut (((defaults.sorted.overlay file).overlay assigned).find? path)
      (assigned.over (file.over defaults.find?) path) := by
  have lowest : SameBut ((defaults.sorted.overlay file).find? path) (file.over defaults.find? path) :=
    (find?_overlay read path).trans ((find?_sorted_same defaults path).getD (file.says? path))
  exact (find?_overlay set path).trans (lowest.getD (assigned.says? path))

namespace ConfigLoader

/-- Loaded options have every field from the topmost layer that says something of it, and of several
variables from the last one. The lowest layer has the fields of the defaults. Without variables,
what they are does not matter. -/
theorem fields_from_topmost_layer (loader : ConfigLoader) (environment : List (String × String)) :
    (∀ options, loader.loadOnce environment = .ok options →
      ∃ assigned file,
        Environment.settings? (loader.bindings environment) = some assigned ∧
        Environment.LastCounts (loader.bindings environment) assigned ∧
        ConfigSources.fileSetting? loader.file = some file ∧
        options.ReadFrom fun path =>
          assigned.over (file.over loader.defaults.configuration.find?) ("claim-store" :: path)) ∧
    (loader.defaults.ReadFrom fun path =>
      loader.defaults.configuration.find? ("claim-store" :: path)) ∧
    (∀ path, path ≠ [] → (∀ key ∈ path, Environment.IsKey key.toList) →
      Environment.path? (Environment.nameOf path) = some path) ∧
    (loader.usesVariables = false → ∀ other, loader.loadOnce other = loader.loadOnce environment) := by
  refine ⟨?_, loader.defaults.readFrom_configuration, fun _ => Environment.path?_nameOf, ?_⟩
  · intro options loaded
    obtain ⟨assigned, file, set, read, decoded⟩ := exists_of_loadOnce loaded
    have written := ConfigSources.ordered_fileSetting? read
    have named := Environment.ordered_settings? set
    have below := Ordered.overlay _ file loader.defaults.ordered_configuration written
    have fields := toConfiguration_reads (Ordered.overlay _ assigned below named) decoded
    exact ⟨assigned, file, set, Environment.lastCounts_settings? set, read,
      fields.of_same fun path => find?_layers written named _⟩
  · intro unused other
    unfold loadOnce
    rw [unused]
    rfl

/-- A file that bounds the batches, and variables that count. -/
def mixed : ConfigLoader where
  file := .document "[claim-store]\nmax-batch-size = 64\n"
  usesVariables := true

/-- Variables that change the kind of the policy. -/
def steadyRetries : List (String × String) :=
  [("TOKENPOOL_CLAIM_STORE__LOAD_RETRY_POLICY__TYPE", "fixed-delay"),
    ("TOKENPOOL_CLAIM_STORE__LOAD_RETRY_POLICY__INTERVAL", "20ms")]

theorem fields_from_topmost_layer_mixed :
    mixed.loadOnce steadyRetries =
        .ok ⟨.ofMillis 5000, .fixedDelay (.ofMillis 20) (some ⟨10, by decide⟩),
          some ⟨64, by decide⟩⟩ ∧
      ∃ options assigned file,
        mixed.loadOnce steadyRetries = .ok options ∧
        Environment.settings? (mixed.bindings steadyRetries) = some assigned ∧
        Environment.LastCounts (mixed.bindings steadyRetries) assigned ∧
        ConfigSources.fileSetting? mixed.file = some file ∧
        options.ReadFrom fun path =>
          assigned.over (file.over mixed.defaults.configuration.find?) ("claim-store" :: path) := by
  have loaded : mixed.loadOnce steadyRetries =
      .ok ⟨.ofMillis 5000, .fixedDelay (.ofMillis 20) (some ⟨10, by decide⟩),
        some ⟨64, by decide⟩⟩ := by decide +kernel
  obtain ⟨assigned, file, rest⟩ := (fields_from_topmost_layer mixed steadyRetries).1 _ loaded
  exact ⟨loaded, _, assigned, file, loaded, rest⟩

/-- A variable that sets a whole policy as a list. -/
def listedPolicy : List (String × String) :=
  [("TOKENPOOL_CLAIM_STORE__LOAD_RETRY_POLICY", "[exponential,10ms,2.0,3]")]

/-- A list replaces a table, so that a field which it leaves out is not that of the defaults. -/
theorem listed_policy_hides_defaults :
    ¬ ∀ (loader : ConfigLoader) environment options,
      (environment.filterMap fun binding => Environment.path? binding.1).Nodup →
      loader.loadOnce environment = .ok options →
      options.loadPolicy.FieldsFrom fun key _ =>
        let path := ["claim-store", "load-retry-policy", key]
        ((Environment.settings? (loader.bindings environment)).bind (·.find? path)).or
          (((ConfigSources.fileSetting? loader.file).bind (·.find? path)).or
            (loader.defaults.configuration.find? path)) := by
  intro claimed
  have loaded : loadOnce { usesVariables := true } listedPolicy =
      .ok ⟨.ofMillis 5000, .exponential (.ofMillis 10) (.ofInt 2) (some ⟨3, by decide⟩) none,
        none⟩ := by decide +kernel
  obtain ⟨-, -, -, longest⟩ := claimed _ _ _ (by decide +kernel) loaded
  have unnamed : (Environment.settings? listedPolicy).bind
      (·.find? ["claim-store", "load-retry-policy", "max-interval"]) = none := by
    rw [← Option.isNone_iff_eq_none]
    decide +kernel
  have shown : MayGive toInterval (((Environment.settings? listedPolicy).bind
      (·.find? ["claim-store", "load-retry-policy", "max-interval"])).or
        (some (.text (Duration.ofMillis 1000).text))) none := longest
  rw [unnamed, Option.none_or] at shown
  have second := durationMayGive (some (.ofMillis 1000))
  cases second.symm.trans shown

end ConfigLoader

end ClaimStore
