import ClaimStore.Proofs.Config.Documents
import ClaimStore.Proofs.Time.DurationText

/-!
Options that are written and loaded.

The document of options is laid over the default ones. Everything that is set is restored. What a
retry policy leaves unset is not in the document, so that the default policy shows through there.
-/
namespace ClaimStore

open Setting

variable {options : Options} {policy : RetryPolicy}

/-! ### Values -/

@[simp]
theorem Setting.durationOfText_text (duration : Duration) :
    durationOfText duration.text = .ok duration := by
  rw [durationOfText, Duration.parse?_text]

theorem Limit.ofNat?_toNat (limit : Limit) : Limit.ofNat? limit.toNat = some limit := by
  have same : UInt64.ofNat limit.toNat = limit.count := UInt64.ofNat_toNat
  have bounded : limit.toNat < UInt64.size := limit.count.toNat_lt
  rw [Limit.ofNat?, dif_pos (by rw [same]; exact limit.positive), if_pos bounded]
  congr 2

theorem Setting.toLimit_integer {limit : Limit} (fits : limit.toNat < 2 ^ 63) :
    toLimit (.integer (Int64.ofInt limit.toNat)) = .ok limit := by
  rw [toLimit, Int64.toInt_ofInt_of_le (by omega) (by omega), limitOfInt, Int.toNat_natCast,
    Limit.ofNat?_toNat]

theorem Setting.toFactor_toDouble {factor : Number.Single} (number : factor.datum ≠ .nan) :
    toFactor (.float factor.toDouble) = .ok factor := by
  rw [toFactor, Number.Single.toSingle_toDouble number]

/-! ### Policies -/

/-- The policy that is loaded for one that is written: what it leaves unset is what the default
policy has. -/
def RetryPolicy.completed : RetryPolicy → RetryPolicy
  | .none => .none
  | .fixedDelay interval limit => .fixedDelay interval (limit.or Options.defaultPolicy.limit)
  | .exponential initial factor limit longest =>
      .exponential initial factor (limit.or Options.defaultPolicy.limit)
        (longest.or (some (.ofMillis 1000)))

theorem sorted_defaultPolicy :
    Options.defaultPolicy.setting.sorted = .table
      [("factor", .float (Number.Single.ofInt 2).toDouble),
        ("initial-interval", .text (Duration.ofMillis 10).text), ("max-attempts", .natural 10),
        ("max-interval", .text (Duration.ofMillis 1000).text), ("type", .text "exponential")] := by
  simp (disch := decide) [Options.defaultPolicy, RetryPolicy.setting, sorted, sortedEntries,
    putEntry_nil, putEntry_lt, putEntry_gt, Duration.setting, Limit.setting]

theorem Setting.toLimit_ten : toLimit (.natural 10) = .ok ⟨10, by decide⟩ := rfl

/-- Over the default policy, a written policy is the one that was written, but for what it leaves
unset. -/
theorem toPolicy_overlay (writable : policy.Writable) :
    (overlay Options.defaultPolicy.setting.sorted (.table policy.document)).toPolicy =
      .ok policy.completed := by
  rw [sorted_defaultPolicy]
  have limits := fun limit same => toLimit_integer (writable.limit limit same)
  have factors : ∀ factor, (∃ initial limit longest, policy = .exponential initial factor limit longest) →
      toFactor (.float factor.toDouble) = .ok factor := by
    rintro factor ⟨initial, limit, longest, same⟩
    exact toFactor_toDouble (writable.factor initial factor limit longest same)
  -- for each set of keys that is written, the tables are laid over each other and read again
  rcases policy with _ | ⟨interval, _ | limit⟩ | ⟨initial, factor, _ | limit, _ | longest⟩ <;>
    simp [RetryPolicy.limit] at limits factors <;>
    simp (disch := decide) [RetryPolicy.document, Limit.entry, Duration.entry, overlay,
      overlayEntries, putEntry_lt, putEntry_eq, putEntry_gt, lookup, toPolicy, toPolicyKind, kindOfText, under,
      policyOfEntries, PolicyFields.addEntry, toInterval, orAbsent, required, bind, Except.bind,
      Except.map, pure, Except.pure, limits, factors, toLimit_ten, RetryPolicy.completed,
      Options.defaultPolicy, RetryPolicy.limit]

/-! ### Options -/

theorem toOptions_entries {timeout policySetting batch : Setting} {commitTimeout : Duration}
    {loadPolicy : RetryPolicy} {batchLimit : Option Limit}
    (duration : timeout.toDuration = .ok commitTimeout) (policy : policySetting.toPolicy = .ok loadPolicy)
    (limit : batch.orAbsent toLimit = .ok batchLimit) :
    toOptions (.table [("commit-timeout", timeout), ("load-retry-policy", policySetting),
      ("max-batch-size", batch)]) = .ok ⟨commitTimeout, loadPolicy, batchLimit⟩ := by
  simp [toOptions, OptionFields.addEntry, duration, policy, limit, under, required, bind, Except.bind,
    pure, Except.pure]

theorem sorted_default :
    (default : Options).configuration.sorted = .table [("claim-store", .table
      [("commit-timeout", .text Options.defaultTimeout.text),
        ("load-retry-policy", Options.defaultPolicy.setting.sorted), ("max-batch-size", .absent)])] := by
  have same : (default : Options) = ⟨Options.defaultTimeout, Options.defaultPolicy, none⟩ := rfl
  simp (disch := decide) [same, Options.configuration, Options.setting, sorted, sortedEntries,
    putEntry_nil, putEntry_lt, Duration.setting, Limit.setting]

/-- The options that are loaded for those that are written. -/
def Options.completed (options : Options) : Options :=
  { options with loadPolicy := options.loadPolicy.completed }

theorem Setting.overlay_tables (lower upper : List (String × Setting)) :
    overlay (.table lower) (.table upper) = .table (overlayEntries lower upper) := rfl

theorem Setting.overlay_text (lower : Setting) (text : String) : overlay lower (.text text) = .text text :=
  rfl

theorem Setting.overlay_integer (lower : Setting) (value : Int64) :
    overlay lower (.integer value) = .integer value := rfl

theorem Options.overlay_document (options : Options) :
    (default : Options).configuration.sorted.overlay
        (.table [("claim-store", .table options.document)]) =
      .table [("claim-store", .table
        [("commit-timeout", .text options.commitTimeout.text),
          ("load-retry-policy",
            overlay Options.defaultPolicy.setting.sorted (.table options.loadPolicy.document)),
          ("max-batch-size", (lookup "max-batch-size" options.document).getD .absent)])] := by
  rw [sorted_default, document]
  cases options.batchLimit <;>
    simp (disch := decide) [Limit.entry, overlay_tables, overlay_text, overlay_integer,
      overlayEntries, lookup, putEntry_eq, putEntry_gt]

theorem toConfiguration_overlay (writable : options.Writable) :
    ((default : Options).configuration.sorted.overlay
        (.table [("claim-store", .table options.document)])).toConfiguration =
      .ok options.completed := by
  have duration : toDuration (.text options.commitTimeout.text) = .ok options.commitTimeout :=
    durationOfText_text _
  have limit : ((lookup "max-batch-size" options.document).getD .absent).orAbsent toLimit =
      .ok options.batchLimit := by
    have fits := writable.limit
    unfold Options.document
    cases limit : options.batchLimit with
    | none => rfl
    | some count =>
        have read := toLimit_integer (fits count limit)
        show (toLimit (.integer (Int64.ofInt count.toNat))).map some = _
        rw [read]
        rfl
  rw [options.overlay_document]
  show under "claim-store" (toOptions _) = _
  rw [toOptions_entries duration (toPolicy_overlay writable.policy) limit]
  rfl

theorem Options.fault?_completed (options : Options) : options.completed.fault? = options.fault? := by
  unfold fault? completed
  cases options.loadPolicy <;> rfl

/-- The document of valid options is loaded over the defaults. -/
theorem ConfigSources.load_document {text : String} (valid : options.fault? = none)
    (writable : options.Writable)
    (read : Toml.parse? text = some (.table [("claim-store", .table options.document)])) :
    load ⟨default, .document text, none⟩ = .ok options.completed := by
  have decoded := toConfiguration_overlay writable
  have layers : layers ⟨default, .document text, none⟩ =
      .ok ((default : Options).configuration.sorted.overlay
        (.table [("claim-store", .table options.document)])) := by
    have environment : Environment.settings? [] = some (.table []) := rfl
    dsimp only [ConfigSources.layers, Option.getD_none, fileSetting?]
    rw [environment, read]
    dsimp only
    rw [options.overlay_document, overlay_tables, overlayEntries]
  dsimp only [load]
  rw [layers]
  dsimp only
  rw [decoded]
  dsimp only
  rw [options.fault?_completed, valid]

/-- A configuration that is written and loaded again is what it was, but for what it leaves unset of
its retry policy. That is what the default policy has. -/
theorem load_dump (valid : options.fault? = none) (writable : options.Writable) :
    ∃ text, options.dump? = some text ∧
      ConfigSources.load ⟨default, .document text, none⟩ = .ok options.completed := by
  obtain ⟨text, written, read⟩ := writable.parse?_dump
  exact ⟨text, written, ConfigSources.load_document valid writable read⟩

/-- Options with growing pauses that have a greatest one, but no end. -/
def Options.patient : Options :=
  ⟨.ofMillis 250, .exponential (.ofMillis 20) (.ofInt 3) none (some (.ofMillis 2000)),
    some ⟨16, by decide⟩⟩

theorem load_dump_patient :
    Options.patient.fault? = none ∧ Options.patient.Writable ∧
      ∃ text, Options.patient.dump? = some text ∧
        ConfigSources.load ⟨default, .document text, none⟩ =
          .ok ⟨.ofMillis 250, .exponential (.ofMillis 20) (.ofInt 3) (some ⟨10, by decide⟩)
            (some (.ofMillis 2000)), some ⟨16, by decide⟩⟩ := by
  have valid : Options.patient.fault? = none := by decide
  have writable : Options.patient.Writable := by
    refine ⟨⟨?_, ?_⟩, ?_⟩
    · rintro _ ⟨⟩
    · rintro _ _ _ _ ⟨⟩
      decide
    · rintro _ ⟨⟩
      decide
  exact ⟨valid, writable, load_dump valid writable⟩

/-- Options whose retries have no end. -/
def Options.endless : Options := ⟨.ofMillis 5000, .fixedDelay (.ofMillis 20) none, none⟩

/-- Endless retries are not restored, since the limit of the default policy remains. -/
theorem load_dump_endless :
    Options.endless.fault? = none ∧ Options.endless.Writable ∧
      ¬ ∃ text, Options.endless.dump? = some text ∧
        ConfigSources.load ⟨default, .document text, none⟩ = .ok Options.endless := by
  have valid : Options.endless.fault? = none := by decide
  have writable : Options.endless.Writable := by
    refine ⟨⟨?_, ?_⟩, ?_⟩
    · rintro _ ⟨⟩
    · rintro _ _ _ _ ⟨⟩
    · rintro _ ⟨⟩
  refine ⟨valid, writable, ?_⟩
  rintro ⟨text, written, same⟩
  obtain ⟨_, own, read⟩ := writable.parse?_dump
  obtain rfl := Option.some.inj (written.symm.trans own)
  rw [ConfigSources.load_document valid writable read] at same
  have limited := congrArg (fun options => options.loadPolicy.limit) (Except.ok.inj same)
  exact absurd limited (by decide)

end ClaimStore
