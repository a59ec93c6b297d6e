import ClaimStore.Config.Load
import ClaimStore.Proofs.Toml.Tables

/-!
Documents of options.

The document of options has one section for the values and one for the retry policy. Reading it gives
every value that is set, and nothing for those that are not.
-/
namespace ClaimStore

open Toml

/-! ### What can be written -/

/-- Numbers from 2^63 on cannot be written, and a NaN is not equal to what is read for it. -/
structure RetryPolicy.Writable (policy : RetryPolicy) : Prop where
  limit : ∀ limit, policy.limit = some limit → limit.toNat < 2 ^ 63
  factor : ∀ initial factor limit longest, policy = .exponential initial factor limit longest →
    factor.datum ≠ .nan

structure Options.Writable (options : Options) : Prop where
  policy : options.loadPolicy.Writable
  limit : ∀ limit, options.batchLimit = some limit → limit.toNat < 2 ^ 63

/-! ### What is read -/

def Limit.entry (key : String) : Option Limit → List (String × Setting)
  | none => []
  | some limit => [(key, .integer (Int64.ofInt limit.toNat))]

def Duration.entry (key : String) : Option Duration → List (String × Setting)
  | none => []
  | some duration => [(key, .text duration.text)]

/-- The entries of a policy that are read from its section. -/
def RetryPolicy.document : RetryPolicy → List (String × Setting)
  | .none => [("type", .text "none")]
  | .fixedDelay interval limit =>
      ("interval", .text interval.text) ::
        (Limit.entry "max-attempts" limit ++ [("type", .text "fixed-delay")])
  | .exponential initial factor limit longest =>
      ("factor", .float factor.toDouble) :: ("initial-interval", .text initial.text) ::
        (Limit.entry "max-attempts" limit ++ (Duration.entry "max-interval" longest ++
          [("type", .text "exponential")]))

/-- The entries of options that are read from their document. -/
def Options.document (options : Options) : List (String × Setting) :=
  ("commit-timeout", .text options.commitTimeout.text) ::
    ("load-retry-policy", .table options.loadPolicy.document) ::
      Limit.entry "max-batch-size" options.batchLimit

/-! ### Sections -/

namespace Setting

/-- The entries of a table. -/
def entries : Setting → List (String × Setting)
  | .table entries => entries
  | _ => []

section

variable {key first : String} {value other : Setting} {rest : List (String × Setting)}

theorem putEntry_nil : putEntry key value [] = [(key, value)] := rfl

theorem putEntry_lt (before : compare key first = .lt) :
    putEntry key value ((first, other) :: rest) = (key, value) :: (first, other) :: rest := by
  simp only [putEntry, before]

theorem putEntry_eq : putEntry key value ((key, other) :: rest) = (key, value) :: rest := by
  have same : compare key key = .eq := Std.ReflCmp.compare_self
  simp only [putEntry, same]

theorem putEntry_gt (behind : compare key first = .gt) :
    putEntry key value ((first, other) :: rest) = (first, other) :: putEntry key value rest := by
  simp only [putEntry, behind]

end

end Setting

theorem RetryPolicy.setting_eq (policy : RetryPolicy) : policy.setting = .table policy.setting.entries := by
  cases policy <;> rfl

theorem Options.setting_eq (options : Options) : options.setting = .table options.setting.entries := rfl

variable {options : Options} {policy : RetryPolicy}

theorem valueText?_limit {limit : Option Limit} (fits : ∀ count, limit = some count → count.toNat < 2 ^ 63) :
    Limit.setting limit = .absent ∨ (∃ inner, Limit.setting limit = .table inner) ∨
      (valueText? (Limit.setting limit)).isSome := by
  cases limit with
  | none => exact .inl rfl
  | some count =>
      have small := fits count rfl
      refine .inr (.inr ?_)
      unfold Limit.toNat at small
      simp only [Limit.setting, valueText?, Int64.toInt_maxValue]
      rw [if_pos (by omega)]
      rfl

theorem RetryPolicy.Writable.lines (writable : policy.Writable) :
    (valueLines? policy.setting.entries).isSome := by
  apply valueLines?_isSome
  cases policy with
  | none => simp [setting, Setting.entries, valueText?]
  | fixedDelay interval limit =>
      have fits := valueText?_limit writable.limit
      simp [setting, Setting.entries, valueText?, Duration.setting] at fits ⊢
      exact fits
  | exponential initial factor limit longest =>
      have fits := valueText?_limit writable.limit
      cases longest <;> simp [setting, Setting.entries, valueText?, Duration.setting] at fits ⊢ <;>
        exact fits

theorem RetryPolicy.bareKeys (policy : RetryPolicy) :
    ∀ entry ∈ policy.setting.entries, IsBareKey entry.1 := by
  cases policy <;> simp only [setting, Setting.entries, List.forall_mem_cons] <;> decide

theorem Options.bareKeys (options : Options) : ∀ entry ∈ options.setting.entries, IsBareKey entry.1 := by
  simp only [setting, Setting.entries, List.forall_mem_cons]
  decide

/-- Limits and durations are neither tables nor floating point numbers. -/
theorem Limit.setting_plain (limit : Option Limit) :
    (∀ inner, Limit.setting limit ≠ .table inner) ∧ ∀ number, Limit.setting limit ≠ .float number := by
  cases limit <;> exact ⟨fun _ => Setting.noConfusion, fun _ => Setting.noConfusion⟩

theorem Duration.setting_plain (duration : Option Duration) :
    (∀ inner, Duration.setting duration ≠ .table inner) ∧
      ∀ number, Duration.setting duration ≠ .float number := by
  cases duration <;> exact ⟨fun _ => Setting.noConfusion, fun _ => Setting.noConfusion⟩

theorem RetryPolicy.flat (policy : RetryPolicy) :
    ∀ entry ∈ policy.setting.entries, ∀ inner, entry.2 ≠ .table inner := by
  cases policy <;> simp [setting, Setting.entries, Limit.setting_plain, Duration.setting_plain]

theorem RetryPolicy.Writable.numbers (writable : policy.Writable) :
    ∀ entry ∈ policy.setting.entries, ∀ number, entry.2 = .float number → number.datum ≠ .nan := by
  cases policy with
  | none => simp [setting, Setting.entries]
  | fixedDelay interval limit =>
      simp [setting, Setting.entries, Limit.setting_plain, Duration.setting_plain]
  | exponential initial factor limit longest =>
      have number := Number.Single.toDouble_ne_nan (writable.factor _ _ _ _ rfl)
      simpa [setting, Setting.entries, Limit.setting_plain, Duration.setting_plain] using number

theorem Options.numbers (options : Options) :
    ∀ entry ∈ options.setting.entries, ∀ number, entry.2 = .float number → number.datum ≠ .nan := by
  have table := options.loadPolicy.setting_eq
  generalize options.loadPolicy.setting.entries = inner at table
  simp [setting, Setting.entries, table, Limit.setting_plain, Duration.setting_plain]

theorem Options.Writable.lines (writable : options.Writable) :
    ∃ line lines, valueLines? options.setting.entries = some (line :: lines) := by
  have table := options.loadPolicy.setting_eq
  generalize options.loadPolicy.setting.entries = inner at table
  have rest : (valueLines? [("load-retry-policy", options.loadPolicy.setting),
      ("max-batch-size", Limit.setting options.batchLimit)]).isSome := by
    apply valueLines?_isSome
    simpa [table] using valueText?_limit writable.limit
  obtain ⟨lines, found⟩ := Option.isSome_iff_exists.mp rest
  refine ⟨"commit-timeout" ++ " = " ++ stringText options.commitTimeout.text ++ "\n", lines, ?_⟩
  rw [setting, Setting.entries, Duration.setting, valueLines?, found]
  · rfl
  · exact Setting.noConfusion
  · exact fun _ => Setting.noConfusion

/-- The two sections of options. -/
theorem Options.Writable.sections (writable : options.Writable) {path : List String}
    (bare : ∀ key ∈ path, IsBareKey key) (fits : path.length < keyDepth) :
    ∃ first second, sections? path options.setting = some [first, second] ∧
      ReadsAs first.toList (headers path ++ assignments (present options.setting.entries)) ∧
      ReadsAs second.toList (.table (path ++ ["load-retry-policy"]) ::
        assignments (present options.loadPolicy.setting.entries)) := by
  obtain ⟨line, lines, written⟩ := writable.lines
  obtain ⟨policyLines, policyWritten⟩ := Option.isSome_iff_exists.mp writable.policy.lines
  have deeper : ∀ key ∈ path ++ ["load-retry-policy"], IsBareKey key := by
    intro key member
    rcases List.mem_append.mp member with above | here
    · exact bare key above
    · rw [List.mem_singleton.mp here]
      decide
  refine ⟨heading path ++ String.join (line :: lines),
    heading (path ++ ["load-retry-policy"]) ++ String.join policyLines, ?_, ?_, ?_⟩
  · have values : ∀ (place : List String) (duration : Option Duration),
        sections? place (Duration.setting duration) = some [] := by
      rintro place (_ | duration) <;> rfl
    have counts : ∀ (place : List String) (limit : Option Limit),
        sections? place (Limit.setting limit) = some [] := by
      rintro place (_ | limit) <;> rfl
    have inner := sections?_flat options.loadPolicy.flat (List.append_ne_nil_of_right_ne_nil path
      (List.cons_ne_nil "load-retry-policy" [])) policyWritten
    rw [← RetryPolicy.setting_eq] at inner
    rw [setting_eq, Toml.sections?, written]
    simp [setting, Setting.entries, innerSections?, values, counts, inner, heading]
  · rw [String.toList_append]
    exact (readsAs_heading bare fits.le).append
      (readsAs_valueLines written options.bareKeys options.numbers)
  · rw [String.toList_append]
    have header := readsAs_heading deeper (by rw [List.length_append]; exact fits)
    rw [headers, if_neg (by simp)] at header
    exact header.append
      (readsAs_valueLines policyWritten (RetryPolicy.bareKeys _) writable.policy.numbers)

/-! ### Tables -/

/-- What the sections of options put into a table. -/
def Options.nodes (options : Options) : Entries :=
  valueNodes (present options.setting.entries) ++
    [("load-retry-policy", .table .header (valueNodes (present options.loadPolicy.setting.entries)))]

theorem RetryPolicy.entrySettings_nodes (policy : RetryPolicy) :
    entrySettings (valueNodes (present policy.setting.entries)) = policy.document := by
  rcases policy with _ | ⟨interval, _ | limit⟩ | ⟨initial, factor, _ | limit, _ | longest⟩ <;>
    simp (disch := decide) [setting, Setting.entries, Limit.setting, Duration.setting, present,
      readBack, valueNodes, entrySettings, Node.setting, Setting.putEntry_nil, Setting.putEntry_lt,
      Setting.putEntry_gt, document, Limit.entry, Duration.entry, Limit.toNat]

theorem Options.entrySettings_nodes (options : Options) :
    entrySettings options.nodes = options.document := by
  obtain ⟨inner, table⟩ : ∃ inner, options.loadPolicy.setting = .table inner :=
    ⟨_, RetryPolicy.setting_eq _⟩
  have policy := options.loadPolicy.entrySettings_nodes
  unfold nodes
  generalize valueNodes (present options.loadPolicy.setting.entries) = policyNodes at policy ⊢
  rcases limit : options.batchLimit with _ | count <;>
    simp (disch := decide) [setting, Setting.entries, Limit.setting, Duration.setting, present,
      readBack, valueNodes, entrySettings, Node.setting, Setting.putEntry_nil, Setting.putEntry_lt,
      Setting.putEntry_gt, document, Limit.entry, Limit.toNat, limit, table, policy]

theorem RetryPolicy.distinctKeys (policy : RetryPolicy) :
    ((present policy.setting.entries).map Prod.fst).Nodup := by
  rcases policy with _ | ⟨interval, _ | limit⟩ | ⟨initial, factor, _ | limit, _ | longest⟩ <;>
    simp [setting, Setting.entries, Limit.setting, Duration.setting, present]

theorem Options.presentKeys (options : Options) :
    (present options.setting.entries).map Prod.fst =
      "commit-timeout" :: options.batchLimit.toList.map fun _ => "max-batch-size" := by
  obtain ⟨inner, table⟩ : ∃ inner, options.loadPolicy.setting = .table inner :=
    ⟨_, RetryPolicy.setting_eq _⟩
  rcases limit : options.batchLimit with _ | count <;>
    simp [setting, Setting.entries, Limit.setting, Duration.setting, present, table, limit]

/-- The sections of options are put into an empty table. -/
theorem Options.assembly {root : Entries → Entries} {path : List String}
    (outer : Surrounds root path) (options : Options) :
    (assignments (present options.setting.entries) ++
        .table (path ++ ["load-retry-policy"]) ::
          assignments (present options.loadPolicy.setting.entries)).foldlM Assembly.add
      ⟨root [], path⟩ =
      some ⟨root options.nodes, path ++ ["load-retry-policy"]⟩ := by
  have distinct : ((present options.setting.entries).map Prod.fst).Nodup := by
    rw [options.presentKeys]
    cases options.batchLimit <;> simp
  have fresh : Entries.find? "load-retry-policy" (valueNodes (present options.setting.entries)) =
      none := by
    refine find?_valueNodes ?_
    rw [options.presentKeys]
    cases options.batchLimit <;> simp
  have values := @Surrounds.add_assignments _ _ [] outer (present options.setting.entries) distinct
    fun _ _ => rfl
  have policy := @Surrounds.add_assignments _ _ [] (outer.last fresh) _
    options.loadPolicy.distinctKeys fun _ _ => rfl
  rw [List.foldlM_append, values, List.nil_append, Option.bind_eq_bind, Option.bind_some,
    List.foldlM_cons, outer.add_header fresh, Option.bind_eq_bind, Option.bind_some, policy]
  rfl

/-- The document of options is read as what is set. -/
theorem Options.Writable.parse?_text (writable : options.Writable) :
    ∃ text, options.text? = some text ∧ parse? text = some (.table options.document) := by
  have bare : ∀ key ∈ [], IsBareKey key := nofun
  obtain ⟨first, second, written, reads, policyReads⟩ := writable.sections bare (by decide)
  refine ⟨first ++ "\n" ++ second, ?_, ?_⟩
  · have both : "\n".intercalate [first, second] = first ++ "\n" ++ second := by
      rw [String.intercalate_cons_cons, String.intercalate_singleton]
    rw [text?, Toml.text?, written, Option.map_some, both]
  · have whole := (reads.append readsAs_newline).append policyReads
    have text : (first ++ "\n" ++ second).toList = first.toList ++ ['\n'] ++ second.toList := by simp
    have header : headers [] = [] := rfl
    rw [← text, header, List.nil_append, List.append_nil] at whole
    have placed := options.assembly surrounds_nil
    rw [id_eq, id_eq] at placed
    rw [parse?_readsAs whole, placed, Option.map_some, options.entrySettings_nodes]

/-- The document of a configuration is read as what is set. -/
theorem Options.Writable.parse?_dump (writable : options.Writable) :
    ∃ text, options.dump? = some text ∧
      parse? text = some (.table [("claim-store", .table options.document)]) := by
  have bare : ∀ key ∈ ["claim-store"], IsBareKey key := by decide
  obtain ⟨first, second, written, reads, policyReads⟩ := writable.sections bare (by decide)
  refine ⟨first ++ "\n" ++ second, ?_, ?_⟩
  · have inner : innerSections? [] [("claim-store", options.setting)] = some [first, second] := by
      simp [innerSections?, written]
    have none : valueLines? [("claim-store", options.setting)] = some [] := rfl
    have both : "\n".intercalate [first, second] = first ++ "\n" ++ second := by
      rw [String.intercalate_cons_cons, String.intercalate_singleton]
    rw [dump?, Toml.text?, configuration, Toml.sections?, none, inner]
    simp [both]
  · have whole := (reads.append readsAs_newline).append policyReads
    have text : (first ++ "\n" ++ second).toList = first.toList ++ ['\n'] ++ second.toList := by simp
    rw [← text] at whole
    have header : headers ["claim-store"] = [.table ([] ++ ["claim-store"])] := rfl
    rw [List.append_nil, List.append_assoc, header] at whole
    have fresh : Entries.find? "claim-store" [] = none := rfl
    have opened := surrounds_nil.add_header fresh []
    have placed := options.assembly (surrounds_nil.last fresh)
    have settings : entrySettings [("claim-store", .table .header options.nodes)] =
        [("claim-store", .table (entrySettings options.nodes))] := rfl
    rw [parse?_readsAs whole, List.singleton_append, List.foldlM_cons]
    rw [id_eq] at opened
    rw [opened, Option.bind_eq_bind, Option.bind_some]
    simp only [id_eq, List.nil_append] at placed ⊢
    rw [placed, Option.map_some, settings, options.entrySettings_nodes]

end ClaimStore
