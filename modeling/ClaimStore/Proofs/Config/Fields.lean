import ClaimStore.Config.Decode
import ClaimStore.Proofs.Config.Unions

/-!
The fields of options and the settings they come from.

Options that are decoded from tables have each of their fields from the entry of its key.
-/
namespace ClaimStore

/-! ### Decoding in steps -/

namespace Setting

variable {α β : Type} {key : String} {value : Setting} {entries : List (String × Setting)}

theorem under_eq_ok {decoded : Decoded α} {result : α} :
    under key decoded = .ok result ↔ decoded = .ok result := by
  cases decoded <;> simp [under]

theorem exists_of_bind {decoded : Decoded α} {next : α → Decoded β} {result : β}
    (done : decoded >>= next = .ok result) :
    ∃ value, decoded = .ok value ∧ next value = .ok result := by
  cases decoded with
  | error error => cases done
  | ok value => exact ⟨value, rfl, done⟩

theorem exists_of_required {fault : SettingFault} {found : Option α} {result : α}
    (there : required fault found = .ok result) : found = some result := by
  cases found with
  | none => cases there
  | some value =>
      cases there
      rfl

theorem exists_of_itemAt {items : List Setting} {index : Nat} {decode : Setting → Decoded α}
    {result : α} (there : itemAt items index decode = .ok result) :
    ∃ item, items[index]? = some item ∧ decode item = .ok result := by
  unfold itemAt at there
  split at there
  · cases there
  · exact ⟨_, ‹_›, there⟩

theorem eq_of_atMost {items : List Setting} {count : Nat} {own result : α}
    (there : atMost items count own = .ok result) : own = result := by
  unfold atMost at there
  split at there
  · cases there
    rfl
  · cases there

end Setting

/-! ### Where a field comes from -/

namespace Setting

/-- A field has the value of a setting that is there. -/
def Gives {α : Type} (decode : Setting → Decoded α) (found : Option Setting) (value : α) : Prop :=
  ∃ setting, found = some setting ∧ decode setting = .ok value

/-- A field that can be left unset has the value of the setting, and none if there is no setting. -/
def MayGive {α : Type} (decode : Setting → Decoded α) (found : Option Setting) (value : Option α) :
    Prop :=
  (found.getD .absent).orAbsent decode = .ok value

/-- What is found within an entry of a record, where `found` tells what is found within the record.
The entries of a list have no keys but places. -/
def entryOf (found : List String → Option Setting) (key : String) (place : Nat) (path : List String) :
    Option Setting :=
  match found [] with
  | some (.list items) => items[place]?.bind fun item => item.find? path
  | _ => found (key :: path)

end Setting

open Setting

def RetryPolicy.kind : RetryPolicy → PolicyKind
  | .none => .none
  | .fixedDelay _ _ => .fixedDelay
  | .exponential _ _ _ _ => .exponential

/-- The fields of a policy have their values from what is found for their keys and places. Numbers
that are none are not told apart. -/
def RetryPolicy.FieldsFrom (found : String → Nat → Option Setting) : RetryPolicy → Prop
  | .none => True
  | .fixedDelay interval limit =>
      Gives toInterval (found "interval" 1) interval ∧ MayGive toLimit (found "max-attempts" 2) limit
  | .exponential initial factor limit longest =>
      Gives toInterval (found "initial-interval" 1) initial ∧
      Gives (fun setting => setting.toFactor.map Number.Single.datum) (found "factor" 2)
        factor.datum ∧
      MayGive toLimit (found "max-attempts" 3) limit ∧
      MayGive toInterval (found "max-interval" 4) longest

/-- A policy has its kind and its fields from what is found within its setting. -/
structure RetryPolicy.ReadFrom (found : List String → Option Setting) (policy : RetryPolicy) :
    Prop where
  kind : Gives toPolicyKind (entryOf found "type" 0 []) policy.kind
  fields : policy.FieldsFrom fun key place => entryOf found key place []

/-- Options have every field from what is found within their setting. -/
structure Options.ReadFrom (found : List String → Option Setting) (options : Options) : Prop where
  commitTimeout : Gives toDuration (entryOf found "commit-timeout" 0 []) options.commitTimeout
  loadPolicy : options.loadPolicy.ReadFrom (entryOf found "load-retry-policy" 1)
  batchLimit : MayGive toLimit (entryOf found "max-batch-size" 2 []) options.batchLimit

/-! ### Places with the same values -/

section

variable {α : Type} {decode : Setting → Decoded α} {first second : Option Setting}

theorem Setting.Gives.of_same {value : α} (gives : Gives decode first value)
    (same : SameBut first second) (noTable : ∀ entries value, decode (.table entries) ≠ .ok value) :
    Gives decode second value := by
  obtain ⟨setting, found, decoded⟩ := gives
  refine ⟨setting, same.of_single found ?_, decoded⟩
  rintro ⟨entries, rfl⟩
  exact noTable entries value decoded

theorem Setting.MayGive.of_same {value : Option α} (gives : MayGive decode first value)
    (same : SameBut first second) (noTable : ∀ entries value, decode (.table entries) ≠ .ok value) :
    MayGive decode second value := by
  rcases same with rfl | ⟨⟨setting, found, entries, rfl⟩, -⟩
  · exact gives
  · cases found
    have decoded : (decode (.table entries)).map some = .ok value := gives
    cases own : decode (.table entries) with
    | error error =>
        rw [own] at decoded
        cases decoded
    | ok result => exact absurd own (noTable entries result)

variable {found given : List String → Option Setting}

theorem entryOf_same (same : ∀ path, SameBut (found path) (given path)) (key : String) (place : Nat)
    (path : List String) : SameBut (entryOf found key place path) (entryOf given key place path) := by
  unfold entryOf
  rcases same [] with root | ⟨⟨_, own, _, rfl⟩, _, other, _, rfl⟩
  · rw [root]
    split
    · exact .refl _
    · exact same (key :: path)
  · rw [Option.mem_def.mp own, Option.mem_def.mp other]
    exact same (key :: path)

theorem RetryPolicy.ReadFrom.of_same {policy : RetryPolicy} (read : policy.ReadFrom found)
    (same : ∀ path, SameBut (found path) (given path)) : policy.ReadFrom given := by
  have entry := fun key place => entryOf_same same key place []
  refine ⟨read.kind.of_same (entry "type" 0) nofun, ?_⟩
  have fields := read.fields
  cases policy with
  | none => trivial
  | fixedDelay interval limit =>
      obtain ⟨pause, limit⟩ := fields
      exact ⟨pause.of_same (entry "interval" 1) nofun, limit.of_same (entry "max-attempts" 2) nofun⟩
  | exponential initial factor limit longest =>
      obtain ⟨pause, factor, limit, longest⟩ := fields
      exact ⟨pause.of_same (entry "initial-interval" 1) nofun, factor.of_same (entry "factor" 2) nofun,
        limit.of_same (entry "max-attempts" 3) nofun, longest.of_same (entry "max-interval" 4) nofun⟩

theorem Options.ReadFrom.of_same {options : Options} (read : options.ReadFrom found)
    (same : ∀ path, SameBut (found path) (given path)) : options.ReadFrom given where
  commitTimeout := read.commitTimeout.of_same (entryOf_same same "commit-timeout" 0 []) nofun
  loadPolicy := read.loadPolicy.of_same (entryOf_same same "load-retry-policy" 1)
  batchLimit := read.batchLimit.of_same (entryOf_same same "max-batch-size" 2 []) nofun

end

/-! ### Decoding -/

namespace Setting

variable {β : Type} {key : String} {value : Setting} {entries : List (String × Setting)}

theorem entryOf_table (entries : List (String × Setting)) (key : String) (place : Nat) :
    entryOf (table entries).find? key place [] = lookup key entries := by
  show (lookup key entries).bind some = lookup key entries
  exact Option.bind_fun_some _

theorem entryOf_list (items : List Setting) (key : String) (place : Nat) :
    entryOf (list items).find? key place [] = items[place]? := by
  show items[place]?.bind some = items[place]?
  exact Option.bind_fun_some _

theorem within_table (found : lookup key entries = some value) (place : Nat) :
    entryOf (table entries).find? key place = value.find? := by
  funext path
  show (lookup key entries).bind (fun value => value.find? path) = value.find? path
  rw [found, Option.bind_some]

theorem within_list {items : List Setting} {place : Nat} (there : items[place]? = some value)
    (key : String) : entryOf (list items).find? key place = value.find? := by
  funext path
  show items[place]?.bind (fun item => item.find? path) = value.find? path
  rw [there, Option.bind_some]

/-- An entry sets a field if it has the key of that field, and leaves it as it is if not. -/
def Sets (key : String) (decode : Setting → Decoded β) (entry : String × Setting) (before after : β) :
    Prop :=
  if entry.1 = key then decode entry.2 = .ok after else after = before

/-- A field that is set by the entry of its key and by no other has, in the end, what that entry
sets. -/
theorem foldlM_sets {σ : Type} {step : σ → String × Setting → Decoded σ} {field : σ → β}
    {decode : Setting → Decoded β} {start last : σ}
    (sets : ∀ state entry next, step state entry = .ok next →
      Sets key decode entry (field state) (field next))
    (keys : entries.Pairwise fun first second => compare first.1 second.1 = .lt)
    (done : entries.foldlM step start = .ok last) :
    (∀ value, lookup key entries = some value → decode value = .ok (field last)) ∧
      (lookup key entries = none → field last = field start) := by
  induction entries generalizing start with
  | nil =>
      cases done
      exact ⟨nofun, fun _ => rfl⟩
  | cons entry rest ih =>
      have behind := lookup_behind keys
      rw [List.foldlM_cons] at done
      obtain ⟨next, stepped, further⟩ := exists_of_bind done
      have own := sets start entry next stepped
      obtain ⟨given, kept⟩ := ih (List.pairwise_cons.mp keys).2 further
      rw [lookup]
      split
      · rename_i same
        rw [Sets, if_pos same] at own
        refine ⟨?_, fun absent => absurd absent (Option.some_ne_none _)⟩
        rintro _ ⟨⟩
        rw [kept (same ▸ behind)]
        exact own
      · rename_i other
        rw [Sets, if_neg other] at own
        exact ⟨given, fun absent => (kept absent).trans own⟩

section

variable {α : Type} {decode : Setting → Decoded α} {found : Option Setting}

theorem map_some_eq_ok {decoded : Decoded α} {field : Option α} :
    decoded.map some = .ok field ↔ ∃ value, field = some value ∧ decoded = .ok value := by
  cases decoded with
  | error error => exact ⟨nofun, nofun⟩
  | ok value =>
      constructor
      · rintro ⟨⟩
        exact ⟨value, rfl, rfl⟩
      · rintro ⟨_, rfl, ⟨⟩⟩
        rfl

theorem Gives.of_field {field : Option α} {result : α}
    (read : (∀ value, found = some value → (decode value).map some = .ok field) ∧
      (found = none → field = none))
    (there : field = some result) : Gives decode found result := by
  obtain ⟨given, missing⟩ := read
  cases found with
  | none => cases (missing rfl).symm.trans there
  | some value =>
      obtain ⟨own, same, decoded⟩ := map_some_eq_ok.mp (given value rfl)
      cases same.symm.trans there
      exact ⟨value, rfl, decoded⟩

theorem MayGive.of_field {field : Option (Option α)}
    (read : (∀ value, found = some value → (value.orAbsent decode).map some = .ok field) ∧
      (found = none → field = none)) : MayGive decode found (field.getD none) := by
  obtain ⟨given, missing⟩ := read
  cases found with
  | none =>
      rw [missing rfl]
      rfl
  | some value =>
      obtain ⟨own, same, decoded⟩ := map_some_eq_ok.mp (given value rfl)
      rw [same]
      exact decoded

end

/-- What an entry does to each field of a policy. -/
theorem PolicyFields.addEntry_sets {isExponential : Bool} {fields next : PolicyFields}
    {entry : String × Setting} (done : addEntry isExponential fields entry = .ok next) :
    Sets (if isExponential then "initial-interval" else "interval")
        (fun value => value.toInterval.map some) entry fields.interval next.interval ∧
      Sets "max-attempts" (fun value => (value.orAbsent toLimit).map some) entry fields.limit
        next.limit ∧
      (isExponential →
        Sets "factor" (fun value => value.toFactor.map some) entry fields.factor next.factor ∧
        Sets "max-interval" (fun value => (value.orAbsent toInterval).map some) entry fields.longest
          next.longest) := by
  obtain ⟨key, value⟩ := entry
  unfold Sets
  have apart : "max-attempts" ≠ (if isExponential then "initial-interval" else "interval") ∧
      "factor" ≠ (if isExponential then "initial-interval" else "interval") ∧
      "max-interval" ≠ (if isExponential then "initial-interval" else "interval") := by
    cases isExponential <;> decide
  unfold addEntry at done
  dsimp only at done ⊢
  generalize (if isExponential then "initial-interval" else "interval") = name at done apart ⊢
  obtain ⟨attempts, growth, greatest⟩ := apart
  split at done
  · obtain ⟨interval, decoded, same⟩ := exists_of_bind done
    cases same
    simp [*, attempts.symm, growth.symm, greatest.symm, Except.map]
  · split at done
    · obtain ⟨limit, decoded, same⟩ := exists_of_bind done
      cases same
      simp [*, Except.map]
    · split at done
      · obtain ⟨factor, decoded, same⟩ := exists_of_bind done
        cases same
        simp [*, Except.map]
      · split at done
        · obtain ⟨longest, decoded, same⟩ := exists_of_bind done
          cases same
          simp [*, Except.map]
        · rename_i factor longest
          cases done
          simp only [if_neg, *, not_false_eq_true, true_and]
          intro growing
          rw [if_neg fun same => factor ⟨same, growing⟩, if_neg fun same => longest ⟨same, growing⟩]
          trivial

/-- The policy of a kind has its fields from the entries. -/
theorem policyOfEntries_eq_ok {kind : PolicyKind} {policy : RetryPolicy}
    (keys : entries.Pairwise fun first second => compare first.1 second.1 = .lt)
    (done : policyOfEntries entries kind = .ok policy) :
    policy.kind = kind ∧ policy.FieldsFrom fun key _ => lookup key entries := by
  have sets := fun isExponential => @PolicyFields.addEntry_sets isExponential
  cases kind with
  | none =>
      cases done
      exact ⟨rfl, trivial⟩
  | fixedDelay =>
      obtain ⟨fields, folded, done⟩ := exists_of_bind done
      obtain ⟨interval, required, done⟩ := exists_of_bind done
      cases done
      have pauses := foldlM_sets (fun _ _ _ done => (sets false done).1) keys folded
      have limits := foldlM_sets (fun _ _ _ done => (sets false done).2.1) keys folded
      exact ⟨rfl, .of_field pauses (exists_of_required required), .of_field limits⟩
  | exponential =>
      obtain ⟨fields, folded, done⟩ := exists_of_bind done
      obtain ⟨initial, required, done⟩ := exists_of_bind done
      obtain ⟨factor, needed, done⟩ := exists_of_bind done
      cases done
      have pauses := foldlM_sets (fun _ _ _ done => (sets true done).1) keys folded
      have limits := foldlM_sets (fun _ _ _ done => (sets true done).2.1) keys folded
      have factors := foldlM_sets (fun _ _ _ done => ((sets true done).2.2 rfl).1) keys folded
      have longest := foldlM_sets (fun _ _ _ done => ((sets true done).2.2 rfl).2) keys folded
      obtain ⟨setting, found, decoded⟩ := Gives.of_field factors (exists_of_required needed)
      refine ⟨rfl, .of_field pauses (exists_of_required required), ⟨setting, found, ?_⟩,
        .of_field limits, .of_field longest⟩
      exact congrArg (Except.map Number.Single.datum) decoded

/-- The policy of a kind has its fields from the items behind the kind. -/
theorem policyOfList_eq_ok {kind : PolicyKind} (first : Setting) {items : List Setting}
    {policy : RetryPolicy} (done : policyOfList items kind = .ok policy) :
    policy.kind = kind ∧ policy.FieldsFrom fun _ place => (first :: items)[place]? := by
  cases kind with
  | none =>
      cases eq_of_atMost done
      exact ⟨rfl, trivial⟩
  | fixedDelay =>
      obtain ⟨interval, pause, done⟩ := exists_of_bind done
      obtain ⟨limit, limited, done⟩ := exists_of_bind done
      cases eq_of_atMost done
      obtain ⟨item, there, decoded⟩ := exists_of_itemAt limited
      refine ⟨rfl, exists_of_itemAt pause, ?_⟩
      exact (congrArg (fun found => (found.getD .absent).orAbsent toLimit) there).trans decoded
  | exponential =>
      obtain ⟨initial, pause, done⟩ := exists_of_bind done
      obtain ⟨factor, grown, done⟩ := exists_of_bind done
      obtain ⟨limit, limited, done⟩ := exists_of_bind done
      obtain ⟨greatest, longest, done⟩ : ∃ greatest, (items.length ≤ 3 ∧ greatest = none ∨
          itemAt items 3 (orAbsent toInterval) = .ok greatest) ∧
          atMost items 4 (.exponential initial factor limit greatest) = .ok policy := by
        dsimp only at done
        split at done
        · exact ⟨none, .inl ⟨‹_›, rfl⟩, done⟩
        · obtain ⟨greatest, last, done⟩ := exists_of_bind done
          exact ⟨greatest, .inr last, done⟩
      cases eq_of_atMost done
      obtain ⟨setting, found, decoded⟩ := exists_of_itemAt grown
      refine ⟨rfl, exists_of_itemAt pause, ⟨setting, found, ?_⟩, ?_, ?_⟩
      · exact congrArg (Except.map Number.Single.datum) decoded
      · obtain ⟨item, there, decoded⟩ := exists_of_itemAt limited
        exact (congrArg (fun found => (found.getD .absent).orAbsent toLimit) there).trans decoded
      · rcases longest with ⟨short, rfl⟩ | last
        · have missing : items[3]? = none := List.getElem?_eq_none short
          exact congrArg (fun found => (found.getD .absent).orAbsent toInterval) missing
        · obtain ⟨item, there, decoded⟩ := exists_of_itemAt last
          exact (congrArg (fun found => (found.getD .absent).orAbsent toInterval) there).trans decoded

/-- What is decoded as a policy has everything from within its setting. -/
theorem toPolicy_reads {policy : RetryPolicy} (ordered : value.Ordered)
    (done : value.toPolicy = .ok policy) : policy.ReadFrom value.find? := by
  unfold Setting.toPolicy at done
  split at done
  · rename_i entries
    split at done
    · cases done
    · rename_i kind found
      obtain ⟨own, named, done⟩ := exists_of_bind done
      obtain ⟨same, fields⟩ := policyOfEntries_eq_ok ordered.parts.1 done
      refine ⟨⟨kind, (entryOf_table entries "type" 0).trans found, ?_⟩, ?_⟩
      · rw [same]
        exact under_eq_ok.mp named
      · simp only [entryOf_table]
        exact fields
  · cases done
  · rename_i kind items
    obtain ⟨own, named, done⟩ := exists_of_bind done
    obtain ⟨same, fields⟩ := policyOfList_eq_ok kind done
    refine ⟨⟨kind, entryOf_list (kind :: items) "type" 0, ?_⟩, ?_⟩
    · rw [same]
      exact under_eq_ok.mp named
    · simp only [entryOf_list]
      exact fields
  · cases done

/-- What an entry does to each field of options. -/
theorem OptionFields.addEntry_sets {fields next : OptionFields} {entry : String × Setting}
    (done : addEntry fields entry = .ok next) :
    Sets "commit-timeout" (fun value => value.toDuration.map some) entry fields.timeout
        next.timeout ∧
      Sets "load-retry-policy" (fun value => value.toPolicy.map some) entry fields.policy
        next.policy ∧
      Sets "max-batch-size" (fun value => (value.orAbsent toLimit).map some) entry fields.limit
        next.limit := by
  obtain ⟨key, value⟩ := entry
  unfold Sets
  unfold addEntry at done
  dsimp only at done ⊢
  split at done
  · obtain ⟨timeout, decoded, same⟩ := exists_of_bind done
    cases same
    simp [under_eq_ok.mp decoded, Except.map]
  · obtain ⟨policy, decoded, same⟩ := exists_of_bind done
    cases same
    simp [under_eq_ok.mp decoded, Except.map]
  · obtain ⟨limit, decoded, same⟩ := exists_of_bind done
    cases same
    simp [under_eq_ok.mp decoded, Except.map]
  · rename_i timeout policy limit
    cases done
    rw [if_neg timeout, if_neg policy, if_neg limit]
    exact ⟨rfl, rfl, rfl⟩

/-- What is decoded as options has everything from within its setting. -/
theorem toOptions_reads {options : Options} (ordered : value.Ordered)
    (done : value.toOptions = .ok options) : options.ReadFrom value.find? := by
  unfold Setting.toOptions at done
  split at done
  · rename_i entries
    obtain ⟨keys, values⟩ := ordered.parts
    obtain ⟨fields, folded, done⟩ := exists_of_bind done
    obtain ⟨timeout, timed, done⟩ := exists_of_bind done
    obtain ⟨policy, loaded, done⟩ := exists_of_bind done
    cases done
    have sets := @OptionFields.addEntry_sets
    have timeouts := foldlM_sets (fun _ _ _ done => (sets done).1) keys folded
    have policies := foldlM_sets (fun _ _ _ done => (sets done).2.1) keys folded
    have limits := foldlM_sets (fun _ _ _ done => (sets done).2.2) keys folded
    obtain ⟨setting, found, decoded⟩ := Gives.of_field policies (exists_of_required loaded)
    refine ⟨?_, ?_, ?_⟩
    · rw [entryOf_table]
      exact .of_field timeouts (exists_of_required timed)
    · rw [within_table found]
      exact toPolicy_reads (values _ (mem_of_lookup found)) decoded
    · rw [entryOf_table]
      exact .of_field limits
  · rename_i items
    obtain ⟨timeout, timed, done⟩ := exists_of_bind done
    obtain ⟨policy, loaded, done⟩ := exists_of_bind done
    obtain ⟨limit, limited, done⟩ := exists_of_bind done
    cases done
    obtain ⟨first, head, timed⟩ := exists_of_itemAt timed
    obtain ⟨second, middle, loaded⟩ := exists_of_itemAt loaded
    obtain ⟨third, last, limited⟩ := exists_of_itemAt limited
    refine ⟨⟨first, ?_, under_eq_ok.mp timed⟩, ?_, ?_⟩
    · rw [entryOf_list, head]
    · rw [within_list middle]
      exact toPolicy_reads (ordered.items second (List.mem_of_getElem? middle)) (under_eq_ok.mp loaded)
    · rw [MayGive, entryOf_list, last]
      exact under_eq_ok.mp limited
  · cases done

/-- The options of a configuration have everything from within its only entry. -/
theorem toConfiguration_reads {options : Options} (ordered : value.Ordered)
    (done : value.toConfiguration = .ok options) :
    options.ReadFrom fun path => value.find? ("claim-store" :: path) := by
  unfold Setting.toConfiguration at done
  split at done
  · rename_i entries
    split at done
    · cases done
    · rename_i setting found
      have inner : (fun path => (table entries).find? ("claim-store" :: path)) = setting.find? :=
        within_table found 0
      rw [inner]
      exact toOptions_reads (ordered.parts.2 _ (mem_of_lookup found)) (under_eq_ok.mp done)
  · cases done

end Setting

end ClaimStore
