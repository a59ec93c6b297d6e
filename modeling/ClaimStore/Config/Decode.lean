import ClaimStore.Config.Options
import ClaimStore.Toml.Document

/-!
Options from settings.

Settings are decoded by what they are. Records can be given as tables, with unknown entries
ignored, or as lists of their fields in order.
-/
namespace ClaimStore

/-- What is wrong with a setting. -/
inductive SettingFault
  /-- It is a text without the form that is wanted, or the source cannot be read. -/
  | message
  | invalidType
  | invalidValue
  | invalidLength
  | unknownVariant
  | missingField
  deriving DecidableEq

/-- What is wrong, and the keys that lead to the setting. -/
structure SettingError where
  fault : SettingFault
  path : List String
  deriving DecidableEq

namespace Setting

abbrev Decoded (α : Type) := Except SettingError α

def under {α : Type} (key : String) : Decoded α → Decoded α
  | .ok value => .ok value
  | .error error => .error { error with path := key :: error.path }

def refuse {α : Type} (fault : SettingFault) : Decoded α := .error ⟨fault, []⟩

def orAbsent {α : Type} (decode : Setting → Decoded α) : Setting → Decoded (Option α)
  | .absent => .ok none
  | setting => (decode setting).map some

def durationOfText (text : String) : Decoded Duration :=
  match Duration.parse? text with
  | some duration => .ok duration
  | none => refuse .message

/-- A duration is given by its text, of which a character is a short one. -/
def toDuration : Setting → Decoded Duration
  | .text word => durationOfText word
  | .character char => durationOfText (String.singleton char)
  | _ => refuse .invalidType

/-- A duration within a policy, where no character is taken for a text. -/
def toInterval : Setting → Decoded Duration
  | .text word => durationOfText word
  | _ => refuse .invalidType

def limitOfInt (count : Int) : Decoded Limit :=
  match Limit.ofNat? count.toNat with
  | some limit => .ok limit
  | none => refuse .invalidValue

def toLimit : Setting → Decoded Limit
  | .natural count => limitOfInt count.toNat
  | .integer count => limitOfInt count.toInt
  | _ => refuse .invalidType

def toFactor : Setting → Decoded Number.Single
  | .natural value => .ok (.ofInt value.toNat)
  | .integer value => .ok (.ofInt value.toInt)
  | .float value => .ok value.toSingle
  | _ => refuse .invalidType

/-- The kinds of retry policies. -/
inductive PolicyKind
  | none
  | fixedDelay
  | exponential

def kindOfText (text : String) : Decoded PolicyKind :=
  match text with
  | "none" => .ok .none
  | "fixed-delay" => .ok .fixedDelay
  | "exponential" => .ok .exponential
  | _ => refuse .unknownVariant

/-- A kind is given by its name or its index. -/
def toPolicyKind : Setting → Decoded PolicyKind
  | .text word => kindOfText word
  | .character char => kindOfText (String.singleton char)
  | .natural 0 => .ok .none
  | .natural 1 => .ok .fixedDelay
  | .natural 2 => .ok .exponential
  | .natural _ => refuse .invalidValue
  | _ => refuse .invalidType

/-- The fields of a policy as they are found. -/
structure PolicyFields where
  interval : Option Duration := .none
  factor : Option Number.Single := .none
  limit : Option (Option Limit) := .none
  longest : Option (Option Duration) := .none

/-- Reads an entry of a policy whose interval has the given name. -/
def PolicyFields.addEntry (isExponential : Bool) (fields : PolicyFields)
    (entry : String × Setting) : Decoded PolicyFields := do
  let (key, value) := entry
  if key = (if isExponential then "initial-interval" else "interval") then
    return { fields with interval := some (← value.toInterval) }
  else if key = "max-attempts" then return { fields with limit := some (← value.orAbsent toLimit) }
  else if key = "factor" ∧ isExponential then
    return { fields with factor := some (← value.toFactor) }
  else if key = "max-interval" ∧ isExponential then
    return { fields with longest := some (← value.orAbsent toInterval) }
  else return fields

def required {α : Type} (fault : SettingFault) : Option α → Decoded α
  | some value => .ok value
  | none => refuse fault

/-- The policy of a kind with the given entries. The first wrong entry is noticed before a missing
one. -/
def policyOfEntries (entries : List (String × Setting)) : PolicyKind → Decoded RetryPolicy
  | .none => .ok .none
  | .fixedDelay => do
      let fields ← entries.foldlM (PolicyFields.addEntry false) {}
      let interval ← required .missingField fields.interval
      return .fixedDelay interval (fields.limit.getD none)
  | .exponential => do
      let fields ← entries.foldlM (PolicyFields.addEntry true) {}
      let initial ← required .missingField fields.interval
      let factor ← required .missingField fields.factor
      return .exponential initial factor (fields.limit.getD none) (fields.longest.getD none)

def itemAt {α : Type} (items : List Setting) (index : Nat) (decode : Setting → Decoded α) :
    Decoded α :=
  match items[index]? with
  | none => refuse .invalidLength
  | some item => decode item

def atMost {α : Type} (items : List Setting) (count : Nat) (value : α) : Decoded α :=
  if items.length ≤ count then .ok value else refuse .invalidLength

/-- The policy of a kind with the given fields in order. The last field of a growing pause can be
left out. -/
def policyOfList (items : List Setting) : PolicyKind → Decoded RetryPolicy
  | .none => atMost items 0 .none
  | .fixedDelay => do
      let interval ← itemAt items 0 toInterval
      let limit ← itemAt items 1 (orAbsent toLimit)
      atMost items 2 (.fixedDelay interval limit)
  | .exponential => do
      let initial ← itemAt items 0 toInterval
      let factor ← itemAt items 1 toFactor
      let limit ← itemAt items 2 (orAbsent toLimit)
      let longest ← if items.length ≤ 3 then .ok none else itemAt items 3 (orAbsent toInterval)
      atMost items 4 (.exponential initial factor limit longest)

def toPolicy : Setting → Decoded RetryPolicy
  | .table entries =>
      match lookup "type" entries with
      | none => refuse .missingField
      | some kind => do policyOfEntries entries (← under "type" kind.toPolicyKind)
  | .list [] => refuse .missingField
  | .list (kind :: items) => do policyOfList items (← under "0" kind.toPolicyKind)
  | _ => refuse .invalidType

/-- The options as they are found. -/
structure OptionFields where
  timeout : Option Duration := none
  policy : Option RetryPolicy := none
  limit : Option (Option Limit) := none

def OptionFields.addEntry (fields : OptionFields) (entry : String × Setting) :
    Decoded OptionFields := do
  let (key, value) := entry
  match key with
  | "commit-timeout" => return { fields with timeout := some (← under key value.toDuration) }
  | "load-retry-policy" => return { fields with policy := some (← under key value.toPolicy) }
  | "max-batch-size" =>
      return { fields with limit := some (← under key (value.orAbsent toLimit)) }
  | _ => return fields

/-- Options are a record. A list has all three fields; what follows them is ignored. -/
def toOptions : Setting → Decoded Options
  | .table entries => do
      let fields ← entries.foldlM OptionFields.addEntry {}
      let commitTimeout ← required .missingField fields.timeout
      let loadPolicy ← required .missingField fields.policy
      return { commitTimeout, loadPolicy, batchLimit := fields.limit.getD none }
  | .list items => do
      let commitTimeout ← itemAt items 0 fun item => under "0" item.toDuration
      let loadPolicy ← itemAt items 1 fun item => under "1" item.toPolicy
      let batchLimit ← itemAt items 2 fun item => under "2" (item.orAbsent toLimit)
      return { commitTimeout, loadPolicy, batchLimit }
  | _ => refuse .invalidType

def toConfiguration (setting : Setting) : Decoded Options :=
  match setting with
  | .table entries =>
      match lookup "claim-store" entries with
      | none => refuse .missingField
      | some options => under "claim-store" options.toOptions
  | _ => refuse .invalidType

end Setting

/-- The options that a document holds, if it can be read. -/
def Options.ofText? (text : String) : Option Options :=
  (Toml.parse? text).bind fun setting => setting.toOptions.toOption

end ClaimStore
