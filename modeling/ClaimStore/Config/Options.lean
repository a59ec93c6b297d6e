import ClaimStore.Config.Setting
import ClaimStore.Retry.Policy
import ClaimStore.Time.DurationText
import ClaimStore.Toml.Writer

/-!
Options of a claim store.
-/
namespace ClaimStore

/-- How long an update may take, how loads are retried, and how many requests are committed
together. Without a batch limit all waiting requests are. -/
structure Options where
  commitTimeout : Duration
  loadPolicy : RetryPolicy
  batchLimit : Option Limit
  deriving DecidableEq

namespace Options

def defaultTimeout : Duration := .ofMillis 5000

/-- Up to ten retries, with pauses that are doubled from ten milliseconds to one second. -/
def defaultPolicy : RetryPolicy :=
  .exponential (.ofMillis 10) (.ofInt 2) (some ⟨10, by decide⟩) (some (.ofMillis 1000))

instance : Inhabited Options := ⟨⟨defaultTimeout, defaultPolicy, none⟩⟩

def batchSize (options : Options) : Nat := (options.batchLimit.getD .greatest).toNat

/-- Why options are refused. -/
inductive Fault
  | zeroDuration (field : String)
  | retryFactor (factor : Number.Single)
  deriving DecidableEq

def Fault.message : Fault → String
  | .zeroDuration field => s!"'{field}' must be greater than zero"
  | .retryFactor factor => "retry policy factor must be >= 1.0 but was " ++ factor.text

/-- What is wrong with the options. A timeout of zero is noticed before a factor below one. -/
def fault? (options : Options) : Option Fault :=
  if options.commitTimeout = .zero then some (.zeroDuration "commit-timeout")
  else
    match options.loadPolicy with
    | .exponential _ factor _ _ => if factor.ltNat 1 then some (.retryFactor factor) else none
    | _ => none

end Options

def Limit.setting : Option Limit → Setting
  | none => .absent
  | some limit => .natural limit.count

def Duration.setting : Option Duration → Setting
  | none => .absent
  | some duration => .text duration.text

/-- The settings of a policy. Its kind is named by the entry `type`. -/
def RetryPolicy.setting : RetryPolicy → Setting
  | .none => .table [("type", .text "none")]
  | .fixedDelay interval limit =>
      .table
        [("type", .text "fixed-delay"), ("interval", Duration.setting interval),
          ("max-attempts", Limit.setting limit)]
  | .exponential initial factor limit longest =>
      .table
        [("type", .text "exponential"), ("initial-interval", Duration.setting initial),
          ("factor", .float factor.toDouble), ("max-attempts", Limit.setting limit),
          ("max-interval", Duration.setting longest)]

namespace Options

def setting (options : Options) : Setting :=
  .table
    [("commit-timeout", Duration.setting options.commitTimeout),
      ("load-retry-policy", options.loadPolicy.setting),
      ("max-batch-size", Limit.setting options.batchLimit)]

def configuration (options : Options) : Setting := .table [("claim-store", options.setting)]

/-- The options as a document. There is none if a number is too great to be written. -/
def text? (options : Options) : Option String := Toml.text? options.setting

def dump? (options : Options) : Option String := Toml.text? options.configuration

end Options

end ClaimStore
