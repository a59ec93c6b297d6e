import ClaimStore.Config.Decode
import ClaimStore.Config.Environment
import ClaimStore.Toml.Document

/-!
Loading the options of a claim store.

There are three layers: defaults, a file and the environment. A value of a higher layer replaces the
one below it, but tables are united, so a key that only a lower layer has remains.
-/
namespace ClaimStore

/-- The file of a configuration. -/
inductive ConfigFile
  | notGiven
  | missing
  | document (text : String)
  deriving DecidableEq

/-- Where the options come from. The variables count only if they are given. -/
structure ConfigSources where
  defaults : Options
  file : ConfigFile
  environment : Option (List (String × String))

/-- Why no options can be loaded. -/
inductive ConfigError
  | setting (error : SettingError)
  | invalid (fault : Options.Fault)
  /-- A variable replaces the whole configuration. -/
  | unusableVariable
  deriving DecidableEq

/-- What is wrong with the options; a setting that cannot be decoded has no text of its own. -/
def ConfigError.message? : ConfigError → Option String
  | .invalid fault => some ("invalid configuration: " ++ fault.message)
  | _ => none

namespace ConfigSources

/-- The settings of the file, or none if it cannot be read. -/
def fileSetting? : ConfigFile → Option Setting
  | .notGiven => some (.table [])
  | .missing => none
  | .document text => Toml.parse? text

/-- The settings of all layers, or the reason why a layer cannot be read. A variable that cannot be
used is noticed before a file that cannot be read. -/
def layers (sources : ConfigSources) : Except ConfigError Setting :=
  match Environment.settings? (sources.environment.getD []), fileSetting? sources.file with
  | none, _ => .error .unusableVariable
  | some _, none => .error (.setting ⟨.message, []⟩)
  | some environment, some file =>
      .ok ((sources.defaults.configuration.sorted.overlay file).overlay environment)

/-- The options of all layers, if they are valid. -/
def load (sources : ConfigSources) : Except ConfigError Options :=
  match sources.layers with
  | .error error => .error error
  | .ok settings =>
      match settings.toConfiguration with
      | .error error => .error (.setting error)
      | .ok options =>
          match options.fault? with
          | some fault => .error (.invalid fault)
          | none => .ok options

end ConfigSources

/-- How a configuration is loaded: over which defaults, from which file, and whether the variables of
the process count. -/
structure ConfigLoader where
  customDefault : Option Options := none
  file : ConfigFile := .notGiven
  usesVariables : Bool := false

namespace ConfigLoader

def defaults (loader : ConfigLoader) : Options := loader.customDefault.getD default

def loadOnce (loader : ConfigLoader) (environment : List (String × String)) :
    Except ConfigError Options :=
  ConfigSources.load
    ⟨loader.defaults, loader.file, if loader.usesVariables then some environment else none⟩

end ConfigLoader

end ClaimStore
