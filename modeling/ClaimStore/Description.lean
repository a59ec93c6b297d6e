import ClaimStore.PoolStore
import ClaimStore.Text.Quoted

/-!
Descriptions of pool stores, as they appear in logs.
-/
namespace ClaimStore

def describe (name : String) (fields : List (String × String)) : String :=
  let entries := fields.map fun field => field.1 ++ ": " ++ field.2
  name ++ " \x7b " ++ ", ".intercalate entries ++ " \x7d"

/-- The components of a key, quoted. Their names are written with underscores. -/
def PoolKey.description (key : PoolKey) : String :=
  let name (component : Component) : String :=
    component.name.map fun char => if char = '-' then '_' else char
  describe "PoolKey" ((Component.all.map name).zip (key.components.map Text.quoted))

def Version.description (version : Version) : String := s!"Version({version.val.toNat})"

def PoolStore.description (store : PoolStore) : String :=
  describe "ClaimStateStore"
    [("pool_key", store.key.description),
      ("db_version", store.snapshot.version.description),
      ("draining", if store.isDraining then "true" else "false")]

end ClaimStore
