import ClaimStore.Pool.Key
import ClaimStore.Pool.Claim
import ClaimStore.Table

/-!
Caches of unclaimed tokens.

A pool's cache may miss any token; it is emptied as a whole when it can no longer be trusted.
-/
namespace ClaimStore

/-- The known tokens of one pool, and how often they have all been dropped. -/
structure TokenCache where
  tokens : Table StateRef UInt64
  invalidations : Nat
  deriving DecidableEq, Inhabited

namespace TokenCache

def empty : TokenCache := ⟨.empty, 0⟩

def add (cache : TokenCache) (ref : StateRef) (amount : UInt64) : TokenCache :=
  { cache with tokens := cache.tokens.insert ref amount }

def remove (cache : TokenCache) (ref : StateRef) : TokenCache :=
  { cache with tokens := cache.tokens.erase ref }

def amount? (cache : TokenCache) (ref : StateRef) : Option UInt64 := cache.tokens.find? ref

/-- Drops all tokens, also when there are none. -/
def invalidate (cache : TokenCache) : TokenCache := ⟨.empty, cache.invalidations + 1⟩

def size (cache : TokenCache) : Nat := cache.tokens.size

/-- The units of all tokens, at most the greatest amount. -/
def totalUnits (cache : TokenCache) : UInt64 := Units.total cache.tokens.values

end TokenCache

abbrev PoolCaches := Table PoolKey TokenCache

namespace PoolCaches

/-- The cache of a pool; a pool without one has an empty cache. -/
def slice (caches : PoolCaches) (key : PoolKey) : TokenCache := (caches.find? key).getD .empty

def ensure (caches : PoolCaches) (key : PoolKey) : PoolCaches :=
  caches.insert key (caches.slice key)

def change (caches : PoolCaches) (key : PoolKey) (step : TokenCache → TokenCache) : PoolCaches :=
  caches.insert key (step (caches.slice key))

end PoolCaches

end ClaimStore
