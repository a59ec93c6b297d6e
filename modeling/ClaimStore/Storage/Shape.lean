import ClaimStore.Flexbuffer.Cursor
import ClaimStore.Flexbuffer.Writer
import ClaimStore.Pool.State
import ClaimStore.Storage.Frame
import ClaimStore.Version

/-!
The stored shape of pool states.

A state is stored as a record of its key, units and claims; names and references are texts, amounts
and versions are numbers. Reading goes by content: a record may be a map with the fields in any
order or a vector with the fields in their order.
-/
namespace ClaimStore.Storage

open Flexbuffer

/-- What a type looks like in a flexbuffer, and how it is found there. -/
structure Shape (α : Type) where
  tree : α → Tree
  find? : Cursor → Option α

namespace Shape

def format {α : Type} (shape : Shape α) : Format α where
  write value := (shape.tree value).write
  read? bytes := do shape.find? (← Cursor.root? bytes)

def number : Shape UInt64 := ⟨Tree.number, Cursor.number?⟩

/-- A version is a number; one that is no 32-bit word is refused. -/
def version : Shape Version where
  tree version := .number version.val.toUInt64
  find? cursor := do
    let number ← cursor.number?
    if number.toNat < UInt32.size then some ⟨number.toUInt32⟩ else none

def claimId : Shape ClaimId where
  tree id := .text id.text
  find? cursor := cursor.text?.map ClaimId.mk

def stateRef : Shape StateRef where
  tree ref := .text ref.text
  find? cursor := cursor.text?.map StateRef.mk

def poolKey : Shape PoolKey where
  tree key :=
    .record ((PoolKey.Component.all.map PoolKey.Component.name).zip (key.components.map Tree.text))
  find? cursor := do
    let fields ← cursor.fields? (PoolKey.Component.all.map PoolKey.Component.name)
    match ← fields.mapM Cursor.text? with
    | [holdingId, tokenType, issuerHash, notary, symbol] =>
        some { holdingId, tokenType, issuerHash, notary, symbol }
    | _ => none

def token : Shape ClaimedToken where
  tree token := .record [("state_ref", stateRef.tree token.ref), ("amount", .number token.amount)]
  find? cursor := do
    match ← cursor.fields? ["state_ref", "amount"] with
    | [ref, amount] => some { ref := ← stateRef.find? ref, amount := ← amount.number? }
    | _ => none

def claim : Shape Claim where
  tree claim :=
    .record [("claim_id", claimId.tree claim.id), ("tokens", .list (claim.tokens.map token.tree))]
  find? cursor := do
    match ← cursor.fields? ["claim_id", "tokens"] with
    | [id, tokens] => some { id := ← claimId.find? id, tokens := ← tokens.list? token.find? }
    | _ => none

def poolState : Shape PoolState where
  tree pool :=
    .record
      [("pool_key", poolKey.tree pool.key), ("available_units", .number pool.available),
        ("claims", .list (pool.claims.map claim.tree))]
  find? cursor := do
    match ← cursor.fields? ["pool_key", "available_units", "claims"] with
    | [key, available, claims] =>
        some
          { key := ← poolKey.find? key
            available := ← available.number?
            claims := ← claims.list? claim.find? }
    | _ => none

end Shape

abbrev poolFormat : Format PoolState := Shape.poolState.format

end ClaimStore.Storage
