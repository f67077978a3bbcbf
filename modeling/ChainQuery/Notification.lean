/-
  ChainQuery.Notification — what the server pushes to a subscriber.

  An address update says that a block touched an address; a stealth update says that
  a block carries a stealth output, and gives the first 32 bits that subscriptions
  are matched against.
-/

import ChainQuery.Address
import ChainQuery.Payload.Reader

namespace ChainQuery

structure AddressUpdate where
  address : Address
  height : UInt32
  blockHash : Hash
  deriving DecidableEq, Repr

structure StealthUpdate where
  leading : FixedBytes 4
  height : UInt32
  blockHash : Hash
  deriving DecidableEq, Repr

inductive Notification where
  | address (u : AddressUpdate)
  | stealth (u : StealthUpdate)
  deriving DecidableEq, Repr

namespace AddressUpdate

/-- Version, reversed hash, height and block hash. -/
def read : Reader AddressUpdate := do
  let version ← Reader.u8
  let wireHash ← Reader.fixed 20
  let height ← Reader.u32
  let blockHash ← Reader.fixed 32
  return { address := Address.ofWire version wireHash, height, blockHash }

end AddressUpdate

namespace StealthUpdate

def read : Reader StealthUpdate := do
  let leading ← Reader.fixed 4
  let height ← Reader.u32
  let blockHash ← Reader.fixed 32
  return { leading, height, blockHash }

/-- Whether a subscription covers the update; one of more than 32 bits never does. -/
def isCoveredBy (u : StealthUpdate) (subscription : Prefix) : Bool := subscription.matchesData u.leading.1

end StealthUpdate

end ChainQuery
