/-
  ChainQuery.Address — payment addresses: a version byte and a twenty-byte hash.

  The hash is kept in canonical order, the order of the address's text; on the wire
  its bytes are reversed unless a command says otherwise. The text is the checked
  form of the version and the hash.
-/

import ChainQuery.Digest.Sha256
import ChainQuery.Prefix
import ChainQuery.Text.Base58

namespace ChainQuery

structure Address where
  version : UInt8
  hash : ShortHash
  deriving DecidableEq, Repr

inductive AddressError where
  | base58 (cause : Base58Error)
  /-- The checksum is right, but this many bytes are no version and hash. -/
  | badLength (count : Nat)
  deriving DecidableEq, Repr

def AddressError.message : AddressError → String
  | .base58 cause => "invalid base58check encoding: " ++ cause.message
  | .badLength count => "expected 21 address bytes, found " ++ Nat.repr count

namespace Address

def ofWire (version : UInt8) (wireHash : ShortHash) : Address := ⟨version, wireHash.reverse⟩

def wireHash (a : Address) : ShortHash := a.hash.reverse

def text (a : Address) : String := Base58Check.encode Sha256.checksum (a.version :: a.hash.1)

def ofText (s : String) : Except AddressError Address :=
  match Base58Check.decode Sha256.checksum s with
  | .error e => .error (.base58 e)
  | .ok [] => .error (.badLength 0)
  | .ok (version :: bs) =>
    match FixedBytes.ofBytes? 20 bs with
    | some hash => .ok ⟨version, hash⟩
    | none => .error (.badLength (bs.length + 1))

/-- The prefix that only this address's hash has. -/
def hashPrefix (a : Address) : Prefix := Prefix.ofBytes 160 a.hash.1

end Address

end ChainQuery
