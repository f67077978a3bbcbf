/-
  ChainQuery.Proofs.Notification — the written forms of what the server pushes.

  An update is written field by field: the version, the hash in wire order, the height and
  the block for an address; the leading bits, the height and the block for a stealth output.
  Each reader takes exactly the written form of the update it gives, and stops at the first
  field that is not all there.

  Proved:
  - `decodes_update`, `follows_update` (for each kind of update): what its reader accepts,
    and where it stops.
  - `StealthUpdate.leading_of_read`: a payload starts with the bits of the update it is read as.
-/

import ChainQuery.Notification
import ChainQuery.Proofs.Payload.Layout

namespace ChainQuery

open Reader

namespace AddressUpdate

def encode (u : AddressUpdate) : Bytes :=
  [u.address.version] ++ u.address.wireHash.1 ++ Bytes.u32 u.height ++ u.blockHash.1

theorem decodes_update : read.Decodes encode fun _ => True := by
  refine Decodes.congr (decodes_u8.field (fun u : AddressUpdate => u.address.version) fun v =>
    (decodes_fixed 20).field (fun u : AddressUpdate => u.address.wireHash) fun w => decodes_u32.field height fun n =>
      (decodes_fixed 32).field blockHash fun b => decodes_pure fun u => ?_) fun u => ?_
  · -- the update is known from its fields, and the hash from its wire order
    have haddress : u.address.version = v ∧ u.address.wireHash = w ↔ u.address = Address.ofWire v w := by
      constructor
      · intro ⟨hv, hw⟩
        rw [← hv, ← hw, Address.ofWire, Address.wireHash, FixedBytes.reverse_reverse]
      · intro hu
        rw [hu]
        exact ⟨rfl, FixedBytes.reverse_reverse w⟩
    rw [true_and, haddress]
    cases u
    simp [and_assoc]
  · simp [encode]

theorem follows_update : read.Follows ([1, 20, 4, 32].map Cell.plain) :=
  (follows_bind follows_u8 fun _ => follows_bind (follows_fixed 20) fun _ => follows_bind follows_u32 fun _ =>
    follows_bind (follows_fixed 32) fun _ => follows_pure _).congr rfl

end AddressUpdate

namespace StealthUpdate

def encode (u : StealthUpdate) : Bytes := u.leading.1 ++ Bytes.u32 u.height ++ u.blockHash.1

theorem decodes_update : read.Decodes encode fun _ => True := by
  refine Decodes.congr ((decodes_fixed 4).field leading fun l => decodes_u32.field height fun n =>
    (decodes_fixed 32).field blockHash fun b => decodes_pure fun u => ?_) fun u => ?_
  · cases u
    simp [and_assoc]
  · simp [encode]

theorem follows_update : read.Follows ([4, 4, 32].map Cell.plain) :=
  (follows_bind (follows_fixed 4) fun _ => follows_bind follows_u32 fun _ => follows_bind (follows_fixed 32) fun _ =>
    follows_pure _).congr rfl

theorem leading_of_read {payload : Bytes} {u : StealthUpdate} (h : read.whole payload = .ok u) :
    u.leading.1 = payload.take 4 := by
  obtain ⟨hpayload, -⟩ := (decodes_update _ _ _).mp (whole_eq_ok_iff.mp h)
  rw [hpayload, encode, List.append_assoc, List.append_assoc, List.take_left' u.leading.2]

end StealthUpdate

end ChainQuery
