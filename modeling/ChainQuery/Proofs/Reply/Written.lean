/-
  ChainQuery.Proofs.Reply.Written — the payload that a reply was read from.

  A reply is read field by field off its payload, to the end, and no field is dropped or changed
  into one that stands for another. So the payload can be written again from the reply. Compact
  histories are the exception: spends are joined to outputs by checksum and given up where they
  belong to none, and rows of unknown kinds are dropped, so that payloads with one reply abound.

  Proved:
  - `payload_of_decode`: a payload is what its reply is written as, for every command whose
    replies are not reconciled.
-/

import ChainQuery.Proofs.Reply.Fixed
import ChainQuery.Proofs.Stealth

namespace ChainQuery

open Reader

namespace Reply

/-- The payload of a reply that was not reconciled. -/
def encode : Reply → Bytes
  | .empty => []
  | .transaction tx => tx.encode
  | .height n => Bytes.u32 n
  | .blockHeader h => h.encode
  | .transactionIndex i => i.encode
  | .unconfirmedInputs is => is.flatMap Bytes.u32
  | .history rows => ExpandedRow.encodeAll rows
  | .stealth rows => CompactStealthRow.encodeAll (rows.map StealthRow.compact)
  | .resultCode n => Bytes.u32 n
  | .notification (.address u) => u.encode
  | .notification (.stealth u) => u.encode

variable {c : Command} {payload : Bytes} {r : Reply}

theorem payload_of_whole {α : Type} {read : Reader α} {written : α → Bytes} {P : α → Prop}
    (hread : read.Decodes written P) {a : α} (h : read.whole payload = .ok a) : payload = written a := by
  obtain ⟨hpayload, -⟩ := (hread _ _ _).mp (whole_eq_ok_iff.mp h)
  rwa [List.append_nil] at hpayload

theorem payload_of_map {α : Type} {x : Except DecodeError α} {f : α → Reply}
    (hx : ∀ a, x = .ok a → payload = (f a).encode) (h : x.map f = .ok r) : payload = r.encode := by
  obtain ⟨a, ha, rfl⟩ := Except.map_eq_ok_iff.mp h
  exact hx a ha

theorem payload_of_decode (hcurrent : c ≠ .fetchHistory) (hlegacy : c ≠ .addressFetchHistory2)
    (h : (decode c payload).value = .ok r) : payload = r.encode := by
  have hunit : (pure () : Reader Unit).Decodes (fun _ => []) fun _ => True := decodes_pure fun _ => by simp
  cases c with
  | broadcastTransaction => exact payload_of_map (fun _ => payload_of_whole hunit) h
  | addressSubscribe => exact payload_of_map (fun _ => payload_of_whole hunit) h
  | validateTransaction => exact payload_of_map (fun _ his => (RowReader.eq_flatMap_of_all _ decodes_u32 his).1) h
  | poolFetchTransaction => exact payload_of_map (fun _ htx => (Decode.transaction_eq_ok_iff.mp htx).1) h
  | fetchTransaction => exact payload_of_map (fun _ htx => (Decode.transaction_eq_ok_iff.mp htx).1) h
  | fetchLastHeight => exact payload_of_map (fun _ => payload_of_whole decodes_u32) h
  | fetchBlockHeader =>
    exact payload_of_map (fun _ => payload_of_whole ((agrees_consensus _).decodes Header.decodes_header)) h
  | fetchTransactionIndex => exact payload_of_map (fun _ => payload_of_whole TransactionIndex.decodes_index) h
  | fetchStealth => exact payload_of_map (fun _ hrows => (StealthRow.decodeAll_eq_ok_iff.mp hrows).1) h
  | fetchHistory => exact absurd rfl hcurrent
  | addressFetchHistory2 => exact absurd rfl hlegacy
  | addressFetchHistory =>
    exact payload_of_map (fun _ hrows => (RowReader.eq_flatMap_of_all _ ExpandedRow.decodes_expanded hrows).1) h
  | addressRenew => exact payload_of_map (fun _ => payload_of_whole decodes_u32) h
  | addressUpdate => exact payload_of_map (fun _ => payload_of_whole AddressUpdate.decodes_update) h
  | addressStealthUpdate => exact payload_of_map (fun _ => payload_of_whole StealthUpdate.decodes_update) h

end Reply

end ChainQuery
