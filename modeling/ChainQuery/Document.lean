/-
  ChainQuery.Document — how the tool shows what it knows, as JSON.

  Bytes are hexadecimal text, hashes are in display order, points are texts. A reply
  is its kind and its value; an acknowledgement has no value. The fields stand in a
  fixed order.
-/

import ChainQuery.Json
import ChainQuery.Reply

namespace ChainQuery

def Json.hex (bs : Bytes) : Json := .string (Hex.encode bs)

def Json.hash (h : Hash) : Json := .string (Hash.text h)

def Script.toJson (s : Script) : Json := .hex s.toList

def OutPoint.toJson (p : OutPoint) : Json := .string p.text

def Input.toJson (i : Input) : Json :=
  .object [
    ("previous_output", i.previousOutput.toJson),
    ("script_sig", i.scriptSig.toJson),
    ("sequence", .ofNat i.sequence.toNat),
    ("witness", .array (i.witness.toList.map Script.toJson))]

def Output.toJson (o : Output) : Json :=
  .object [("value", .ofNat o.value.toNat), ("script_pubkey", o.scriptPubkey.toJson)]

def Transaction.toJson (tx : Transaction) : Json :=
  .object [
    ("version", .number tx.version.toInt),
    ("lock_time", .ofNat tx.lockTime.toNat),
    ("input", .array (tx.inputs.toList.map Input.toJson)),
    ("output", .array (tx.outputs.toList.map Output.toJson))]

def Header.toJson (h : Header) : Json :=
  .object [
    ("version", .number h.version.toInt),
    ("prev_blockhash", .hash h.previousBlock),
    ("merkle_root", .hash h.merkleRoot),
    ("time", .ofNat h.time.toNat),
    ("bits", .ofNat h.bits.toNat),
    ("nonce", .ofNat h.nonce.toNat)]

def Address.toJson (a : Address) : Json :=
  .object [("version", .ofNat a.version.toNat), ("hash", .hex a.hash.1)]

def HistoryRow.toJson (r : HistoryRow) : Json :=
  .object [
    ("output", r.output.toJson),
    ("output_height", .ofNat r.outputHeight.toNat),
    ("value", .ofNat r.value.toNat),
    ("spend", r.spend.toJson),
    ("spend_height", .ofNat r.spendHeight.toNat)]

def CompactKind.toJson : CompactKind → Json
  | .output value => .object [("output", .object [("value", .ofNat value.toNat)])]
  | .spend previousChecksum =>
    .object [("spend", .object [("previous_checksum", .ofNat previousChecksum.toNat)])]
  | .unknown kind slot =>
    .object [("unknown", .object [("kind", .ofNat kind.toNat), ("slot", .ofNat slot.toNat)])]

def CompactRow.toJson (r : CompactRow) : Json :=
  .object [("point", r.point.toJson), ("height", .ofNat r.height.toNat), ("kind", r.kind.toJson)]

def CompactStealthRow.toJson (r : CompactStealthRow) : Json :=
  .object [
    ("ephemeral_key_hash", .hex r.ephemeralKeyHash.1),
    ("public_key_hash", .hex r.publicKeyHash.1),
    ("transaction_hash", .hash r.transactionHash)]

def StealthRow.toJson (r : StealthRow) : Json :=
  .object [
    ("ephemeral_public_key", .hex r.ephemeralPublicKey.1),
    ("public_key_hash", .hex r.publicKeyHash.1),
    ("transaction_hash", .hash r.transactionHash)]

def TransactionIndex.toJson (i : TransactionIndex) : Json :=
  .object [("height", .ofNat i.height.toNat), ("index", .ofNat i.index.toNat)]

def AddressUpdate.fields (u : AddressUpdate) : List (String × Json) :=
  [("address", u.address.toJson), ("height", .ofNat u.height.toNat), ("block_hash", .hash u.blockHash)]

def StealthUpdate.fields (u : StealthUpdate) : List (String × Json) :=
  [("prefix", .hex u.leading.1), ("height", .ofNat u.height.toNat), ("block_hash", .hash u.blockHash)]

def Notification.toJson : Notification → Json
  | .address u => .object (("kind", .string "address") :: u.fields)
  | .stealth u => .object (("kind", .string "stealth") :: u.fields)

namespace Reply

def kindName : Reply → String
  | .empty => "empty"
  | .transaction _ => "transaction"
  | .height _ => "height"
  | .blockHeader _ => "block_header"
  | .transactionIndex _ => "transaction_index"
  | .unconfirmedInputs _ => "unconfirmed_inputs"
  | .history _ => "history"
  | .stealth _ => "stealth"
  | .resultCode _ => "result_code"
  | .notification _ => "notification"

def value? : Reply → Option Json
  | .empty => none
  | .transaction tx => some tx.toJson
  | .height n => some (.ofNat n.toNat)
  | .blockHeader h => some h.toJson
  | .transactionIndex i => some i.toJson
  | .unconfirmedInputs is => some (.array (is.map fun n => .ofNat n.toNat))
  | .history rows => some (.array (rows.map HistoryRow.toJson))
  | .stealth rows => some (.array (rows.map StealthRow.toJson))
  | .resultCode n => some (.ofNat n.toNat)
  | .notification n => some n.toJson

def toJson (r : Reply) : Json :=
  .object (("kind", .string r.kindName) :: (r.value?.map fun v => ("value", v)).toList)

end Reply

def Request.toJson (r : Request) : Json :=
  .object [("command", .string r.command.name), ("payload", .hex r.payload)]

/-- A command's entry in the catalogue. -/
def Command.toJson (c : Command) : Json :=
  .object [
    ("name", .string c.name),
    ("deprecated", .bool c.isDeprecated),
    ("notification", .bool c.isNotification)]

end ChainQuery
