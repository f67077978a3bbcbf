/-
  ChainQuery.Sample — one well-formed reply to every command, to start a search for
  malformed ones from.

  A sample file holds the command's position in the catalogue as one byte, then the
  reply. Its name is the command's with the dot made an underscore.
-/

import ChainQuery.Reply

namespace ChainQuery.Sample

def point (fill : UInt8) (index : UInt32) : OutPoint := ⟨FixedBytes.replicate 32 fill, index⟩

def transaction : Transaction :=
  { version := 1
    lockTime := 0
    inputs := ⟨[{
      previousOutput := point 0x11 0
      scriptSig := ⟨[0x51], by decide⟩
      sequence := 0xffffffff
      witness := Counted.empty }], by decide⟩
    outputs := ⟨[{ value := 50000, scriptPubkey := ⟨[0x76, 0xa9], by decide⟩ }], by decide⟩ }

def header : Header :=
  { version := 1
    previousBlock := FixedBytes.replicate 32 0x22
    merkleRoot := FixedBytes.replicate 32 0x33
    time := 1231006505
    bits := 0x1d00ffff
    nonce := 2083236893 }

def height : UInt32 := 840000

/-- An output and the spend of it. -/
def compactHistory : List CompactRow :=
  let output := point 0x77 1
  [⟨output, 100, .output 25000⟩, ⟨point 0x88 0, 101, .spend output.checksum⟩]

def stealthRow : CompactStealthRow :=
  { ephemeralKeyHash := FixedBytes.replicate 32 0x44
    publicKeyHash := FixedBytes.replicate 20 0x55
    transactionHash := FixedBytes.replicate 32 0x66 }

def reply : Command → Bytes
  | .broadcastTransaction | .addressSubscribe => []
  | .validateTransaction => Bytes.u32 0 ++ Bytes.u32 1
  | .poolFetchTransaction | .fetchTransaction => transaction.encode
  | .fetchLastHeight => Bytes.u32 height
  | .fetchBlockHeader => header.encode
  | .fetchTransactionIndex => Bytes.u32 height ++ Bytes.u32 12
  | .fetchStealth => stealthRow.encode
  | .fetchHistory | .addressFetchHistory2 => CompactRow.encodeAll compactHistory
  | .addressFetchHistory => ExpandedRow.encode (HistoryRow.unspent (point 0x77 1) 100 25000)
  | .addressRenew => Bytes.u32 0
  | .addressUpdate => 0 :: List.replicate 20 0x99 ++ Bytes.u32 height ++ List.replicate 32 0xaa
  | .addressStealthUpdate => [0xde, 0xad, 0xbe, 0xef] ++ Bytes.u32 height ++ List.replicate 32 0xaa

def fileName (c : Command) : String :=
  String.ofList (c.name.toList.map fun x => if x = '.' then '_' else x) ++ ".bin"

def files : List (String × Bytes) :=
  Command.all.map fun c => (fileName c, UInt8.ofNat c.position :: reply c)

end ChainQuery.Sample
