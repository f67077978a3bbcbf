/-
  ChainQuery.Proofs.Request.Server — requests as the server reads them.

  The server knows a request by its command's name and reads the payload by the layout of
  that command, down to the last byte (`Server.parse`). What it makes of the request is
  the call it came from: the same arguments, with the address hash turned round again
  where the command sends it reversed, and the prefix rebuilt from its bit count and its
  blocks. A subscription to an address reads as what it is on the wire, the subscription
  to the prefix of the address's whole hash (`Call.canonical`).

  Proved:
  - `run_request`: the request of a call is read as the call, and no byte is left.
  - `request_injective`: requests of one command with one payload are of one call, be the
    transactions in them as large as they may.
  - `requests_read_back`: both for every call, with the prefix of a subscription.
-/

import ChainQuery.Proofs.Prefix
import ChainQuery.Proofs.Transaction.RoundTrip
import ChainQuery.Session

namespace ChainQuery

/-! ## Requests with a prefix -/

namespace Request

theorem fetchStealth_eq (p : Prefix) (fromHeight : UInt32) :
    fetchStealth p fromHeight = p.encode.map fun bs => ⟨.fetchStealth, bs ++ Bytes.u32 fromHeight⟩ := by
  unfold fetchStealth
  cases p.encode <;> rfl

theorem subscribe_eq (kind : SubscribeKind) (p : Prefix) :
    subscribe kind p = p.encode.map fun bs => ⟨.addressSubscribe, kind.code :: bs⟩ := by
  unfold subscribe subscription
  cases p.encode <;> rfl

theorem renew_eq (kind : SubscribeKind) (p : Prefix) :
    renew kind p = p.encode.map fun bs => ⟨.addressRenew, kind.code :: bs⟩ := by
  unfold renew subscription
  cases p.encode <;> rfl

theorem sizeByte_hashPrefix (a : Address) : sizeByte a.hashPrefix = 160 := rfl

/-- The prefix of an address fits, and has the address's hash as its blocks. -/
theorem subscribe_hashPrefix (a : Address) : subscribe .address a.hashPrefix = .ok (subscribeAddress a) := by
  have hencode : a.hashPrefix.encode = .ok (160 :: a.hashPrefix.blocks) := rfl
  rw [subscribe_eq, hencode, subscribeAddress, sizeByte_hashPrefix]
  rfl

end Request

/-! ## The server -/

namespace Server

/-- A bit count and the bytes that hold as many bits. -/
def prefixBits : Reader Prefix := do
  let bits ← Reader.u8
  let blocks ← Reader.fixed ((bits.toNat + 7) / 8)
  return Prefix.ofBytes bits.toUInt64 blocks.1

/-- Four bytes are a height, and thirty-two a hash. -/
def locator : Reader HeaderLocator := fun payload =>
  if payload.length = 4 then Reader.run (do return .height (← Reader.u32)) payload
  else Reader.run (do return .hash (← Reader.fixed 32)) payload

/-- The hash is reversed on the wire, except for the variant that keeps it. -/
def historyAddress (v : HistoryVariant) (version : UInt8) (hash : ShortHash) : Address :=
  match v with
  | .canonical => ⟨version, hash⟩
  | .current | .expanded => ⟨version, hash.reverse⟩

def history (v : HistoryVariant) : Reader Call := do
  let version ← Reader.u8
  let hash ← Reader.fixed 20
  let fromHeight ← Reader.u32
  return .fetchHistory v (historyAddress v version hash) fromHeight

def search : Reader Call := do
  let p ← prefixBits
  let fromHeight ← Reader.u32
  return .fetchStealth p fromHeight

def kindOf? (code : UInt8) : Option SubscribeKind := SubscribeKind.all.find? (·.code = code)

/-- No call, if the kind is unknown. -/
def subscription (call : SubscribeKind → Prefix → Call) : Reader (Option Call) := do
  let kind ← Reader.u8
  let p ← prefixBits
  return (kindOf? kind).map fun kind => call kind p

/-- A request by the layout of its command; a push is never requested. -/
def request : Command → Reader (Option Call)
  | .broadcastTransaction => do return some (.broadcastTransaction (← Reader.consensus Transaction.decode))
  | .validateTransaction => do return some (.validateTransaction (← Reader.consensus Transaction.decode))
  | .poolFetchTransaction => do return some (.poolFetchTransaction (← Reader.fixed 32))
  | .fetchTransaction => do return some (.fetchTransaction (← Reader.fixed 32))
  | .fetchLastHeight => pure (some .fetchLastHeight)
  | .fetchBlockHeader => do return some (.fetchBlockHeader (← locator))
  | .fetchTransactionIndex => do return some (.fetchTransactionIndex (← Reader.fixed 32))
  | .fetchStealth => do return some (← search)
  | .fetchHistory => do return some (← history .current)
  | .addressFetchHistory => do return some (← history .expanded)
  | .addressFetchHistory2 => do return some (← history .canonical)
  | .addressSubscribe => subscription .subscribe
  | .addressRenew => subscription .renew
  | .addressUpdate | .addressStealthUpdate => pure none

/-- The call of a request that its layout uses up. -/
def parse (name : String) (payload : Bytes) : Option Call :=
  match Command.ofName name with
  | .error _ => none
  | .ok c =>
    match (request c).run payload with
    | (.ok call, []) => call
    | _ => none

end Server

theorem Command.ofName_name (c : Command) : Command.ofName c.name = .ok c := by
  cases c <;> rfl

/-! ## What the server makes of a call -/

namespace Call

/-- The call as its request tells it: subscribing to an address is subscribing to the
    prefix of its whole hash. -/
def canonical : Call → Call
  | .subscribeAddress a => .subscribe .address a.hashPrefix
  | c => c

/-- The command under which a call is sent. -/
def command : Call → Command
  | .broadcastTransaction _ => .broadcastTransaction
  | .validateTransaction _ => .validateTransaction
  | .poolFetchTransaction _ => .poolFetchTransaction
  | .fetchTransaction _ => .fetchTransaction
  | .fetchLastHeight => .fetchLastHeight
  | .fetchBlockHeader _ => .fetchBlockHeader
  | .fetchTransactionIndex _ => .fetchTransactionIndex
  | .fetchStealth .. => .fetchStealth
  | .fetchHistory v .. => v.command
  | .subscribe .. | .subscribeAddress _ => .addressSubscribe
  | .renew .. => .addressRenew

/-- Whether the transaction of the call, if it has one, is within the limits of decoding. -/
def WitnessesFit : Call → Prop
  | .broadcastTransaction tx | .validateTransaction tx => tx.WitnessesFit
  | _ => True

end Call

namespace Server

theorem reads_prefixBits {p : Prefix} {bs : Bytes} (h : p.encode = .ok bs) : prefixBits.Reads bs p := by
  obtain ⟨hle, rfl⟩ := Prefix.encode_eq_ok_iff.mp h
  have hbyte : p.bits.toUInt8.toNat = p.bits.toNat := by
    rw [← UInt8.toNat_toUInt64, Prefix.toUInt64_bits hle]
  have hlen : p.blocks.length = (p.bits.toUInt8.toNat + 7) / 8 := by
    rw [hbyte, Prefix.length_blocks hle]
  have hrebuilt : Prefix.ofBytes p.bits.toUInt8.toUInt64 p.blocks = p := Prefix.ofBytes_of_encode h
  have hblocks := Reader.reads_bind_pure (f := fun blocks => Prefix.ofBytes p.bits.toUInt8.toUInt64 blocks.1)
    (Reader.reads_fixed ⟨p.blocks, hlen⟩)
  rw [hrebuilt] at hblocks
  show prefixBits.Reads ([p.bits.toUInt8] ++ p.blocks) p
  exact Reader.reads_bind (Reader.reads_u8 _) hblocks

theorem run_locator (l : HeaderLocator) : locator.run l.encode = (.ok l, []) := by
  cases l with
  | height n =>
    have hlen : (HeaderLocator.height n).encode.length = 4 := Bytes.length_toLE _ _
    have hread := (Reader.reads_bind_pure (f := HeaderLocator.height) (Reader.reads_u32 n)) []
    rw [List.append_nil] at hread
    show locator (HeaderLocator.height n).encode = _
    rw [locator, if_pos hlen]
    exact hread
  | hash h =>
    have hlen : ¬ (HeaderLocator.hash h).encode.length = 4 := by
      show ¬ h.1.length = 4
      rw [h.2]
      decide
    have hread := (Reader.reads_bind_pure (f := HeaderLocator.hash) (Reader.reads_fixed h)) []
    rw [List.append_nil] at hread
    show locator (HeaderLocator.hash h).encode = _
    rw [locator, if_neg hlen]
    exact hread

theorem reads_history (v : HistoryVariant) (version : UInt8) (hash : ShortHash) (fromHeight : UInt32) :
    (history v).Reads (Request.historyPayload version hash fromHeight)
      (.fetchHistory v (historyAddress v version hash) fromHeight) := by
  show (history v).Reads ([version] ++ (hash.1 ++ Bytes.u32 fromHeight)) _
  exact Reader.reads_bind (Reader.reads_u8 version) (Reader.reads_bind (Reader.reads_fixed hash)
    (Reader.reads_bind_pure (Reader.reads_u32 fromHeight)))

theorem reads_search {p : Prefix} {bs : Bytes} (h : p.encode = .ok bs) (fromHeight : UInt32) :
    search.Reads (bs ++ Bytes.u32 fromHeight) (.fetchStealth p fromHeight) :=
  Reader.reads_bind (reads_prefixBits h) (Reader.reads_bind_pure (Reader.reads_u32 fromHeight))

theorem kindOf?_code (kind : SubscribeKind) : kindOf? kind.code = some kind := by
  cases kind <;> rfl

theorem reads_subscription (call : SubscribeKind → Prefix → Call) (kind : SubscribeKind) {p : Prefix} {bs : Bytes}
    (h : p.encode = .ok bs) : (subscription call).Reads (kind.code :: bs) (some (call kind p)) := by
  have hprefix := Reader.reads_bind_pure (f := fun p => (kindOf? kind.code).map fun kind => call kind p)
    (reads_prefixBits h)
  rw [kindOf?_code] at hprefix
  show (subscription call).Reads ([kind.code] ++ bs) _
  refine Reader.reads_bind (Reader.reads_u8 _) ?_
  rw [kindOf?_code]
  exact hprefix

theorem parse_of_run {c : Command} {payload : Bytes} {call : Call}
    (h : (request c).run payload = (.ok (some call), [])) : parse c.name payload = some call := by
  rw [parse, Command.ofName_name]
  simp only [h]

end Server

/-! ## Every call -/

namespace Call

theorem command_of_request {c : Call} {r : Request} (h : c.request = .ok r) : r.command = c.command := by
  cases c with
  | fetchStealth p fromHeight =>
    rw [request, Request.fetchStealth_eq] at h
    obtain ⟨bs, -, rfl⟩ := Except.map_eq_ok_iff.mp h
    rfl
  | fetchHistory v a fromHeight => cases v <;> cases h <;> rfl
  | subscribe kind p =>
    rw [request, Request.subscribe_eq] at h
    obtain ⟨bs, -, rfl⟩ := Except.map_eq_ok_iff.mp h
    rfl
  | renew kind p =>
    rw [request, Request.renew_eq] at h
    obtain ⟨bs, -, rfl⟩ := Except.map_eq_ok_iff.mp h
    rfl
  | _ => cases h; rfl

/-- The server reads a request as the call it is of, to the last byte. -/
theorem run_request {c : Call} {r : Request} (h : c.request = .ok r) (hfit : c.WitnessesFit) :
    (Server.request r.command).run r.payload = (.ok (some c.canonical), []) := by
  cases c with
  | broadcastTransaction tx =>
    cases h
    exact Reader.run_of_reads (Reader.reads_bind_pure (Transaction.reads_transaction hfit))
  | validateTransaction tx =>
    cases h
    exact Reader.run_of_reads (Reader.reads_bind_pure (Transaction.reads_transaction hfit))
  | poolFetchTransaction hash =>
    cases h
    exact Reader.run_of_reads (Reader.reads_bind_pure (Reader.reads_fixed hash))
  | fetchTransaction hash =>
    cases h
    exact Reader.run_of_reads (Reader.reads_bind_pure (Reader.reads_fixed hash))
  | fetchLastHeight =>
    cases h
    rfl
  | fetchBlockHeader l =>
    cases h
    exact Reader.bind_of_ok (Server.run_locator l)
  | fetchTransactionIndex hash =>
    cases h
    exact Reader.run_of_reads (Reader.reads_bind_pure (Reader.reads_fixed hash))
  | fetchStealth p fromHeight =>
    rw [request, Request.fetchStealth_eq] at h
    obtain ⟨bs, hp, rfl⟩ := Except.map_eq_ok_iff.mp h
    exact Reader.run_of_reads (Reader.reads_bind_pure (Server.reads_search hp fromHeight))
  | fetchHistory v a fromHeight =>
    have hback : a.wireHash.reverse = a.hash := FixedBytes.reverse_reverse a.hash
    cases v with
    | current =>
      cases h
      have := Server.reads_history .current a.version a.wireHash fromHeight
      rw [Server.historyAddress, hback] at this
      exact Reader.run_of_reads (Reader.reads_bind_pure this)
    | expanded =>
      cases h
      have := Server.reads_history .expanded a.version a.wireHash fromHeight
      rw [Server.historyAddress, hback] at this
      exact Reader.run_of_reads (Reader.reads_bind_pure this)
    | canonical =>
      cases h
      exact Reader.run_of_reads (Reader.reads_bind_pure
        (Server.reads_history .canonical a.version a.hash fromHeight))
  | subscribe kind p =>
    rw [request, Request.subscribe_eq] at h
    obtain ⟨bs, hp, rfl⟩ := Except.map_eq_ok_iff.mp h
    exact Reader.run_of_reads (Server.reads_subscription .subscribe kind hp)
  | subscribeAddress a =>
    have hr : Request.subscribe .address a.hashPrefix = .ok r := h
    rw [Request.subscribe_eq] at hr
    obtain ⟨bs, hp, rfl⟩ := Except.map_eq_ok_iff.mp hr
    exact Reader.run_of_reads (Server.reads_subscription .subscribe .address hp)
  | renew kind p =>
    rw [request, Request.renew_eq] at h
    obtain ⟨bs, hp, rfl⟩ := Except.map_eq_ok_iff.mp h
    exact Reader.run_of_reads (Server.reads_subscription .renew kind hp)

theorem eq_broadcastTransaction {c : Call} (h : c.command = .broadcastTransaction) :
    ∃ tx, c = .broadcastTransaction tx := by
  cases c with
  | broadcastTransaction tx => exact ⟨tx, rfl⟩
  | fetchHistory v a fromHeight => cases v <;> cases h
  | _ => cases h

theorem eq_validateTransaction {c : Call} (h : c.command = .validateTransaction) :
    ∃ tx, c = .validateTransaction tx := by
  cases c with
  | validateTransaction tx => exact ⟨tx, rfl⟩
  | fetchHistory v a fromHeight => cases v <;> cases h
  | _ => cases h

theorem witnessesFit_of_command {c : Call} (hb : c.command ≠ .broadcastTransaction)
    (hv : c.command ≠ .validateTransaction) : c.WitnessesFit := by
  cases c with
  | broadcastTransaction tx => exact absurd rfl hb
  | validateTransaction tx => exact absurd rfl hv
  | _ => trivial

/-- Transactions past the limit, which no server reads, are told apart by their encoding. -/
theorem request_injective {c c' : Call} {r r' : Request} (h : c.request = .ok r) (h' : c'.request = .ok r')
    (hcommand : r'.command = r.command) (hpayload : r'.payload = r.payload) : c'.canonical = c.canonical := by
  have hc := command_of_request h
  have hc' := command_of_request h'
  rw [hcommand, hc] at hc'
  by_cases hb : c.command = .broadcastTransaction
  · obtain ⟨tx, rfl⟩ := eq_broadcastTransaction hb
    obtain ⟨tx', rfl⟩ := eq_broadcastTransaction (hc'.symm.trans hb)
    cases h
    cases h'
    rw [Transaction.encode_injective hpayload]
  by_cases hv : c.command = .validateTransaction
  · obtain ⟨tx, rfl⟩ := eq_validateTransaction hv
    obtain ⟨tx', rfl⟩ := eq_validateTransaction (hc'.symm.trans hv)
    cases h
    cases h'
    rw [Transaction.encode_injective hpayload]
  · have hread := run_request h (witnessesFit_of_command hb hv)
    have hread' := run_request h' (witnessesFit_of_command (hc' ▸ hb) (hc' ▸ hv))
    rw [hcommand, hpayload, hread, Prod.mk.injEq, Except.ok.injEq, Option.some.injEq] at hread'
    exact hread'.1.symm

end Call

/-- By the name of its command every request reads back as its call, to the last byte, so
    requests of one command with one payload are of one call; the prefix in it is rebuilt
    from its bit count and its blocks, and a subscription to an address is byte for byte
    the subscription to its prefix. -/
theorem requests_read_back :
    (∀ (c : Call) r, c.request = .ok r → c.WitnessesFit → Server.parse r.command.name r.payload = some c.canonical) ∧
    (∀ (c c' : Call) r r', c.request = .ok r → c'.request = .ok r' → r'.command = r.command →
      r'.payload = r.payload → c'.canonical = c.canonical) ∧
    (∀ p : Prefix, p.bits ≤ 255 →
      p.encode = .ok (p.bits.toUInt8 :: p.blocks) ∧ Prefix.ofBytes p.bits.toUInt8.toUInt64 p.blocks = p) ∧
    ∀ a, Request.subscribe .address a.hashPrefix = .ok (Request.subscribeAddress a) := by
  refine ⟨?_, ?_, ?_, Request.subscribe_hashPrefix⟩
  · intro c r h hfit
    exact Server.parse_of_run (Call.run_request h hfit)
  · intro c c' r r' h h' hcommand hpayload
    exact Call.request_injective h h' hcommand hpayload
  · intro p h
    have hencode := Prefix.encode_eq_ok_iff.mpr ⟨h, rfl⟩
    exact ⟨hencode, Prefix.ofBytes_of_encode hencode⟩

/-- A search by twelve bits from height 500. -/
theorem search_reads_back :
    Server.parse "blockchain.fetch_stealth" [12, 0xab, 0xc0, 0xf4, 0x01, 0x00, 0x00] =
      some (.fetchStealth (Prefix.ofBytes 12 [0xab, 0xcd]) 500) :=
  requests_read_back.1 (.fetchStealth (Prefix.ofBytes 12 [0xab, 0xcd]) 500)
    ⟨.fetchStealth, [12, 0xab, 0xc0, 0xf4, 0x01, 0x00, 0x00]⟩ rfl trivial

end ChainQuery
