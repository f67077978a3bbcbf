/-
  ChainQuery.Proofs.Reply.Fixed — replies of one width.

  Eight commands are answered with fields of known widths and nothing else
  (`Command.fixedWidths?`). Such a reply is read if and only if it has exactly their sum of
  bytes, and every field is the value of its own bytes (`Reply.SpelledBy`): a number least
  significant byte first, a hash as it stands, and the hash of an address update turned
  around. A reply that is too long is refused by the number of bytes too many, one that is too
  short at the first field that is not all there; a header is one value of the chain, which
  ends too early. What is read is written back as the payload, so no two payloads are the same
  reply.

  Proved:
  - `spelled` (for each layout): a payload of its width is the written form of a value exactly
    when each field of the value is told by its own bytes.
  - `FixedReply.of_reader`: a reply is fixed by its reader's width and its values' written form.
  - `Reply.fixed_reply`: each of the eight replies is fixed, and an address update is of the
    one address whose history request starts with the same bytes.
-/

import ChainQuery.Proofs.Notification
import ChainQuery.Proofs.Payload.Spans
import ChainQuery.Reply
import ChainQuery.Request

namespace ChainQuery

/-! ## Fixed replies -/

/-- The widths of the fields of a reply that has nothing but such fields. A header counts as
    one field. -/
def Command.fixedWidths? : Command → Option (List Nat)
  | .broadcastTransaction => some []
  | .addressSubscribe => some []
  | .fetchLastHeight => some [4]
  | .addressRenew => some [4]
  | .fetchTransactionIndex => some [4, 4]
  | .fetchBlockHeader => some [80]
  | .addressUpdate => some [1, 20, 4, 32]
  | .addressStealthUpdate => some [4, 4, 32]
  | _ => none

open Bytes in
/-- Each field of the reply is the value of its own bytes. -/
def Reply.SpelledBy (payload : Bytes) : Command → Reply → Prop
  | .broadcastTransaction, .empty => True
  | .addressSubscribe, .empty => True
  | .fetchLastHeight, .height n => n.toNat = ofLE (payload.field 0 4)
  | .addressRenew, .resultCode n => n.toNat = ofLE (payload.field 0 4)
  | .fetchTransactionIndex, .transactionIndex i =>
    i.height.toNat = ofLE (payload.field 0 4) ∧ i.index.toNat = ofLE (payload.field 4 4)
  | .fetchBlockHeader, .blockHeader h =>
    h.version.toUInt32.toNat = ofLE (payload.field 0 4) ∧ h.previousBlock.1 = payload.field 4 32 ∧
      h.merkleRoot.1 = payload.field 36 32 ∧ h.time.toNat = ofLE (payload.field 68 4) ∧
      h.bits.toNat = ofLE (payload.field 72 4) ∧ h.nonce.toNat = ofLE (payload.field 76 4)
  | .addressUpdate, .notification (.address u) =>
    [u.address.version] = payload.field 0 1 ∧ u.address.hash.1 = (payload.field 1 20).reverse ∧
      u.height.toNat = ofLE (payload.field 21 4) ∧ u.blockHash.1 = payload.field 25 32
  | .addressStealthUpdate, .notification (.stealth u) =>
    u.leading.1 = payload.field 0 4 ∧ u.height.toNat = ofLE (payload.field 4 4) ∧ u.blockHash.1 = payload.field 8 32
  | _, _ => False

/-- The replies to `c` have exactly these fields, and say everything their bytes do. -/
structure FixedReply (c : Command) (widths : List Nat) : Prop where
  accepts_iff : ∀ payload, (∃ reply, (Reply.decode c payload).value = .ok reply) ↔ payload.length = widths.sum
  eq_ok_iff : ∀ payload reply, (Reply.decode c payload).value = .ok reply ↔
    payload.length = widths.sum ∧ reply.SpelledBy payload c
  injective : ∀ payload payload' reply, (Reply.decode c payload).value = .ok reply →
    (Reply.decode c payload').value = .ok reply → payload = payload'
  long : ∀ payload, widths.sum < payload.length →
    (Reply.decode c payload).value = .error (.trailingBytes (payload.length - widths.sum))
  short : ∀ payload, payload.length < widths.sum → c ≠ .fetchBlockHeader →
    ∃ needed remaining, (Reply.decode c payload).value = .error (.truncated needed remaining) ∧
      BreaksOff widths payload.length needed remaining
  short_header : ∀ payload, payload.length < widths.sum → c = .fetchBlockHeader →
    (Reply.decode c payload).value = .error (.consensus .endOfInput)

section

variable {α : Type} {r : Reader α} {c : Command} {widths : List Nat} {encode : α → Bytes} {f : α → Reply}

/-- A reply is fixed when its reader gives values of one width and the reply says as much as
    the value. -/
theorem FixedReply.of_reader (hdecode : ∀ payload, (Reply.decode c payload).value = (r.whole payload).map f)
    (hspans : r.Spans widths.sum fun n e => if c = .fetchBlockHeader then e = .consensus .endOfInput
      else DecodeError.IsBreak widths n e)
    (hwritten : r.Decodes encode fun _ => True) (hf : ∀ a b, f a = f b → a = b)
    (hspelled : ∀ payload a, payload.length = widths.sum → (payload = encode a ↔ (f a).SpelledBy payload c))
    (hmade : ∀ payload reply, Reply.SpelledBy payload c reply → ∃ a, f a = reply) : FixedReply c widths := by
  have hread : ∀ payload a, r.whole payload = .ok a ↔ payload = encode a := by
    intro payload a
    rw [Reader.whole_eq_ok_iff, hwritten, List.append_nil]
    exact and_iff_left trivial
  have haccepts : ∀ payload, (∃ reply, (Reply.decode c payload).value = .ok reply) ↔ payload.length = widths.sum := by
    intro payload
    rw [hdecode, Except.exists_map_iff, Reader.exists_whole_iff hspans]
  constructor
  · exact haccepts
  · intro payload reply
    constructor
    · intro h
      have hlen := (haccepts payload).mp ⟨reply, h⟩
      rw [hdecode] at h
      obtain ⟨a, ha, rfl⟩ := Except.map_eq_ok_iff.mp h
      exact ⟨hlen, (hspelled payload a hlen).mp ((hread payload a).mp ha)⟩
    · intro ⟨hlen, h⟩
      obtain ⟨a, rfl⟩ := hmade payload reply h
      rw [hdecode, (hread payload a).mpr ((hspelled payload a hlen).mpr h)]
      rfl
  · intro payload payload' reply h h'
    rw [hdecode] at h h'
    obtain ⟨a, ha, rfl⟩ := Except.map_eq_ok_iff.mp h
    obtain ⟨b, hb, hfb⟩ := Except.map_eq_ok_iff.mp h'
    obtain rfl := hf b a hfb
    rw [(hread payload b).mp ha, (hread payload' b).mp hb]
  · intro payload hlong
    rw [hdecode, Reader.whole_of_long hspans hlong]
    rfl
  · intro payload hshort hc
    obtain ⟨e, he, hwhole⟩ := Reader.whole_of_short hspans hshort
    rw [if_neg hc] at he
    obtain ⟨needed, remaining, rfl, hoff⟩ := he
    refine ⟨needed, remaining, ?_, hoff⟩
    rw [hdecode, hwhole]
    rfl
  · intro payload hshort hc
    obtain ⟨e, he, hwhole⟩ := Reader.whole_of_short hspans hshort
    rw [if_pos hc] at he
    rw [hdecode, hwhole, he]
    rfl

/-- A reader of plain fields stops where they break off. -/
theorem FixedReply.of_fields (hc : c ≠ .fetchBlockHeader)
    (hdecode : ∀ payload, (Reply.decode c payload).value = (r.whole payload).map f)
    (hfollows : r.Follows (widths.map Cell.plain)) (hwritten : r.Decodes encode fun _ => True)
    (hf : ∀ a b, f a = f b → a = b)
    (hspelled : ∀ payload a, payload.length = widths.sum → (payload = encode a ↔ (f a).SpelledBy payload c))
    (hmade : ∀ payload reply, Reply.SpelledBy payload c reply → ∃ a, f a = reply) : FixedReply c widths := by
  refine FixedReply.of_reader hdecode ?_ hwritten hf hspelled hmade
  simp only [if_neg hc]
  exact hfollows.spans

end

/-! ## The layouts -/

section

open Bytes Reader

theorem u32_spelled {payload : Bytes} (hlen : payload.length = 4) (n : UInt32) :
    payload = u32 n ↔ n.toNat = ofLE (payload.field 0 4) := by
  have hall : payload.field 0 4 = payload := by rw [field, List.drop_zero, ← hlen, List.take_length]
  rw [hall, eq_comm, u32_eq_iff hlen]

theorem Header.spelled {payload : Bytes} (hlen : payload.length = 80) (h : Header) :
    payload = h.encode ↔ (Reply.blockHeader h).SpelledBy payload .fetchBlockHeader := by
  have hfields : h.encode = u32 h.version.toUInt32 ++ (h.previousBlock.1 ++ (h.merkleRoot.1 ++
      (u32 h.time ++ (u32 h.bits ++ (u32 h.nonce ++ []))))) := by simp [Header.encode, i32]
  have hend : payload.length ≤ 80 := Nat.le_of_eq hlen
  rw [hfields, ← List.drop_zero (l := payload)]
  simp (disch := omega) only [drop_eq_u32_append_iff, drop_eq_fixed_append_iff, List.drop_eq_nil_iff, hend, and_true]
  exact Iff.rfl

def TransactionIndex.encode (i : TransactionIndex) : Bytes := u32 i.height ++ u32 i.index

theorem TransactionIndex.decodes_index :
    Reader.Decodes (do
      let height ← Reader.u32
      let index ← Reader.u32
      return { height, index }) TransactionIndex.encode fun _ => True := by
  refine Decodes.congr (decodes_u32.field height fun n => decodes_u32.field index fun m => decodes_pure fun i => ?_)
    fun i => ?_
  · cases i
    simp
  · simp [encode]

theorem TransactionIndex.spelled {payload : Bytes} (hlen : payload.length = 8) (i : TransactionIndex) :
    payload = i.encode ↔ (Reply.transactionIndex i).SpelledBy payload .fetchTransactionIndex := by
  have hfields : i.encode = u32 i.height ++ (u32 i.index ++ []) := by simp [TransactionIndex.encode]
  have hend : payload.length ≤ 8 := Nat.le_of_eq hlen
  rw [hfields, ← List.drop_zero (l := payload)]
  simp (disch := omega) only [drop_eq_u32_append_iff, List.drop_eq_nil_iff, hend, and_true]
  exact Iff.rfl

theorem AddressUpdate.spelled {payload : Bytes} (hlen : payload.length = 57) (u : AddressUpdate) :
    payload = u.encode ↔ (Reply.notification (.address u)).SpelledBy payload .addressUpdate := by
  have hfields : u.encode = u.address.version :: (u.address.wireHash.1 ++ (u32 u.height ++ (u.blockHash.1 ++ []))) := by
    simp [AddressUpdate.encode]
  have hhash : ∀ bs, u.address.wireHash.1 = bs ↔ u.address.hash.1 = bs.reverse := fun bs => List.reverse_eq_iff
  have hend : payload.length ≤ 57 := Nat.le_of_eq hlen
  rw [hfields, ← List.drop_zero (l := payload)]
  simp (disch := omega) only [drop_eq_cons_iff, drop_eq_u32_append_iff, drop_eq_fixed_append_iff,
    List.drop_eq_nil_iff, hend, and_true, hhash]
  exact Iff.rfl

theorem StealthUpdate.spelled {payload : Bytes} (hlen : payload.length = 40) (u : StealthUpdate) :
    payload = u.encode ↔ (Reply.notification (.stealth u)).SpelledBy payload .addressStealthUpdate := by
  have hfields : u.encode = u.leading.1 ++ (u32 u.height ++ (u.blockHash.1 ++ [])) := by simp [StealthUpdate.encode]
  have hend : payload.length ≤ 40 := Nat.le_of_eq hlen
  rw [hfields, ← List.drop_zero (l := payload)]
  simp (disch := omega) only [drop_eq_u32_append_iff, drop_eq_fixed_append_iff, List.drop_eq_nil_iff, hend, and_true]
  exact Iff.rfl

end

namespace FixedReply

open Reader

theorem acknowledgement {c : Command} (hc : c ≠ .fetchBlockHeader)
    (hdecode : ∀ payload, (Reply.decode c payload).value = (Decode.acknowledgement payload).map fun _ => .empty)
    (hspelled : ∀ payload reply, Reply.SpelledBy payload c reply ↔ reply = .empty) : FixedReply c [] := by
  refine of_fields hc hdecode (follows_pure ()) (decodes_pure fun _ => ?_) (fun _ _ _ => rfl) ?_ ?_
  · simp
  · intro payload _ hlen
    rw [hspelled]
    simpa using hlen
  · intro payload reply h
    exact ⟨(), ((hspelled payload reply).mp h).symm⟩

theorem number {c : Command} {f : UInt32 → Reply} (hc : c ≠ .fetchBlockHeader)
    (hdecode : ∀ payload, (Reply.decode c payload).value = (Decode.height payload).map f)
    (hf : ∀ n m, f n = f m → n = m)
    (hspelled : ∀ payload n, (f n).SpelledBy payload c ↔ n.toNat = Bytes.ofLE (payload.field 0 4))
    (hmade : ∀ payload reply, Reply.SpelledBy payload c reply → ∃ n, f n = reply) : FixedReply c [4] := by
  refine of_fields hc hdecode follows_u32 decodes_u32 hf ?_ hmade
  intro payload n hlen
  rw [hspelled, u32_spelled hlen]

theorem transactionIndex : FixedReply .fetchTransactionIndex [4, 4] := by
  refine of_fields (by decide) (f := .transactionIndex) (fun _ => rfl) ?_ TransactionIndex.decodes_index
    (fun _ _ => Reply.transactionIndex.inj) ?_ ?_
  · exact (follows_bind follows_u32 fun _ => follows_bind follows_u32 fun _ => follows_pure _).congr rfl
  · intro payload i hlen
    exact i.spelled hlen
  · intro payload reply h
    cases reply with
    | transactionIndex i => exact ⟨i, rfl⟩
    | _ => exact h.elim

theorem blockHeader : FixedReply .fetchBlockHeader [80] := by
  refine of_reader (f := .blockHeader) (fun _ => rfl) ?_ ((agrees_consensus _).decodes Header.decodes_header)
    (fun _ _ => Reply.blockHeader.inj) ?_ ?_
  · exact spans_consensus Header.spans_header
  · intro payload h hlen
    exact h.spelled hlen
  · intro payload reply h
    cases reply with
    | blockHeader header => exact ⟨header, rfl⟩
    | _ => exact h.elim

theorem addressUpdate : FixedReply .addressUpdate [1, 20, 4, 32] := by
  refine of_fields (by decide) (f := fun u => .notification (.address u)) (fun _ => rfl) AddressUpdate.follows_update
    AddressUpdate.decodes_update ?_ ?_ ?_
  · intro u v h
    exact Notification.address.inj (Reply.notification.inj h)
  · intro payload u hlen
    exact u.spelled hlen
  · intro payload reply h
    cases reply with
    | notification n =>
      cases n with
      | address u => exact ⟨u, rfl⟩
      | stealth u => exact h.elim
    | _ => exact h.elim

theorem stealthUpdate : FixedReply .addressStealthUpdate [4, 4, 32] := by
  refine of_fields (by decide) (f := fun u => .notification (.stealth u)) (fun _ => rfl) StealthUpdate.follows_update
    StealthUpdate.decodes_update ?_ ?_ ?_
  · intro u v h
    exact Notification.stealth.inj (Reply.notification.inj h)
  · intro payload u hlen
    exact u.spelled hlen
  · intro payload reply h
    cases reply with
    | notification n =>
      cases n with
      | stealth u => exact ⟨u, rfl⟩
      | address u => exact h.elim
    | _ => exact h.elim

end FixedReply

/-! ## The start of a history request -/

/-- An address as the start of a history request and of an update has it. -/
def Address.wireForm (a : Address) : Bytes := a.version :: a.wireHash.1

theorem Address.length_wireForm (a : Address) : a.wireForm.length = 21 := congrArg Nat.succ a.wireHash.2

theorem Address.wireForm_inj {a b : Address} (h : a.wireForm = b.wireForm) : a = b := by
  obtain ⟨hversion, hhash⟩ := List.cons.inj h
  have hreverse : a.hash.reverse.reverse = b.hash.reverse.reverse := congrArg FixedBytes.reverse (Subtype.ext hhash)
  rw [FixedBytes.reverse_reverse, FixedBytes.reverse_reverse] at hreverse
  cases a
  cases b
  rw [Address.mk.injEq]
  exact ⟨hversion, hreverse⟩

theorem Request.take_fetchHistory (a : Address) (fromHeight : UInt32) :
    (Request.fetchHistory a fromHeight).payload.take 21 = a.wireForm :=
  List.take_left' a.length_wireForm

theorem AddressUpdate.take_encode (u : AddressUpdate) : u.encode.take 21 = u.address.wireForm := by
  have hencode : u.encode = u.address.wireForm ++ (Bytes.u32 u.height ++ u.blockHash.1) := by
    simp [encode, Address.wireForm]
  rw [hencode, List.take_left' u.address.length_wireForm]

namespace Reply

theorem command_of_address {payload : Bytes} {c : Command} {u : AddressUpdate}
    (h : SpelledBy payload c (.notification (.address u))) : c = .addressUpdate := by
  cases c with
  | addressUpdate => rfl
  | _ => exact h.elim

/-- A reply of known widths is read exactly when it has all of its bytes and no more, every
    field from its own bytes, and the history request of the address an update is about
    starts as the update does. -/
theorem fixed_reply {c : Command} {widths : List Nat} (h : c.fixedWidths? = some widths) :
    FixedReply c widths ∧ ∀ payload u, (decode c payload).value = .ok (.notification (.address u)) →
      ∀ a fromHeight, (Request.fetchHistory a fromHeight).payload.take 21 = payload.take 21 ↔ a = u.address := by
  have hfixed : FixedReply c widths := by
    cases c with
    | broadcastTransaction | addressSubscribe =>
      cases h
      refine FixedReply.acknowledgement (by decide) (fun _ => rfl) ?_
      intro payload reply
      cases reply <;> simp [SpelledBy]
    | fetchLastHeight =>
      cases h
      refine FixedReply.number (f := height) (by decide) (fun _ => rfl) (fun _ _ => height.inj) (fun _ _ => Iff.rfl) ?_
      intro payload reply hreply
      cases reply with
      | height n => exact ⟨n, rfl⟩
      | _ => exact hreply.elim
    | addressRenew =>
      cases h
      refine FixedReply.number (f := resultCode) (by decide) (fun _ => rfl) (fun _ _ => resultCode.inj)
        (fun _ _ => Iff.rfl) ?_
      intro payload reply hreply
      cases reply with
      | resultCode n => exact ⟨n, rfl⟩
      | _ => exact hreply.elim
    | fetchTransactionIndex => cases h; exact FixedReply.transactionIndex
    | fetchBlockHeader => cases h; exact FixedReply.blockHeader
    | addressUpdate => cases h; exact FixedReply.addressUpdate
    | addressStealthUpdate => cases h; exact FixedReply.stealthUpdate
    | _ => cases h
  refine ⟨hfixed, ?_⟩
  intro payload u hu a fromHeight
  obtain ⟨hlen, hspelled⟩ := (hfixed.eq_ok_iff payload _).mp hu
  obtain rfl := command_of_address hspelled
  cases h
  rw [(u.spelled hlen).mpr hspelled, u.take_encode, Request.take_fetchHistory]
  constructor
  · exact Address.wireForm_inj
  · intro ha
    rw [ha]

/-- The address with the hash 1, 2, …, 20. -/
def touchedAddress : Address := ⟨0, [1, 2, 3, 4, 5, 6, 7, 8, 9, 10, 11, 12, 13, 14, 15, 16, 17, 18, 19, 20], rfl⟩

/-- Its update at height 10000. -/
def touchedPayload : Bytes :=
  [0, 20, 19, 18, 17, 16, 15, 14, 13, 12, 11, 10, 9, 8, 7, 6, 5, 4, 3, 2, 1, 16, 39, 0, 0] ++ List.replicate 32 90

/-- The update is read as a whole, and cut off after 22 bytes it lacks three bytes of its height. -/
theorem an_update_and_its_start :
    Command.addressUpdate.fixedWidths? = some [1, 20, 4, 32] ∧
      (decode .addressUpdate touchedPayload).value =
        .ok (.notification (.address ⟨touchedAddress, 10000, ⟨List.replicate 32 90, rfl⟩⟩)) ∧
      (∀ a fromHeight, (Request.fetchHistory a fromHeight).payload.take 21 = touchedPayload.take 21 ↔
        a = touchedAddress) ∧
      (decode .addressUpdate (touchedPayload ++ [0])).value = .error (.trailingBytes 1) ∧
      (decode .addressUpdate (touchedPayload.take 22)).value = .error (.truncated 4 1) := by
  have hwidths : Command.addressUpdate.fixedWidths? = some [1, 20, 4, 32] := rfl
  obtain ⟨hfixed, hstart⟩ := fixed_reply hwidths
  have hread := (hfixed.eq_ok_iff touchedPayload
    (.notification (.address ⟨touchedAddress, 10000, ⟨List.replicate 32 90, rfl⟩⟩))).mpr ⟨rfl, rfl, rfl, rfl, rfl⟩
  obtain ⟨needed, remaining, hshort, hoff⟩ := hfixed.short (touchedPayload.take 22) (by decide) (by decide)
  have hbreak : needed = 4 ∧ remaining = 1 := by
    simpa [touchedPayload, breaksOff_cons, breaksOff_nil] using hoff
  obtain ⟨rfl, rfl⟩ := hbreak
  exact ⟨hwidths, hread, hstart touchedPayload _ hread, hfixed.long (touchedPayload ++ [0]) (by decide), hshort⟩

end Reply

end ChainQuery
