/-
  ChainQuery.Proofs.Stealth — the rows of a stealth search, exactly.

  A row is eighty-four bytes whatever they are, so the length of a payload says whether it
  is rows, and where it breaks off if it is not. The i-th row is the i-th block of the
  payload (`eq_flatMap_iff`): its key with the sign byte in front, its public-key hash
  backwards, its transaction hash as it stands.

  Nothing of a block is lost on the way: dropping the sign byte and turning the hash round
  again (`StealthRow.compact`) gives the row as it was sent, so the rows of a payload say
  what the payload was.

  Proved:
  - `follows_stealth`: the reader of a row follows its layout.
  - `decodeAll_eq_ok_iff`: a payload has the rows that are written as it once the expansion
    is undone, and only those with the sign byte.
  - `stealth_rows_exact`: which payloads are rows, which rows they are, block by block, and
    what is wrong with every other payload.
-/

import ChainQuery.Proofs.Payload.Layout
import ChainQuery.Proofs.Reply.Rows

namespace ChainQuery

open Reader

/-! ## Undoing the expansion -/

namespace FixedBytes

variable {n : Nat}

def tail (bs : FixedBytes (n + 1)) : FixedBytes n := ⟨bs.1.tail, by rw [List.length_tail, bs.2]; rfl⟩

theorem cons_tail_iff {bs : FixedBytes (n + 1)} {b : UInt8} : bs.tail.cons b = bs ↔ bs.1.head? = some b := by
  obtain ⟨bytes, hlen⟩ := bs
  cases bytes with
  | nil => cases hlen
  | cons c bytes => simp [tail, cons, Subtype.ext_iff, eq_comm]

end FixedBytes

namespace StealthRow

/-- The row as it is sent: without the sign byte, and the hash backwards. -/
def compact (row : StealthRow) : CompactStealthRow :=
  { ephemeralKeyHash := row.ephemeralPublicKey.tail
    publicKeyHash := row.publicKeyHash.reverse
    transactionHash := row.transactionHash }

theorem compact_expand (r : CompactStealthRow) : r.expand.compact = r := by
  cases r
  simp only [CompactStealthRow.expand, compact, FixedBytes.reverse_reverse]
  rfl

theorem expand_compact_iff {row : StealthRow} :
    row.compact.expand = row ↔ row.ephemeralPublicKey.1.head? = some ephemeralKeySign := by
  cases row
  simp [CompactStealthRow.expand, compact, FixedBytes.cons_tail_iff]

end StealthRow

/-! ## Payloads -/

namespace CompactStealthRow

def layout : Layout := [.plain 32, .plain 20, .plain 32]

theorem follows_stealth : read.Follows layout :=
  (follows_bind (follows_fixed 32) fun _ => follows_bind (follows_fixed 20) fun _ =>
    follows_bind (follows_fixed 32) fun _ => follows_pure _).congr rfl

theorem all_eq_ok_iff {payload : Bytes} {rows : List CompactStealthRow} :
    reader.all payload = .ok rows ↔ payload = encodeAll rows :=
  (reader.all_eq_ok_iff decodes_stealth).trans (and_iff_left fun _ _ => trivial)

end CompactStealthRow

namespace StealthRow

open CompactStealthRow

theorem decodeAll_eq_ok_iff {payload : Bytes} {rows : List StealthRow} :
    decodeAll payload = .ok rows ↔ payload = encodeAll (rows.map compact) ∧
      ∀ row ∈ rows, row.ephemeralPublicKey.1.head? = some ephemeralKeySign := by
  rw [decodeAll, Except.map_eq_ok_iff]
  constructor
  · intro ⟨sent, hsent, hrows⟩
    subst hrows
    refine ⟨?_, ?_⟩
    · rw [List.map_map, all_eq_ok_iff.mp hsent]
      exact congrArg encodeAll (List.map_id'' compact_expand sent).symm
    · intro row hrow
      obtain ⟨r, -, rfl⟩ := List.mem_map.mp hrow
      rfl
  · intro ⟨hpayload, hsign⟩
    refine ⟨rows.map compact, all_eq_ok_iff.mpr hpayload, ?_⟩
    rw [List.map_map]
    exact (List.map_congr_left fun row hrow => expand_compact_iff.mpr (hsign row hrow)).trans (List.map_id rows)

/-- A block is what a row with the sign byte is sent as when the row's fields are cut out of
    it, the hash backwards. -/
theorem take_eq_encode_iff {row : StealthRow} {block : Bytes} :
    block.take 84 = row.compact.encode ∧ row.ephemeralPublicKey.1.head? = some ephemeralKeySign ↔
      row.ephemeralPublicKey.1 = ephemeralKeySign :: block.take 32 ∧
      row.publicKeyHash.1 = ((block.drop 32).take 20).reverse ∧
      row.transactionHash.1 = (block.drop 52).take 32 := by
  have hfields : block.take 84 = block.take 32 ++ (block.drop 32).take 20 ++ (block.drop 52).take 32 := by
    rw [← List.take_add, ← List.take_add]
  rw [hfields]
  constructor
  · intro ⟨hblock, hsign⟩
    have hlen : 84 ≤ block.length := by
      have := congrArg List.length hblock
      rw [← hfields, List.length_take, length_encode] at this
      omega
    have hwidth : ∀ n m, n + m ≤ 84 → ((block.drop n).take m).length = m := fun n m hle => by
      rw [List.length_take, List.length_drop]
      omega
    obtain ⟨hkeyHash, htx⟩ := List.append_inj' hblock ((hwidth 52 32 (by decide)).trans row.transactionHash.2.symm)
    obtain ⟨hkey, hhash⟩ :=
      List.append_inj' hkeyHash ((hwidth 32 20 (by decide)).trans row.compact.publicKeyHash.2.symm)
    refine ⟨?_, ?_, htx.symm⟩
    · rw [hkey]
      exact (congrArg Subtype.val (FixedBytes.cons_tail_iff.mpr hsign)).symm
    · rw [hhash]
      exact (congrArg Subtype.val (FixedBytes.reverse_reverse row.publicKeyHash)).symm
  · intro ⟨hkey, hhash, htx⟩
    refine ⟨?_, by rw [hkey]; rfl⟩
    show _ = row.ephemeralPublicKey.1.tail ++ row.publicKeyHash.1.reverse ++ row.transactionHash.1
    rw [hkey, hhash, htx, List.reverse_reverse, List.tail_cons]

theorem decodeAll_eq_ok_iff_blocks {payload : Bytes} {rows : List StealthRow} :
    decodeAll payload = .ok rows ↔ payload.length = 84 * rows.length ∧
      ∀ i row, rows[i]? = some row →
        row.ephemeralPublicKey.1 = ephemeralKeySign :: (payload.drop (84 * i)).take 32 ∧
        row.publicKeyHash.1 = ((payload.drop (84 * i + 32)).take 20).reverse ∧
        row.transactionHash.1 = (payload.drop (84 * i + 52)).take 32 := by
  have hwritten : payload = encodeAll (rows.map compact) ↔ payload.length = 84 * rows.length ∧
      ∀ i row, rows[i]? = some row → (payload.drop (84 * i)).take 84 = row.compact.encode := by
    rw [encodeAll, List.flatMap_map]
    exact eq_flatMap_iff fun row : StealthRow => length_encode row.compact
  have hsigned : (∀ row ∈ rows, row.ephemeralPublicKey.1.head? = some ephemeralKeySign) ↔
      ∀ (i : Nat) (row : StealthRow), rows[i]? = some row →
        row.ephemeralPublicKey.1.head? = some ephemeralKeySign := by
    simp only [List.mem_iff_getElem?, forall_exists_index]
    exact forall_comm
  rw [decodeAll_eq_ok_iff, hwritten, hsigned, and_assoc, ← forall_and]
  refine and_congr_right fun _ => forall_congr' fun i => ?_
  rw [← forall_and]
  refine forall_congr' fun row => ?_
  rw [← imp_and, take_eq_encode_iff, List.drop_drop, List.drop_drop]

end StealthRow

open CompactStealthRow StealthRow in
/-- Payloads of stealth rows are those of a multiple of eighty-four bytes. The i-th row is
    the i-th block: the sign byte and the key, the hash backwards, the transaction hash. What
    is written is read as its expansion, and the rows of a payload, compacted again, are
    written as that payload, so no other payload has the same rows. Every other payload fails
    at the first field that is not all there. -/
theorem stealth_rows_exact :
    (∀ payload, (∃ rows, decodeAll payload = .ok rows) ↔ payload.length % 84 = 0) ∧
    (∀ payload rows, decodeAll payload = .ok rows ↔ payload.length = 84 * rows.length ∧
      ∀ i row, rows[i]? = some row →
        row.ephemeralPublicKey.1 = 0x02 :: (payload.drop (84 * i)).take 32 ∧
        row.publicKeyHash.1 = ((payload.drop (84 * i + 32)).take 20).reverse ∧
        row.transactionHash.1 = (payload.drop (84 * i + 52)).take 32) ∧
    (∀ sent, decodeAll (encodeAll sent) = .ok (sent.map expand)) ∧
    (∀ payload rows, decodeAll payload = .ok rows → encodeAll (rows.map compact) = payload) ∧
    (∀ payload other rows, payload ≠ other → decodeAll payload = .ok rows → decodeAll other ≠ .ok rows) ∧
    ∀ payload e, decodeAll payload = .error e ↔ payload.length % 84 ≠ 0 ∧
      ∃ needed remaining, e = .truncated needed remaining ∧
        BreaksOff [32, 20, 32] (payload.length % 84) needed remaining := by
  have hback : ∀ payload rows, decodeAll payload = .ok rows → encodeAll (rows.map compact) = payload :=
    fun payload rows h => (decodeAll_eq_ok_iff.mp h).1.symm
  refine ⟨?_, ?_, ?_, hback, ?_, ?_⟩
  · intro payload
    exact Except.exists_map_iff.trans (reader.exists_all_plain_iff follows_stealth (by decide) rfl)
  · intro payload rows
    exact decodeAll_eq_ok_iff_blocks
  · intro sent
    exact Except.map_eq_ok_iff.mpr ⟨sent, all_eq_ok_iff.mpr rfl, rfl⟩
  · intro payload other rows hne h hother
    exact hne ((hback payload rows h).symm.trans (hback other rows hother))
  · intro payload e
    exact Except.map_eq_error_iff.trans (reader.all_plain_eq_error_iff follows_stealth (by decide) rfl)

namespace StealthRow

def ascending (start n : Nat) : Bytes := (List.range' start n).map UInt8.ofNat

def ascendingRow (start : Nat) : StealthRow :=
  { ephemeralPublicKey := ⟨0x02 :: ascending start 32, by simp [ascending]⟩
    publicKeyHash := ⟨(ascending (start + 32) 20).reverse, by simp [ascending]⟩
    transactionHash := ⟨ascending (start + 52) 32, by simp [ascending]⟩ }

open CompactStealthRow in
/-- Two rows whose bytes go up, and the same with the hash of the first turned round. -/
theorem ascending_rows_expand :
    decodeAll (ascending 0 168) = .ok [ascendingRow 0, ascendingRow 84] ∧
    encodeAll [(ascendingRow 0).compact, (ascendingRow 84).compact] = ascending 0 168 ∧
    decodeAll (ascending 0 32 ++ (ascending 32 20).reverse ++ ascending 52 116) ≠
      .ok [ascendingRow 0, ascendingRow 84] := by
  obtain ⟨-, hblocks, -, hback, hother, -⟩ := stealth_rows_exact
  have hrows : decodeAll (ascending 0 168) = .ok [ascendingRow 0, ascendingRow 84] := by
    refine (hblocks _ _).mpr ⟨by simp [ascending], ?_⟩
    intro i row hrow
    match i with
    | 0 =>
      cases hrow
      decide
    | 1 =>
      cases hrow
      decide
    | i + 2 => cases hrow
  exact ⟨hrows, hback _ _ hrows, hother _ _ _ (by decide) hrows⟩

end StealthRow

end ChainQuery
