/-
  ChainQuery.Proofs.Document — a reply told from its document.

  Every field of a value is a field of its document, in a form that is told from any other:
  bytes and hashes by their digits, numbers as they are, lists item by item. The kind tells
  which of these values a reply is.

  Proved:
  - `OutPoint.text_injective`, `toJson_inj`: points by their texts, and each value by its document.
  - `Reply.toJson_inj`: replies with one document are the same reply.
-/

import ChainQuery.Document
import ChainQuery.Proofs.Consensus.Decodes
import ChainQuery.Proofs.Text.Hex
import Mathlib

namespace ChainQuery

/-! ## Bytes, hashes and points -/

@[simp] theorem Json.hex_inj {bs cs : Bytes} : Json.hex bs = .hex cs ↔ bs = cs :=
  ⟨fun h => Hex.encode_injective (Json.string.inj h), congrArg Json.hex⟩

theorem Hash.text_injective {h k : Hash} (heq : Hash.text h = Hash.text k) : h = k := by
  have hreverse : h.reverse = k.reverse := Subtype.ext (Hex.encode_injective heq)
  rw [← FixedBytes.reverse_reverse h, hreverse, FixedBytes.reverse_reverse]

@[simp] theorem Json.hash_inj {h k : Hash} : Json.hash h = .hash k ↔ h = k :=
  ⟨fun heq => Hash.text_injective (Json.string.inj heq), congrArg Json.hash⟩

@[simp] theorem Json.ofNat_inj {m n : Nat} : Json.ofNat m = .ofNat n ↔ m = n := by
  simp [Json.ofNat]

theorem Hash.length_text (h : Hash) : (Hash.text h).toList.length = 64 := by
  have hdigits : ∀ bs : Bytes, (bs.flatMap Hex.digits).length = 2 * bs.length := by
    intro bs
    induction bs with
    | nil => rfl
    | cons b bs ih =>
      rw [List.flatMap_cons, List.length_append, ih, List.length_cons]
      show 2 + 2 * bs.length = _
      omega
  rw [Hash.text, Hex.encode, String.toList_ofList, hdigits, h.reverse.2]

/-- The hash of a point takes sixty-four characters, and the index is what follows the colon. -/
theorem OutPoint.text_injective {p q : OutPoint} (h : p.text = q.text) : p = q := by
  have hlist : (Hash.text p.hash).toList ++ ':' :: (Nat.repr p.index.toNat).toList =
      (Hash.text q.hash).toList ++ ':' :: (Nat.repr q.index.toNat).toList := by
    simpa [OutPoint.text] using congrArg String.toList h
  obtain ⟨hhash, hindex⟩ := List.append_inj hlist ((Hash.length_text _).trans (Hash.length_text _).symm)
  have hindex := Nat.repr_inj.mp (String.toList_inj.mp (List.cons.inj hindex).2)
  cases p
  cases q
  simp only [OutPoint.mk.injEq]
  exact ⟨Hash.text_injective (String.toList_inj.mp hhash), UInt32.toNat_inj.mp hindex⟩

/-! ## Values -/

@[simp] theorem Script.toJson_inj {s t : Script} : s.toJson = t.toJson ↔ s = t :=
  ⟨fun h => Counted.ext (Json.hex_inj.mp h), congrArg Script.toJson⟩

@[simp] theorem OutPoint.toJson_inj {p q : OutPoint} : p.toJson = q.toJson ↔ p = q :=
  ⟨fun h => OutPoint.text_injective (Json.string.inj h), congrArg OutPoint.toJson⟩

/-- A list is told item by item. -/
theorem Json.items_inj {α : Type} {f : α → Json} (hf : ∀ {a b}, f a = f b ↔ a = b) {xs ys : List α} :
    xs.map f = ys.map f ↔ xs = ys :=
  List.map_inj_right fun _ _ => hf.mp

theorem Counted.items_inj {α : Type} {f : α → Json} (hf : ∀ {a b}, f a = f b ↔ a = b) {xs ys : Counted α} :
    xs.toList.map f = ys.toList.map f ↔ xs = ys := by
  rw [Json.items_inj hf]
  exact ⟨Counted.ext, congrArg toList⟩

@[simp] theorem Input.toJson_inj {i j : Input} : i.toJson = j.toJson ↔ i = j := by
  cases i
  cases j
  simp [toJson, Counted.items_inj Script.toJson_inj, UInt32.toNat_inj]

@[simp] theorem Output.toJson_inj {o o' : Output} : o.toJson = o'.toJson ↔ o = o' := by
  cases o
  cases o'
  simp [toJson, UInt64.toNat_inj]

@[simp] theorem Transaction.toJson_inj {tx tx' : Transaction} : tx.toJson = tx'.toJson ↔ tx = tx' := by
  cases tx
  cases tx'
  simp [toJson, Counted.items_inj Input.toJson_inj, Counted.items_inj Output.toJson_inj, UInt32.toNat_inj,
    Int32.toInt_inj]

@[simp] theorem Header.toJson_inj {h k : Header} : h.toJson = k.toJson ↔ h = k := by
  cases h
  cases k
  simp [toJson, UInt32.toNat_inj, Int32.toInt_inj]

@[simp] theorem Address.toJson_inj {a b : Address} : a.toJson = b.toJson ↔ a = b := by
  cases a
  cases b
  simp [toJson, UInt8.toNat_inj, Subtype.ext_iff]

@[simp] theorem HistoryRow.toJson_inj {r r' : HistoryRow} : r.toJson = r'.toJson ↔ r = r' := by
  cases r
  cases r'
  simp [toJson, UInt32.toNat_inj, UInt64.toNat_inj]

@[simp] theorem StealthRow.toJson_inj {r r' : StealthRow} : r.toJson = r'.toJson ↔ r = r' := by
  cases r
  cases r'
  simp [toJson, Subtype.ext_iff]

@[simp] theorem TransactionIndex.toJson_inj {i j : TransactionIndex} : i.toJson = j.toJson ↔ i = j := by
  cases i
  cases j
  simp [toJson, UInt32.toNat_inj]

theorem AddressUpdate.fields_inj {u v : AddressUpdate} : u.fields = v.fields ↔ u = v := by
  cases u
  cases v
  simp [fields, UInt32.toNat_inj]

theorem StealthUpdate.fields_inj {u v : StealthUpdate} : u.fields = v.fields ↔ u = v := by
  cases u
  cases v
  simp [fields, UInt32.toNat_inj, Subtype.ext_iff]

@[simp] theorem Notification.toJson_inj {n n' : Notification} : n.toJson = n'.toJson ↔ n = n' := by
  cases n with
  | address u => cases n' <;> simp [toJson, AddressUpdate.fields_inj]
  | stealth u => cases n' <;> simp [toJson, StealthUpdate.fields_inj]

/-! ## Replies -/

namespace Reply

/-- The value is there or not, and is all that stands beside the kind. -/
theorem told_of_toJson {r r' : Reply} (h : r.toJson = r'.toJson) : r.kindName = r'.kindName ∧ r.value? = r'.value? := by
  unfold toJson at h
  obtain ⟨hkind, hvalue⟩ := List.cons.inj (Json.object.inj h)
  refine ⟨Json.string.inj (Prod.mk.inj hkind).2, ?_⟩
  cases hv : r.value? <;> cases hv' : r'.value? <;> simp_all

@[simp] theorem toJson_inj {r r' : Reply} : r.toJson = r'.toJson ↔ r = r' := by
  refine ⟨fun h => ?_, congrArg toJson⟩
  obtain ⟨hkind, hvalue⟩ := told_of_toJson h
  have hnumber {m n : UInt32} : Json.ofNat m.toNat = Json.ofNat n.toNat ↔ m = n := by simp [UInt32.toNat_inj]
  -- replies of two kinds are told apart by these, and those of one kind by their values
  cases r <;> cases r' <;> simp [kindName] at hkind <;>
    first
      | rfl
      | simpa [value?, hnumber, Json.items_inj hnumber, Json.items_inj HistoryRow.toJson_inj,
          Json.items_inj StealthRow.toJson_inj] using hvalue

end Reply

end ChainQuery
