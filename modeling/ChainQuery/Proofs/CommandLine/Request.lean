/-
  ChainQuery.Proofs.CommandLine.Request — the words of a request.

  A call is said in words by its name and its arguments: positional ones in their order,
  options in either spelling anywhere among them, and none where the default is meant
  (`Call.Spelled`). Such words are read as the call's arguments at their level, whatever
  the arrangement, and the request that is built from these is the call's own.

  Proved:
  - `values_of_arranged`: arranged words give their values back.
  - `parse_of_spelled`: the words of a call are parsed as an action that builds its request.
  - `exists_spelled`: every call can be said.
-/

import ChainQuery.CommandLine.Run
import ChainQuery.Proofs.CommandLine.Invocation
import ChainQuery.Proofs.Request.Server

namespace ChainQuery

namespace CommandLine

/-- The words of positional arguments in their order and of options among them. -/
inductive Arranged : List ArgumentValue → List (String × ArgumentValue) → List String → Prop where
  | nil : Arranged [] [] []
  | positional {v : ArgumentValue} {vs : List ArgumentValue} {os : List (String × ArgumentValue)} {ws : List String}
      (h : Arranged vs os ws) : Arranged (v :: vs) os (v.word :: ws)
  | apart {name : String} {v : ArgumentValue} {vs : List ArgumentValue} {os : List (String × ArgumentValue)}
      {ws : List String} (h : Arranged vs os ws) : Arranged vs ((name, v) :: os) (("--" ++ name) :: v.word :: ws)
  | attached {name : String} {v : ArgumentValue} {vs : List ArgumentValue} {os : List (String × ArgumentValue)}
      {ws : List String} (h : Arranged vs os ws) : Arranged vs ((name, v) :: os) (("--" ++ name ++ "=" ++ v.word) :: ws)

/-- An argument can have the value, and its word is no option. -/
def Suits (a : Argument) (v : ArgumentValue) : Prop :=
  (∃ k, a.kind = some k ∧ v.kind? = some k) ∧ ¬Dashed v.word

theorem Suits.read {a : Argument} {v : ArgumentValue} (h : Suits a v) :
    ∃ k, a.kind = some k ∧ k.read v.word = .ok v := by
  obtain ⟨⟨k, hk, hv⟩, -⟩ := h
  exact ⟨k, hk, ArgumentValue.read_word hv⟩

theorem reads_of_arranged {σ : Type} {g : Grammar σ} {vs : List ArgumentValue} {os : List (String × ArgumentValue)}
    {ws : List String} (h : Arranged vs os ws) {ps : List Argument} (hps : List.Forall₂ Suits ps vs)
    (hos : ∀ o ∈ os, ∃ a ∈ g.options, a.name = o.1 ∧ Suits a o.2) :
    ∃ vs' : Values, g.Reads ⟨ps, false⟩ ws vs' ⟨[], false⟩ ∧ List.Perm vs' ((ps.map Argument.name).zip vs ++ os) := by
  induction h generalizing ps with
  | nil =>
    cases hps
    exact ⟨[], .nil, .nil⟩
  | @positional v vs os ws h ih =>
    cases hps with
    | @cons a _ ps _ hsuits hps =>
      obtain ⟨vs', hreads, hperm⟩ := ih hps hos
      obtain ⟨k, hk, hread⟩ := hsuits.read
      refine ⟨(a.name, v) :: vs', .positional (fun _ => hsuits.2) ?_ hreads, hperm.cons _⟩
      rw [hk]
      exact hread
  | @apart name v vs os ws h ih =>
    obtain ⟨a, ha, rfl, hsuits⟩ := hos _ List.mem_cons_self
    obtain ⟨vs', hreads, hperm⟩ := ih hps fun o ho => hos o (List.mem_cons_of_mem _ ho)
    obtain ⟨k, hk, hread⟩ := hsuits.read
    exact ⟨(a.name, v) :: vs', .apart ha hk hsuits.2 hread hreads, (hperm.cons _).trans List.perm_middle.symm⟩
  | @attached name v vs os ws h ih =>
    obtain ⟨a, ha, rfl, hsuits⟩ := hos _ List.mem_cons_self
    obtain ⟨vs', hreads, hperm⟩ := ih hps fun o ho => hos o (List.mem_cons_of_mem _ ho)
    obtain ⟨k, hk, hread⟩ := hsuits.read
    exact ⟨(a.name, v) :: vs', .attached ha hk hread hreads, (hperm.cons _).trans List.perm_middle.symm⟩

/-- Arranged words give their values back, as if these stood in any other order. -/
theorem values_of_arranged {σ : Type} {g : Grammar σ} (hleaf : g.subcommands = []) (hg : g.Distinct)
    {vs : List ArgumentValue} {os : List (String × ArgumentValue)} {ws : List String} (h : Arranged vs os ws)
    (hps : List.Forall₂ Suits g.positionals vs) (hos : ∀ o ∈ os, ∃ a ∈ g.options, a.name = o.1 ∧ Suits a o.2)
    {all : Values} (hall : List.Perm all ((g.positionals.map Argument.name).zip vs ++ os)) (hnodup : all.names.Nodup) :
    ∃ vs' : Values, g.values ws = .ok vs' ∧ ∀ name, vs'.get? name = all.get? name := by
  obtain ⟨vs', hreads, hperm⟩ := reads_of_arranged h hps hos
  have hperm : List.Perm vs' all := hperm.trans hall.symm
  have hnodup' : vs'.names.Nodup := (hperm.map Prod.fst).nodup_iff.mpr hnodup
  exact ⟨vs', (Grammar.values_eq_ok_iff hleaf hg).mpr ⟨hnodup', _, hreads⟩, Values.get?_of_perm hperm hnodup⟩

theorem Values.requestAction_congr {vs vs' : Values} (h : ∀ name, vs.get? name = vs'.get? name) (name : RequestName) :
    vs.requestAction name = vs'.requestAction name := by
  cases name <;>
    simp only [requestAction, blockHeader, has, hash, text, bitCount, address, subscription, Values.fromHeight, variant,
      height?, hash?, h]

/-- An option with its value, or nothing where the value is the default. -/
inductive OrDefault (name : String) (v : ArgumentValue) (isDefault : Prop) : List (String × ArgumentValue) → Prop where
  | given : OrDefault name v isDefault [(name, v)]
  | omitted (h : isDefault) : OrDefault name v isDefault []

end CommandLine

open CommandLine

/-- The name of a call among the tool's requests, its positional arguments and its options. -/
inductive Call.Arguments : Call → String → List ArgumentValue → List (String × ArgumentValue) → Prop where
  | broadcastTransaction (tx : Transaction) :
      Arguments (.broadcastTransaction tx) "broadcast-transaction" [.text (Hex.encode tx.encode)] []
  | validateTransaction (tx : Transaction) :
      Arguments (.validateTransaction tx) "validate-transaction" [.text (Hex.encode tx.encode)] []
  | poolFetchTransaction (h : Hash) : Arguments (.poolFetchTransaction h) "pool-fetch-transaction" [.hash h] []
  | fetchTransaction (h : Hash) : Arguments (.fetchTransaction h) "fetch-transaction" [.hash h] []
  | fetchLastHeight : Arguments .fetchLastHeight "fetch-last-height" [] []
  | blockHeaderAt (n : UInt32) : Arguments (.fetchBlockHeader (.height n)) "fetch-block-header" [] [("height", .height n)]
  | blockHeaderOf (h : Hash) : Arguments (.fetchBlockHeader (.hash h)) "fetch-block-header" [] [("hash", .hash h)]
  | fetchTransactionIndex (h : Hash) : Arguments (.fetchTransactionIndex h) "fetch-transaction-index" [.hash h] []
  | fetchStealth (bits : UInt64) (data : Bytes) (n : UInt32) {os : List (String × ArgumentValue)}
      (h : OrDefault "from-height" (.height n) (n = 0) os) :
      Arguments (.fetchStealth (Prefix.ofBytes bits data) n) "fetch-stealth" [.bitCount bits, .text (Hex.encode data)] os
  | fetchHistory (v : HistoryVariant) (a : Address) (n : UInt32) {os hs vs : List (String × ArgumentValue)}
      (hheight : OrDefault "from-height" (.height n) (n = 0) hs)
      (hvariant : OrDefault "variant" (.variant v) (v = .current) vs) (hos : os.Perm (hs ++ vs)) :
      Arguments (.fetchHistory v a n) "fetch-history" [.address a] os
  | subscribe (kind : SubscribeKind) (bits : UInt64) (data : Bytes) :
      Arguments (.subscribe kind (Prefix.ofBytes bits data)) "subscribe"
        [.subscription kind, .bitCount bits, .text (Hex.encode data)] []
  | subscribeAddress (a : Address) : Arguments (.subscribeAddress a) "subscribe-address" [.address a] []
  | renew (kind : SubscribeKind) (bits : UInt64) (data : Bytes) :
      Arguments (.renew kind (Prefix.ofBytes bits data)) "renew"
        [.subscription kind, .bitCount bits, .text (Hex.encode data)] []

namespace Call

/-- The words that say a call, after the one that says that it is to be encoded. -/
def Spelled (c : Call) (words : List String) : Prop :=
  ∃ name vs os ws, c.Arguments name vs os ∧ Arranged vs os ws ∧ words = name :: ws

/-- The name of the level that reads the call's arguments. -/
def requestName : Call → RequestName
  | .broadcastTransaction _ => .broadcastTransaction
  | .validateTransaction _ => .validateTransaction
  | .poolFetchTransaction _ => .poolFetchTransaction
  | .fetchTransaction _ => .fetchTransaction
  | .fetchLastHeight => .fetchLastHeight
  | .fetchBlockHeader _ => .fetchBlockHeader
  | .fetchTransactionIndex _ => .fetchTransactionIndex
  | .fetchStealth .. => .fetchStealth
  | .fetchHistory .. => .fetchHistory
  | .subscribe .. => .subscribe
  | .subscribeAddress _ => .subscribeAddress
  | .renew .. => .renew

theorem exists_arranged (vs : List ArgumentValue) (os : List (String × ArgumentValue)) : ∃ ws, Arranged vs os ws := by
  induction vs with
  | cons v vs ih =>
    obtain ⟨ws, h⟩ := ih
    exact ⟨_, .positional h⟩
  | nil =>
    induction os with
    | nil => exact ⟨_, .nil⟩
    | cons o os ih =>
      obtain ⟨ws, h⟩ := ih
      exact ⟨_, .apart h⟩

/-- Every call can be said, for every prefix is that of its own blocks. -/
theorem exists_spelled (c : Call) : ∃ words, c.Spelled words := by
  have spell {c : Call} {s : String} {vs : List ArgumentValue} {os : List (String × ArgumentValue)}
      (h : c.Arguments s vs os) : ∃ words, c.Spelled words := by
    obtain ⟨ws, hws⟩ := exists_arranged vs os
    exact ⟨s :: ws, s, vs, os, ws, h, hws, rfl⟩
  cases c with
  | broadcastTransaction tx => exact spell (.broadcastTransaction tx)
  | validateTransaction tx => exact spell (.validateTransaction tx)
  | poolFetchTransaction h => exact spell (.poolFetchTransaction h)
  | fetchTransaction h => exact spell (.fetchTransaction h)
  | fetchLastHeight => exact spell .fetchLastHeight
  | fetchBlockHeader l =>
    cases l with
    | height n => exact spell (.blockHeaderAt n)
    | hash h => exact spell (.blockHeaderOf h)
  | fetchTransactionIndex h => exact spell (.fetchTransactionIndex h)
  | fetchStealth p n =>
    rw [← Prefix.ofBytes_blocks p]
    exact spell (.fetchStealth p.bits p.blocks n .given)
  | fetchHistory v a n => exact spell (.fetchHistory v a n .given .given (.refl _))
  | subscribe kind p =>
    rw [← Prefix.ofBytes_blocks p]
    exact spell (.subscribe kind p.bits p.blocks)
  | subscribeAddress a => exact spell (.subscribeAddress a)
  | renew kind p =>
    rw [← Prefix.ofBytes_blocks p]
    exact spell (.renew kind p.bits p.blocks)

theorem lookup_of_arguments {c : Call} {s : String} {vs : List ArgumentValue} {os : List (String × ArgumentValue)}
    (h : c.Arguments s vs os) : requestLevel.subcommands.lookup s = some c.requestName := by
  cases h <;> rfl

end Call

namespace CommandLine

theorem suits_of_kind {a : Argument} {v : ArgumentValue} {k : ArgumentKind} (ha : a.kind = some k)
    (hv : v.kind? = some k) (hk : k ≠ .text) : Suits a v :=
  ⟨⟨k, ha, hv⟩, ArgumentValue.not_dashed_word (by rw [hv]; exact fun h => hk (Option.some.inj h))⟩

theorem suits_hex {a : Argument} (ha : a.kind = some .text) (bs : Bytes) : Suits a (.text (Hex.encode bs)) :=
  ⟨⟨.text, ha, rfl⟩, not_dashed_hex bs⟩

theorem parseHex_encode (what : HexArgument) (bs : Bytes) : parseHex what (Hex.encode bs) = .ok bs := by
  unfold parseHex
  rw [Hex.decode_encode]

theorem parseTransaction_encode {tx : Transaction} (h : tx.WitnessesFit) :
    parseTransaction (Hex.encode tx.encode) = .ok tx := by
  have hread : Transaction.decode.whole tx.encode = .ok tx := by
    have := Transaction.decodes_transaction.append h []
    rw [List.append_nil] at this
    unfold Decoder.whole
    rw [this]
  refine Except.bind_eq_ok_iff.mpr ⟨_, parseHex_encode _ _, ?_⟩
  rw [hread]

theorem parsePrefix_encode (bits : UInt64) (data : Bytes) :
    parsePrefix bits (Hex.encode data) = .ok (Prefix.ofBytes bits data) :=
  Except.bind_eq_ok_iff.mpr ⟨_, parseHex_encode _ _, rfl⟩

theorem checked_prefix (f : Prefix → Except PrefixTooLong Request) (bits : UInt64) (data : Bytes) :
    (do checked (f (← parsePrefix bits (Hex.encode data)))) = checked (f (Prefix.ofBytes bits data)) := by
  rw [parsePrefix_encode]
  rfl

/-- The values `all`, in whatever order the words say them, are an action that builds `r`. -/
structure Yields (name : RequestName) (all : Values) (r : Except PrefixTooLong Request) : Prop where
  nodup : all.names.Nodup
  plain : all.get? "log-filter" = none ∧ all.get? "pretty" = none
  builds : ∃ action, all.requestAction name = .ok action ∧ action.build = checked r

variable {c : Call} {s : String} {vs : List ArgumentValue} {os : List (String × ArgumentValue)}

theorem suits_of_arguments (h : c.Arguments s vs os) : List.Forall₂ Suits c.requestName.level.positionals vs := by
  cases h with
  | broadcastTransaction tx => exact .cons (suits_hex rfl _) .nil
  | validateTransaction tx => exact .cons (suits_hex rfl _) .nil
  | poolFetchTransaction h => exact .cons (suits_of_kind rfl rfl (by decide)) .nil
  | fetchTransaction h => exact .cons (suits_of_kind rfl rfl (by decide)) .nil
  | fetchLastHeight => exact .nil
  | blockHeaderAt n => exact .nil
  | blockHeaderOf h => exact .nil
  | fetchTransactionIndex h => exact .cons (suits_of_kind rfl rfl (by decide)) .nil
  | fetchStealth bits data n h => exact .cons (suits_of_kind rfl rfl (by decide)) (.cons (suits_hex rfl _) .nil)
  | fetchHistory v a n => exact .cons (suits_of_kind rfl rfl (by decide)) .nil
  | subscribe kind bits data =>
    exact .cons (suits_of_kind rfl rfl (by decide))
      (.cons (suits_of_kind rfl rfl (by decide)) (.cons (suits_hex rfl _) .nil))
  | subscribeAddress a => exact .cons (suits_of_kind rfl rfl (by decide)) .nil
  | renew kind bits data =>
    exact .cons (suits_of_kind rfl rfl (by decide))
      (.cons (suits_of_kind rfl rfl (by decide)) (.cons (suits_hex rfl _) .nil))

theorem suits_of_orDefault {σ : Type} {g : Grammar σ} {a : Argument} {v : ArgumentValue} {isDefault : Prop}
    (ha : a ∈ g.options) (hsuits : Suits a v) (h : OrDefault a.name v isDefault os) :
    ∀ o ∈ os, ∃ a ∈ g.options, a.name = o.1 ∧ Suits a o.2 := by
  intro o ho
  cases h with
  | omitted _ => cases ho
  | given =>
    obtain rfl := List.mem_singleton.mp ho
    exact ⟨a, ha, rfl, hsuits⟩

theorem options_of_arguments (h : c.Arguments s vs os) :
    ∀ o ∈ os, ∃ a ∈ c.requestName.level.options, a.name = o.1 ∧ Suits a o.2 := by
  cases h with
  | blockHeaderAt n =>
    exact suits_of_orDefault (a := .option "height" "HEIGHT" .height) (.head _) (suits_of_kind rfl rfl (by decide))
      (.given : OrDefault "height" _ False _)
  | blockHeaderOf h =>
    exact suits_of_orDefault (a := .option "hash" "HASH" .hash) (.tail _ (.head _)) (suits_of_kind rfl rfl (by decide))
      (.given : OrDefault "hash" _ False _)
  | fetchStealth bits data n h =>
    exact suits_of_orDefault (a := fromHeight) (.head _) (suits_of_kind rfl rfl (by decide)) h
  | fetchHistory v a n hheight hvariant hos =>
    intro o ho
    rcases List.mem_append.mp (hos.mem_iff.mp ho) with ho | ho
    · exact suits_of_orDefault (a := fromHeight) (.head _) (suits_of_kind rfl rfl (by decide)) hheight o ho
    · exact suits_of_orDefault (a := .option "variant" "VARIANT" .variant) (.tail _ (.head _))
        (suits_of_kind rfl rfl (by decide)) hvariant o ho
  | _ => exact fun o ho => absurd ho List.not_mem_nil

theorem yields_stealth (bits : UInt64) (data : Bytes) {n : UInt32}
    (h : OrDefault "from-height" (.height n) (n = 0) os) :
    Yields .fetchStealth (("BITS", .bitCount bits) :: ("PREFIX", .text (Hex.encode data)) :: os)
      (Request.fetchStealth (Prefix.ofBytes bits data) n) := by
  have hbuild : RequestAction.build (.fetchStealth bits (Hex.encode data) n) =
      checked (Request.fetchStealth (Prefix.ofBytes bits data) n) :=
    checked_prefix (fun p => Request.fetchStealth p n) bits data
  cases h with
  | given =>
    refine ⟨?_, ⟨rfl, rfl⟩, _, rfl, hbuild⟩
    show List.Nodup ["BITS", "PREFIX", "from-height"]
    decide
  | omitted h =>
    subst h
    refine ⟨?_, ⟨rfl, rfl⟩, _, rfl, hbuild⟩
    show List.Nodup ["BITS", "PREFIX"]
    decide

theorem yields_history {v : HistoryVariant} (a : Address) {n : UInt32} {hs vs : List (String × ArgumentValue)}
    (hheight : OrDefault "from-height" (.height n) (n = 0) hs)
    (hvariant : OrDefault "variant" (.variant v) (v = .current) vs) :
    Yields .fetchHistory (("ADDRESS", .address a) :: (hs ++ vs)) (.ok (v.request a n)) := by
  cases hheight with
  | given =>
    cases hvariant with
    | given =>
      refine ⟨?_, ⟨rfl, rfl⟩, _, rfl, rfl⟩
      show List.Nodup ["ADDRESS", "from-height", "variant"]
      decide
    | omitted h =>
      subst h
      refine ⟨?_, ⟨rfl, rfl⟩, _, rfl, rfl⟩
      show List.Nodup ["ADDRESS", "from-height"]
      decide
  | omitted h =>
    subst h
    cases hvariant with
    | given =>
      refine ⟨?_, ⟨rfl, rfl⟩, _, rfl, rfl⟩
      show List.Nodup ["ADDRESS", "variant"]
      decide
    | omitted h =>
      subst h
      exact ⟨List.nodup_singleton _, ⟨rfl, rfl⟩, _, rfl, rfl⟩

theorem yields_of_arguments (h : c.Arguments s vs os) (hfit : c.WitnessesFit) :
    ∃ all : Values, List.Perm all ((c.requestName.level.positionals.map Argument.name).zip vs ++ os) ∧
      Yields c.requestName all c.request := by
  have subscription (kind : SubscribeKind) (bits : UInt64) (data : Bytes) :
      (Values.names
        [("KIND", .subscription kind), ("BITS", .bitCount bits), ("PREFIX", .text (Hex.encode data))]).Nodup := by
    show List.Nodup ["KIND", "BITS", "PREFIX"]
    decide
  cases h with
  | broadcastTransaction tx =>
    refine ⟨_, .refl _, List.nodup_singleton _, ⟨rfl, rfl⟩, _, rfl, ?_⟩
    exact Except.bind_eq_ok_iff.mpr ⟨tx, parseTransaction_encode hfit, rfl⟩
  | validateTransaction tx =>
    refine ⟨_, .refl _, List.nodup_singleton _, ⟨rfl, rfl⟩, _, rfl, ?_⟩
    exact Except.bind_eq_ok_iff.mpr ⟨tx, parseTransaction_encode hfit, rfl⟩
  | fetchLastHeight => exact ⟨_, .refl _, List.nodup_nil, ⟨rfl, rfl⟩, _, rfl, rfl⟩
  | fetchStealth bits data n h => exact ⟨_, .refl _, yields_stealth bits data h⟩
  | fetchHistory v a n hheight hvariant hos => exact ⟨_, hos.symm.cons _, yields_history a hheight hvariant⟩
  | subscribe kind bits data =>
    exact ⟨_, .refl _, subscription kind bits data, ⟨rfl, rfl⟩, _, rfl,
      checked_prefix (Request.subscribe kind) bits data⟩
  | renew kind bits data =>
    exact ⟨_, .refl _, subscription kind bits data, ⟨rfl, rfl⟩, _, rfl, checked_prefix (Request.renew kind) bits data⟩
  | _ => exact ⟨_, .refl _, List.nodup_singleton _, ⟨rfl, rfl⟩, _, rfl, rfl⟩

/-- The words of a call are parsed as an action that builds its request, or fails as the call does. -/
theorem parse_of_spelled {words : List String} (h : c.Spelled words) (hfit : c.WitnessesFit) :
    ∃ action, Invocation.parse ("request" :: words) = .ok ⟨none, false, .request action⟩ ∧
      action.build = checked c.request := by
  obtain ⟨s, vs, os, ws, hargs, hws, rfl⟩ := h
  have hlookup := Call.lookup_of_arguments hargs
  obtain ⟨all, hall, hyields⟩ := yields_of_arguments hargs hfit
  obtain ⟨vals, hvals, hget⟩ := values_of_arranged (by cases c <;> rfl) (distinct_level c.requestName) hws
    (suits_of_arguments hargs) (options_of_arguments hargs) hall hyields.nodup
  obtain ⟨action, haction, hbuild⟩ := hyields.builds
  rw [← Values.requestAction_congr hget] at haction
  have hfilter : vals.text? "log-filter" = none := by
    rw [Values.text?, hget, hyields.plain.1]
  have hpretty : vals.has "pretty" = false := by
    rw [Values.has, hget, hyields.plain.2]
    rfl
  refine ⟨action, ?_, hbuild⟩
  rw [parse_of_values hlookup hvals haction, hfilter, hpretty]

end CommandLine

end ChainQuery
