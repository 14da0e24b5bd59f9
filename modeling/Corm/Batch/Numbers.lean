import Corm.Batch.Confined
import Corm.SoftDelete.Binding

/-!
# The numbers of a batch

On PostgreSQL the placeholders of SET get their numbers from `corm_query_set`, and that of the key
from a count of the `?` in SET, which has none.

* `slots_keyUpdate`: the placeholders of the statement of a record;
* `NumbersRight`: each parameter has one placeholder, and stands where it belongs;
* **`batch_numbers_iff`**: only the statements that are not executed are right.
-/

namespace Corm

open Sql (Tok lex)

variable {bt : BackendType} {m : Model} {pk f : Field} {q : Query} {c : Text} {key : Value}
  {ns : List Text} {vals : List Value} {rec : Record} {recs : List Record}

/-! ## The placeholders -/

theorem slots_setToks (k n : ℕ) (ns : List Text) :
    Sql.slots n (setToks .postgres k ns) = (List.range' k ns.length).map some ∧
      Sql.marks (setToks .postgres k ns) = 0 := by
  induction ns generalizing k with
  | nil => exact ⟨rfl, rfl⟩
  | cons name names ih =>
    cases names with
    | nil => exact ⟨rfl, rfl⟩
    | cons second names =>
      obtain ⟨hslots, hmarks⟩ := ih (k + 1)
      have htoks : setToks .postgres k (name :: second :: names) = setOneToks .postgres k name ++
        ([Tok.sym ','] ++ setToks .postgres (k + 1) (second :: names)) := rfl
      have hone : Sql.slots n (setOneToks .postgres k name) = [some k] := rfl
      have hone' : Sql.marks (setOneToks .postgres k name) = 0 := rfl
      have hcomma : Sql.slots n [.sym ','] = [] := rfl
      have hcomma' : Sql.marks [.sym ','] = 0 := rfl
      rw [htoks, Sql.slots_append, Sql.slots_append, Sql.marks_append, Sql.marks_append, hone, hone',
        hcomma', Nat.add_zero, Nat.add_zero, hcomma, hslots, hmarks]
      exact ⟨rfl, rfl⟩

/-- **The placeholders of the statement of a record** on PostgreSQL: those of SET have the numbers
from 1 on, and that of the key has the number 1. -/
theorem slots_keyUpdate (hq : KeyQuery .postgres m ns vals c key q) (hm : Validated m)
    (hc : Ident c) (hns : ∀ n ∈ ns, Ident n) (hne : ns ≠ []) :
    (lex .postgres (buildUpdate q)).map (Sql.slots 0) =
      some ((List.range' 0 ns.length).map some ++ [some 0]) := by
  obtain ⟨hbt, rfl, hset, -, hw, -⟩ := hq
  have hcount : (setText q.bt 0 ns).count '?' = 0 := by
    rw [hbt, List.count_eq_zero]
    exact notMem_setText hns 0
  have hset' : q.setClause = setText q.bt 0 ns := by
    rw [hbt]
    exact hset
  obtain ⟨hslots, hmarks⟩ := slots_setToks 0 0 ns
  have hkey : Sql.slots 0 (whereToks (some [.word c, .sym '=', placeholderTok .postgres 0])) =
    [some 0] := rfl
  have hdialect : Sql.Dialect.postgres = q.bt.dialect := by
    rw [hbt]
    rfl
  rw [hdialect, lex_buildUpdate hm.table hns hset' hne, hcount, whereTokens_key hc hw, Option.map_some,
    Option.map_some, List.append_assoc, Sql.slots_append_plain (plain_updateToks q),
    Sql.slots_append, hbt, hslots, hmarks, hkey]

/-! ## Statements -/

/-- Each parameter has exactly one placeholder; the statement makes the assignments, and compares
the column `c` with the key. -/
structure NumbersRight (m : Model) (sets : List (Text × Value)) (c : Text) (key : Value)
    (e : Text × List Value) : Prop where
  once : ∃ ts, lex .postgres e.1 = some ts ∧ ∀ k < e.2.length, (Sql.slots 0 ts).count (some k) = 1
  reads : Sql.readStmt .postgres e.1 e.2 = some (.update m.table sets (some (Sql.eqItems c key)))

theorem not_numbersRight (hq : KeyQuery .postgres m ns vals c key q) (hm : Validated m)
    (hc : Ident c) (hns : ∀ n ∈ ns, Ident n) (hne : ns ≠ []) (sets : List (Text × Value)) :
    ¬ NumbersRight m sets c key (buildUpdate q, q.params) := by
  rintro ⟨⟨ts, hlex, hcount⟩, -⟩
  have hslots := slots_keyUpdate hq hm hc hns hne
  rw [show lex .postgres (buildUpdate q) = some ts from hlex, Option.map_some, Option.some.injEq] at hslots
  have hpos : 0 < q.params.length := by
    rw [hq.params, List.length_append, List.length_singleton]
    omega
  have hzero := hcount 0 hpos
  obtain ⟨first, rest, rfl⟩ := List.exists_cons_of_ne_nil hne
  rw [hslots, List.length_cons, List.range'_succ, List.map_cons, List.cons_append,
    List.count_cons_self, List.count_append] at hzero
  have hlast : [some 0].count (some 0) = 1 := rfl
  omega

/-- What the statement of a record sets, with a soft delete for `corm_delete_batch`. -/
def BatchOp.sets (m : Model) (rec : Record) : BatchOp → List (Text × Value)
  | .update => (updateFields m).map fun f => (f.nm, fieldGetValue rec f)
  | .delete => ((softDeleteField m).map fun f => (f.nm, tombstone)).toList

/-- The query of a record. -/
def BatchOp.query (bt : BackendType) (m : Model) (pk : Field) (rec : Record) : BatchOp → Query
  | .update => updateBatchQuery bt m pk rec
  | .delete => deleteBatchQuery bt m pk rec

/-! ## The batch -/

/-- What the statements of a batch hand to the backend comes after what it was handed before. -/
theorem batchLoop_prefix {α : Type} {one : List α → Record → Done (List α)}
    (hone : ∀ log rec, log <+: (one log rec).state) (log : List α) (total : ℤ)
    (recs : List Record) : log <+: (batchLoop one log total recs).2.2 := by
  induction recs generalizing log total with
  | nil => exact List.prefix_rfl
  | cons rec recs ih =>
    have hlog := hone log rec
    rw [batchLoop]
    rcases hd : one log rec with ⟨err, q, record, count, log'⟩
    rw [hd] at hlog
    cases err with
    | ok => exact hlog.trans (ih log' _)
    | _ => exact hlog

/-- The statement of a record. -/
def batchOne (op : BatchOp) (m : Model) (pk : Field) (log : List (Text × List Value))
    (rec : Record) : Done (List (Text × List Value)) :=
  updateInternal (recorder .postgres) log (op.query .postgres m pk rec) (some rec)

/-- What a batch hands to the backend is what its loop does: `begin`, `commit` and `rollback` are
not statements. -/
theorem run_recorder (op : BatchOp) (hpk : pkField m = some pk)
    (hsoft : op = .delete → (softDeleteField m).isSome) (hrecs : recs ≠ []) :
    (op.run (recorder .postgres) [] m recs).2.2 = (batchLoop (batchOne op m pk) [] 0 recs).2.2 := by
  have htrans (one : List (Text × List Value) → Record → Done (List (Text × List Value))) :
      (batchTransaction (recorder .postgres) one [] recs).2.2 = (batchLoop one [] 0 recs).2.2 := by
    rw [batchTransaction_eq]
    exact ite_self _
  cases op with
  | update =>
    show (updateBatch _ _ _ _).2.2 = _
    rw [updateBatch, if_neg hrecs, hpk]
    exact htrans _
  | delete =>
    obtain ⟨f, hf⟩ := Option.isSome_iff_exists.mp (hsoft rfl)
    have hone : (fun log rec => deleteBatchOne (recorder .postgres) m log
        (deleteBatchQuery .postgres m pk rec) rec) = batchOne .delete m pk := by
      funext log rec
      exact deleteBatchOne_soft hf
    show (deleteBatch _ _ _ _).2.2 = _
    rw [deleteBatch, if_neg hrecs, hpk]
    rw [← hone]
    exact htrans _

theorem keyQuery_batch (hm : Validated m) (op : BatchOp)
    (hsoft : op = .delete → (softDeleteField m).isSome) (hset : updateFields m ≠ [])
    (pk : Field) (rec : Record) : ∃ ns vals, ns ≠ [] ∧ (∀ n ∈ ns, Ident n) ∧
      KeyQuery .postgres m ns vals pk.nm (fieldGetValue rec pk) (op.query .postgres m pk rec) := by
  cases op with
  | update =>
    exact ⟨_, _, mt List.map_eq_nil_iff.mp hset, ident_updateFields hm,
      keyQuery_update hm .postgres pk rec⟩
  | delete =>
    obtain ⟨f, hf⟩ := Option.isSome_iff_exists.mp (hsoft rfl)
    refine ⟨_, _, List.cons_ne_nil _ _, ?_, keyQuery_softDelete hm hf .postgres pk rec⟩
    intro n hn
    rw [List.mem_singleton.mp hn]
    exact hm.ident_nm (List.mem_of_find?_eq_some hf)

/-- **When the statements of a batch are right** on PostgreSQL: only when the before hook vetoes the
first record, so that nothing is executed. -/
theorem batch_numbers_iff (hm : validateModel m = .ok)
    (hone : m.fields.filter (fun f => f.isPrimary) = [pk]) (hother : updateFields m ≠ [])
    (op : BatchOp) (hsoft : op = .delete → (softDeleteField m).isSome) (rec : Record)
    (recs : List Record) :
    (∀ p ∈ (rec :: recs).zip (op.run (recorder .postgres) [] m (rec :: recs)).2.2,
      NumbersRight m (op.sets m p.1) pk.nm (fieldGetValue p.1 pk) p.2) ↔
      (runHook m.beforeUpdate (some rec)).1 ≠ .ok := by
  have hv := validated_of_ok hm
  have hpk : pkField m = some pk := by
    rw [pkField, ← List.head?_filter, hone]
    rfl
  obtain ⟨ns, vals, hne, hns, hq⟩ := keyQuery_batch hv op hsoft hother pk rec
  have hmodel : (op.query .postgres m pk rec).model = m := hq.model_eq
  obtain ⟨herr, hstate⟩ := updateInternal_recorder .postgres [] (op.query .postgres m pk rec)
    (some rec)
  rw [hmodel] at herr hstate
  rw [run_recorder op hpk hsoft (List.cons_ne_nil _ _), batchLoop]
  rcases hd : batchOne op m pk [] rec with ⟨err, q, record, count, log⟩
  change updateInternal (recorder .postgres) [] (op.query .postgres m pk rec) (some rec) = _ at hd
  rw [hd] at herr hstate
  simp only at herr hstate
  by_cases hhook : (runHook m.beforeUpdate (some rec)).1 = .ok
  · refine iff_of_false (fun h => ?_) (not_not_intro hhook)
    rw [hhook] at herr
    subst herr
    rw [if_pos hhook, List.nil_append] at hstate
    subst hstate
    have hgrow (log : List (Text × List Value)) (rec : Record) :
        log <+: (batchOne op m pk log rec).state := by
      rw [batchOne, (updateInternal_recorder _ _ _ _).2]
      split_ifs
      · exact List.prefix_append _ _
      · exact List.prefix_rfl
    obtain ⟨rest, hrest⟩ := batchLoop_prefix hgrow
      [(buildUpdate (queryOp (op.query .postgres m pk rec) .update),
        (op.query .postgres m pk rec).params)] (0 + count.getD 0) recs
    simp only at h
    rw [← hrest] at h
    have hq' : KeyQuery .postgres m ns vals pk.nm (fieldGetValue rec pk)
        (queryOp (op.query .postgres m pk rec) .update) :=
      ⟨hq.1, hq.2, hq.3, hq.4, hq.5, hq.6⟩
    exact not_numbersRight hq' hv (hv.ident_nm (pkField_mem hpk)) hns hne _
      (h _ List.mem_cons_self)
  · refine iff_of_true ?_ hhook
    rw [if_neg hhook] at hstate
    subst hstate
    cases err with
    | ok => exact absurd herr.symm hhook
    | _ => simp

/-! ## One user -/

/-- The key of the users with a soft-delete field. -/
def softUserId : Field := ⟨some "id".toList, .int, 4, 3⟩

/-- The user with the id 7. -/
def seventhUser : Record := Function.update zeroRecord softUserId (7 : Int32)

/-- The update of a user, and the soft delete, number two of their placeholders alike. -/
theorem batch_numbers_seventhUser :
    validateModel softUserModel = .ok ∧
    softUserModel.fields.filter (fun f => f.isPrimary) = [softUserId] ∧
    updateFields softUserModel ≠ [] ∧ (softDeleteField softUserModel).isSome ∧
    ∀ op : BatchOp, ¬ ∀ p ∈ [seventhUser].zip
        (op.run (recorder .postgres) [] softUserModel [seventhUser]).2.2,
      NumbersRight softUserModel (op.sets softUserModel p.1) softUserId.nm
        (fieldGetValue p.1 softUserId) p.2 := by
  refine ⟨by decide +kernel, by decide +kernel, by decide +kernel, by decide +kernel, ?_⟩
  intro op h
  have hlex : ((op.run (recorder .postgres) [] softUserModel [seventhUser]).2.2.map
      fun e => (lex .postgres e.1).map (Sql.slots 0)) =
        [some (((List.range (op.sets softUserModel seventhUser).length).map some) ++ [some 0])] := by
    cases op <;> rfl
  have hlen : ((op.run (recorder .postgres) [] softUserModel [seventhUser]).2.2.map
      fun e => e.2.length) = [(op.sets softUserModel seventhUser).length + 1] := by
    cases op <;> rfl
  have hzero : (((List.range (op.sets softUserModel seventhUser).length).map some) ++
      [some 0]).count (some 0) = 2 := by
    cases op <;> rfl
  obtain ⟨e, hstate, hslots⟩ := List.map_eq_singleton_iff.mp hlex
  rw [hstate] at h hlen
  obtain ⟨⟨ts, hts, hcount⟩, -⟩ := h (seventhUser, e) List.mem_cons_self
  simp only at hts hcount
  rw [hts, Option.map_some, Option.some.injEq] at hslots
  rw [List.map_singleton, List.singleton_inj] at hlen
  have hone := hcount 0 (by omega)
  rw [hslots, hzero] at hone
  cases hone

theorem batch_numbers_iff_seventhUser :
    (∀ p ∈ [seventhUser].zip
        (BatchOp.delete.run (recorder .postgres) [] softUserModel [seventhUser]).2.2,
      NumbersRight softUserModel (BatchOp.delete.sets softUserModel p.1) softUserId.nm
        (fieldGetValue p.1 softUserId) p.2) ↔
      (runHook softUserModel.beforeUpdate (some seventhUser)).1 ≠ .ok :=
  batch_numbers_iff (by decide +kernel) (by decide +kernel) (by decide +kernel) .delete
    (fun _ => by decide +kernel) seventhUser []

end Corm
