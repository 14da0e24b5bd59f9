import Corm.Batch.Last
import Corm.SoftDelete.History

/-!
# A soft delete, twice

The UPDATE of `corm_delete` has the condition of the caller and nothing else, so it matches rows that
are deleted already. SQLite and PostgreSQL count the rows that an UPDATE matches, and MySQL, as
`mysql_open` connects to it, those that it changes.

* `affectedRows`, `affectedBackend`: the count of each dialect, and a backend that reports it;
* `Marks`, `Deletes`: the value that a soft delete writes, and the rows that it matches;
* `read_softDeleteQuery`, `delete_affected`: the statement of any query, and what it does;
* **`delete_twice_iff`**: when a second delete does nothing.
-/

namespace Corm

open Sql (Item Row Engine Touches)

variable {V : Type} [DecidableEq V]

/-! ## Counting -/

/-- The number of rows that the database reports for a statement. -/
def affectedRows (bt : BackendType) (E : Engine V) (db : Sql.Database V) : Sql.Stmt V → ℤ
  | .update t sets cond => ((E.selects cond).map fun p =>
      ((db t).countP fun r => p r &&
        (decide (bt ≠ .mysql) || sets.any fun set => decide (Engine.assign sets r set.1 ≠ r set.1)) :
        ℤ)).getD 0
  | stmt => E.changes db stmt

/-- The backend of a dialect that reports these numbers. -/
def affectedBackend (bt : BackendType) (D : Dbms V) : Backend (Store V × ℤ) (List (Row V)) :=
  tallyBackend bt
    (fun s sql params => ((D.read bt.dialect sql params).map (affectedRows bt D.engine s.db)).getD 0) D

/-! ## The statement -/

variable {D : Dbms V} {q : Query} {f : Field} {s : Store V × ℤ} {v : V} {p : Row V → Bool}

/-- The statement of a soft delete is read: it writes `v` in the rows that satisfy `p`. -/
def Marks (D : Dbms V) (q : Query) (f : Field) (v : V) (p : Row V → Bool) : Prop := ∃ cond,
  D.read q.bt.dialect (buildUpdate (softDeleteQuery q f)) (q.params ++ [tombstone]) =
    some (.update q.model.table [(f.nm, v)] cond) ∧ D.engine.selects cond = some p

/-- What a soft delete does unless the before hook vetoes it. -/
def Deletes (D : Dbms V) (q : Query) (f : Field) (v : V) (p : Row V → Bool) : Prop :=
  (runHook q.model.beforeUpdate none).1 = .ok ∧ Marks D q f v p

omit [DecidableEq V] in
theorem Deletes.unique {v' : V} {p' : Row V → Bool} (h : Deletes D q f v p)
    (h' : Deletes D q f v' p') : v = v' ∧ p = p' := by
  obtain ⟨-, cond, hread, hp⟩ := h
  obtain ⟨-, cond', hread', hp'⟩ := h'
  obtain ⟨-, hsets, rfl⟩ := Sql.Stmt.update.inj (Option.some.inj (hread.symm.trans hread'))
  exact ⟨(Prod.mk.inj (List.cons.inj hsets).1).2, Option.some.inj (hp.symm.trans hp')⟩

omit [DecidableEq V] in
theorem fill_tombstone (bt : BackendType) {k : ℕ} {vs : List V} (hlen : vs.length = k + 1)
    (name : Text) : ∃ v, Sql.fill vs 0 (setToks bt k [name]) =
      some (Sql.assignItems (quoteOf bt) [(name, v)]) := by
  by_cases hb : bt = .postgres
  · exact ⟨vs[k], fill_setOne (Or.inl hb) (List.getElem?_eq_getElem (by omega)) name⟩
  · -- the number in a placeholder does not matter
    have hmark : setToks bt k [name] = setToks bt 0 [name] := by
      cases bt with
      | postgres => exact absurd rfl hb
      | mysql => rfl
      | sqlite => rfl
    rw [hmark]
    exact ⟨vs[0], fill_setOne (Or.inr rfl) (List.getElem?_eq_getElem (by omega)) name⟩

omit [DecidableEq V] in
/-- **The statement of a soft delete** sets the soft-delete column, and nothing else. -/
theorem read_softDeleteQuery (hm : Validated q.model) (hf : softDeleteField q.model = some f)
    {stmt : Sql.Stmt V}
    (h : D.read q.bt.dialect (buildUpdate (softDeleteQuery q f)) (q.params ++ [tombstone]) =
      some stmt) :
    ∃ v cond, stmt = .update q.model.table [(f.nm, v)] cond := by
  have hns : ∀ s ∈ [f.nm], Ident s := by
    intro s hs
    rw [List.mem_singleton.mp hs]
    exact hm.ident_nm (softDeleteField_mem hf)
  obtain ⟨vs, hvs, hstmt⟩ := Option.bind_eq_some_iff.mp h
  have hlen : vs.length = q.params.length + 1 := by
    have hlen := congrArg List.length (Sql.mapM_eq_some_iff.mp hvs)
    simpa using hlen.symm
  obtain ⟨v, hfill⟩ := fill_tombstone q.bt hlen f.nm
  have hr := readStmt_update (δ := q.bt.dialect) (q := softDeleteQuery q f)
    (k := q.params.length) hm.table hns rfl
    (List.cons_ne_nil _ _) (List.cons_ne_nil _ _) hfill
  rw [hr] at hstmt
  obtain ⟨cond, -, rfl⟩ := Option.map_eq_some_iff.mp hstmt
  exact ⟨v, cond, rfl⟩

/-- The rows that the database reports for a soft delete. -/
def deletedCount (bt : BackendType) (f : Field) (v : V) (p : Row V → Bool) (rows : List (Row V)) :
    ℤ :=
  rows.countP fun r => p r && (decide (bt ≠ .mysql) || decide (v ≠ r f.nm))

theorem affectedRows_softDelete (bt : BackendType) {cond : Option (List (Item V))}
    (hp : D.engine.selects cond = some p) (db : Sql.Database V) (t : Text) :
    affectedRows bt D.engine db (.update t [(f.nm, v)] cond) = deletedCount bt f v p (db t) := by
  simp [affectedRows, deletedCount, hp, Sql.assign_single]

variable {bt : BackendType} {sql : Text} {params : List Value}

theorem affected_exec {db : Sql.Database V}
    (h : (D.read bt.dialect sql params).bind (D.engine.execute D.omitted s.1.db) = some db) :
    (affectedBackend bt D).exec s sql params = (.ok, { s.1 with db },
      ((D.read bt.dialect sql params).map (affectedRows bt D.engine s.1.db)).getD 0) := by
  simp only [affectedBackend, tallyBackend, exec_sql h]

theorem affected_exec_none
    (h : (D.read bt.dialect sql params).bind (D.engine.execute D.omitted s.1.db) = none) :
    (affectedBackend bt D).exec s sql params = (.backend, s) := by
  simp only [affectedBackend, tallyBackend, exec_sql_none h]

omit [DecidableEq V] in
theorem run_softDeleteQuery (hm : Validated q.model) (hf : softDeleteField q.model = some f)
    (hhook : (runHook q.model.beforeUpdate none).1 = .ok) (s : Store V) :
    (∃ v p, Deletes D q f v p ∧
      (D.read q.bt.dialect (buildUpdate (softDeleteQuery q f)) (q.params ++ [tombstone])).bind
        (D.engine.execute D.omitted s.db) =
          some (Function.update s.db q.model.table (markRows f v p (s.db q.model.table)))) ∨
    ((∀ v p, ¬ Deletes D q f v p) ∧
      (D.read q.bt.dialect (buildUpdate (softDeleteQuery q f)) (q.params ++ [tombstone])).bind
        (D.engine.execute D.omitted s.db) = none) := by
  cases hread : D.read q.bt.dialect (buildUpdate (softDeleteQuery q f)) (q.params ++ [tombstone]) with
  | none =>
    refine Or.inr ⟨?_, rfl⟩
    rintro v p ⟨-, cond, h, -⟩
    rw [hread] at h
    cases h
  | some stmt =>
    obtain ⟨v, cond, rfl⟩ := read_softDeleteQuery hm hf hread
    cases hp : D.engine.selects cond with
    | none =>
      refine Or.inr ⟨?_, ?_⟩
      · rintro v' p ⟨-, cond', h, hp'⟩
        obtain ⟨-, -, rfl⟩ := Sql.Stmt.update.inj (Option.some.inj (hread.symm.trans h))
        rw [hp] at hp'
        cases hp'
      · rw [Option.bind_some, Engine.execute, hp]
        rfl
    | some p =>
      refine Or.inl ⟨v, p, ⟨hhook, cond, hread, hp⟩, ?_⟩
      rw [Option.bind_some, Engine.execute, hp]
      rfl

/-- **A soft delete**: it marks the rows that it matches and reports them, or does nothing. -/
theorem delete_affected (hm : Validated q.model) (hf : softDeleteField q.model = some f)
    (hset : q.setClause = []) (s : Store V × ℤ) :
    (∃ v p, Deletes D q f v p ∧
      (delete (affectedBackend q.bt D) s q).state.1.db =
        Function.update s.1.db q.model.table (markRows f v p (s.1.db q.model.table)) ∧
      (delete (affectedBackend q.bt D) s q).count =
        some (deletedCount q.bt f v p (s.1.db q.model.table))) ∨
    ((∀ v p, ¬ Deletes D q f v p) ∧ (delete (affectedBackend q.bt D) s q).state = s ∧
      (delete (affectedBackend q.bt D) s q).count = none) := by
  rw [delete_soft (affectedBackend q.bt D) s hm hf hset]
  unfold updateInternal execWithHooks
  have hmodel : (softDeleteQuery q f).model = q.model := rfl
  have hsql : buildSql (queryOp (softDeleteQuery q f) .update) =
      buildUpdate (softDeleteQuery q f) := rfl
  have hparams : (queryOp (softDeleteQuery q f) .update).params = q.params ++ [tombstone] := rfl
  rw [hmodel]
  rcases hhook : runHook q.model.beforeUpdate none with ⟨err, record⟩
  have hveto (hne : err ≠ .ok) (v : V) (p : Row V → Bool) : ¬ Deletes D q f v p := by
    rintro ⟨hok, -⟩
    rw [hhook] at hok
    exact hne hok
  cases err with
  | ok =>
    rcases run_softDeleteQuery (D := D) hm hf (by rw [hhook]) s.1 with
      ⟨v, p, hdel, hrun⟩ | ⟨hnone, hrun⟩
    · refine Or.inl ⟨v, p, hdel, ?_, ?_⟩
      · simp only [hsql, hparams, affected_exec hrun]
      · obtain ⟨-, cond, hread, hp⟩ := hdel
        simp only [hsql, hparams, affected_exec hrun, hread, Option.map_some, Option.getD_some,
          affectedRows_softDelete q.bt hp]
        rfl
    · refine Or.inr ⟨hnone, ?_, ?_⟩
      · simp only [hsql, hparams, affected_exec_none hrun]
      · simp only [hsql, hparams, affected_exec_none hrun]
  | _ => exact Or.inr ⟨hveto nofun, rfl, rfl⟩

/-! ## Twice -/

/-- The truth of a condition does not depend on a column. -/
def Ignores (c : Text) (p : Row V → Bool) : Prop :=
  ∀ r r' : Row V, (∀ c', c' ≠ c → r c' = r' c') → p r = p r'

/-- The first delete touches only rows that are not deleted yet, and the second one affects no rows
and leaves the database as it is. -/
structure NoOpTwice (D : Dbms V) (s : Store V × ℤ) (q : Query) (f : Field) : Prop where
  live : Touches (fun r => r f.nm = D.engine.null) (s.1.db q.model.table)
    ((delete (affectedBackend q.bt D) s q).state.1.db q.model.table)
  count : (delete (affectedBackend q.bt D)
    (delete (affectedBackend q.bt D) s q).state q).count.getD 0 = 0
  same : (delete (affectedBackend q.bt D) (delete (affectedBackend q.bt D) s q).state q).state.1.db =
    (delete (affectedBackend q.bt D) s q).state.1.db

omit [DecidableEq V] in
theorem Ignores.assign {c : Text} (hp : Ignores c p) (v : V) (r : Row V) :
    p (Engine.assign [(c, v)] r) = p r := by
  refine hp _ _ fun c' hc => Sql.assign_of_notMem ?_ r
  simpa using hc

omit [DecidableEq V] in
theorem markRows_markRows (hp : Ignores f.nm p) (rows : List (Row V)) :
    markRows f v p (markRows f v p rows) = markRows f v p rows := by
  unfold markRows
  rw [List.map_map]
  refine List.map_congr_left fun r _ => ?_
  by_cases hr : p r = true
  · simp [hr, hp.assign, Sql.assign_assign]
  · simp [hr]

/-- The second delete reports the rows that the first one matched, but not on MySQL. -/
theorem deletedCount_markRows (bt : BackendType) (hp : Ignores f.nm p) (rows : List (Row V)) :
    deletedCount bt f v p (markRows f v p rows) =
      ((if bt = .mysql then 0 else rows.countP p : ℕ) : ℤ) := by
  have hsame (r : Row V) : p (if p r then Engine.assign [(f.nm, v)] r else r) = p r := by
    split_ifs
    · exact hp.assign v r
    · rfl
  unfold deletedCount markRows
  rw [List.countP_map]
  split_ifs with hb
  · -- the rows that were matched have the value already
    refine congrArg _ (List.countP_eq_zero.mpr fun r _ => ?_)
    by_cases hr : p r = true
    · simp [hb, hr, Sql.assign_single]
    · simp [hr]
  · refine congrArg _ (List.countP_congr fun r _ => ?_)
    simp [hb, hsame]

omit [DecidableEq V] in
theorem touches_markRows_iff {null : V} {rows : List (Row V)} :
    Touches (fun r => r f.nm = null) rows (markRows f v p rows) ↔
      ∀ r ∈ rows, p r = true → r f.nm = null ∨ r f.nm = v := by
  rw [markRows, Sql.touches_map_iff]
  refine forall₂_congr fun r _ => ?_
  split_ifs with hr
  · have hsame : Engine.assign [(f.nm, v)] r = r ↔ r f.nm = v := by
      constructor
      · intro h
        rw [← h]
        exact Sql.assign_single f.nm v r
      · intro h
        funext c
        by_cases hc : c = f.nm
        · rw [hc, Sql.assign_single, h]
        · exact Sql.assign_of_notMem (by simpa using hc) r
    rw [hsame]
    simp only [hr, true_imp_iff]
  · exact iff_of_true (Or.inr rfl) fun h => absurd h hr

theorem noOpTwice_iff (hm : Validated q.model) (hf : softDeleteField q.model = some f)
    (hset : q.setClause = []) (hdel : Deletes D q f v p) (hp : Ignores f.nm p) (s : Store V × ℤ) :
    NoOpTwice D s q f ↔ ∀ r ∈ s.1.db q.model.table, p r = true →
      q.bt = .mysql ∧ (r f.nm = D.engine.null ∨ r f.nm = v) := by
  have hrun (s : Store V × ℤ) : (delete (affectedBackend q.bt D) s q).state.1.db =
        Function.update s.1.db q.model.table (markRows f v p (s.1.db q.model.table)) ∧
      (delete (affectedBackend q.bt D) s q).count =
        some (deletedCount q.bt f v p (s.1.db q.model.table)) := by
    rcases delete_affected (D := D) hm hf hset s with ⟨v', p', hdel', h⟩ | ⟨hnone, -⟩
    · obtain ⟨rfl, rfl⟩ := hdel.unique hdel'
      exact h
    · exact absurd hdel (hnone v p)
  have hrows : (delete (affectedBackend q.bt D) s q).state.1.db q.model.table =
      markRows f v p (s.1.db q.model.table) := by rw [(hrun s).1, Function.update_self]
  obtain ⟨hdb, hcount⟩ := hrun (delete (affectedBackend q.bt D) s q).state
  rw [hrows] at hdb hcount
  rw [deletedCount_markRows q.bt hp] at hcount
  constructor
  · rintro ⟨hlive, hzero, -⟩ r hr hpr
    rw [hrows] at hlive
    rw [hcount, Option.getD_some, Int.natCast_eq_zero] at hzero
    split_ifs at hzero with hb
    · exact ⟨hb, touches_markRows_iff.mp hlive r hr hpr⟩
    · rw [List.countP_eq_zero] at hzero
      exact absurd hpr (hzero r hr)
  · intro h
    refine ⟨?_, ?_, ?_⟩
    · rw [hrows]
      exact touches_markRows_iff.mpr fun r hr hpr => (h r hr hpr).2
    · rw [hcount, Option.getD_some, Int.natCast_eq_zero]
      split_ifs with hb
      · rfl
      · rw [List.countP_eq_zero]
        exact fun r hr hpr => hb (h r hr hpr).1
    · rw [hdb, markRows_markRows hp, ← hrows, Function.update_eq_self]

/-- The first user, not deleted. -/
def liveUser : Row (Option Text) := fun c => if c = "id".toList then some "1".toList else none

/-- The table with that user. -/
def liveUsers : Store (Option Text) × ℤ := (oneTable "soft_users".toList [liveUser], 0)

/-- `id = 1`. -/
def userOne : Query := queryWhere (queryNew .sqlite softUserModel) "id = 1".toList

/-- The predicate `id = 1`. -/
def idIsOne : List (Item (Option Text)) :=
  [.tok (.word "id".toList), .tok (.sym '='), .tok (.word "1".toList)]

theorem marks_userOne : Marks textDbms userOne softUserDeletedAt (some "deleted".toList)
    (textDbms.engine.holds [[idIsOne]]) := by
  refine ⟨some idIsOne, by decide +kernel, ?_⟩
  have hparse : Sql.parseWhere idIsOne = some [[idIsOne]] := by decide +kernel
  rw [Engine.selects, hparse]
  rfl

theorem ignores_userOne : Ignores softUserDeletedAt.nm (textDbms.engine.holds [[idIsOne]]) := by
  intro r₁ r₂ hsame
  have hid : r₁ "id".toList = r₂ "id".toList := hsame _ (by decide)
  rw [Sql.holds_single, Sql.holds_single]
  show (Sql.sameText (r₁ "id".toList) _ == some true) = (Sql.sameText (r₂ "id".toList) _ == some true)
  rw [hid]

end Corm
