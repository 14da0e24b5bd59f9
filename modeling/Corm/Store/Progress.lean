import Corm.Store.Guarded
import Corm.Store.Rows

/-!
# Calls that succeed

* `MayFail`: what a call can fail for;
* `create_succeeds`, `batch_succeeds`: without it, it succeeds.
-/

namespace Corm

open Sql (Row)

variable {db : SqliteDb} {accepts : Store Cell → Text → List Value → Bool} {m : Model} {pk : Field}
  {s : Store Cell} {r : Record} {recs : List Record}

/-- What a call can fail for: a hook, a statement that is refused, or a key whose name is a
connective, which cannot be a predicate. -/
def MayFail (m : Model) (pk : Field) (accepts : Store Cell → Text → List Value → Bool) : Prop :=
  m.beforeCreate ≠ none ∨ m.beforeUpdate ≠ none ∨ m.beforeDelete ≠ none ∨
    (∃ s sql params, accepts s sql params = false) ∨ Sql.isReserved pk.nm = true

theorem guard_of_accepts {σ ρ : Type} {b : Backend σ ρ} {accepts : σ → Text → List Value → Bool}
    (h : ∀ s sql params, accepts s sql params = true) : b.guard accepts = b := by
  have hexec : (fun s sql params => if accepts s sql params then b.exec s sql params
      else (Err.backend, s)) = b.exec := by
    funext s sql params
    rw [if_pos (h s sql params)]
  have hquery : (fun s sql params => if accepts s sql params then b.query s sql params
      else (Err.backend, none, s)) = b.query := by
    funext s sql params
    rw [if_pos (h s sql params)]
  unfold Backend.guard
  rw [hexec, hquery]

theorem not_mayFail (db : SqliteDb) (h : ¬ MayFail m pk accepts) :
    m.beforeCreate = none ∧ m.beforeUpdate = none ∧ m.beforeDelete = none ∧
      storeBackend db accepts = sqliteBackend db ∧ Sql.isReserved pk.nm = false := by
  unfold MayFail at h
  push Not at h
  obtain ⟨hc, hu, hd, ha, hk⟩ := h
  exact ⟨hc, hu, hd, guard_of_accepts fun s sql params => by simpa using ha s sql params,
    by simpa using hk⟩

/-- **A create** that nothing refuses. -/
theorem create_succeeds (hm : StoreModel m pk) (h : ¬ MayFail m pk accepts) :
    (createOne (storeBackend db accepts) s m r).err = .ok := by
  obtain ⟨hc, -, -, hb, -⟩ := not_mayFail db h
  rw [hb]
  refine createOne_err hm.valid hc ?_ (createdRow_isSome r _)
  obtain ⟨f, hf, hne⟩ := hm.other
  exact List.ne_nil_of_mem (List.mem_filter.mpr ⟨hf, by simp [hm.not_autoinc hf hne]⟩)

theorem selects_isSome {V : Type} {E : Sql.Engine V} {c : Text} (hc : Sql.isReserved c = false)
    (v : V) : (E.selects (some (Sql.eqItems c v))).isSome := by
  show ((Sql.parseWhere (Sql.eqItems c v)).map E.holds).isSome
  rw [Sql.parseWhere_eq, if_neg (by rw [hc]; decide)]
  rfl

theorem exec_of_read {V : Type} {D : Dbms V} {δ : Sql.Dialect} {s : Store V} {sql : Text}
    {params : List Value} {stmt : Sql.Stmt V} (hread : D.read δ sql params = some stmt)
    (hrun : (D.engine.execute D.omitted s.db stmt).isSome) : (D.exec δ s sql params).1 = .ok := by
  obtain ⟨db, hdb⟩ := Option.isSome_iff_exists.mp hrun
  have h : (D.read δ sql params).bind (D.engine.execute D.omitted s.db) = some db := by
    rw [hread]
    exact hdb
  rw [exec_sql h]

theorem kind_delete (hm : StoreModel m pk) : BatchOp.kind m .delete = .delete := by
  unfold BatchOp.kind
  rw [hm.hard]
  rfl

theorem exec_key (hm : StoreModel m pk) (hk : Sql.isReserved pk.nm = false) (bop : BatchOp)
    (rec : Record) :
    (db.dbms.exec .sqlite s (buildSql (queryOp (bop.query .sqlite m pk rec) (bop.kind m)))
      (queryOp (bop.query .sqlite m pk rec) (bop.kind m)).params).1 = .ok := by
  have hid : Ident pk.nm := hm.valid.ident_nm hm.pk_mem
  have hsel := selects_isSome (E := db.dbms.engine) hk (memberCell db.lib pk.size pk.type (rec pk))
  cases bop with
  | update =>
    have hq := keyQuery_update hm.valid .sqlite pk rec
    have hq' : KeyQuery .sqlite m ((updateFields m).map Field.nm)
        ((updateFields m).map (fieldGetValue rec)) pk.nm (fieldGetValue rec pk)
        (queryOp (updateBatchQuery .sqlite m pk rec) .update) :=
      ⟨hq.1, hq.2, hq.3, hq.4, hq.5, hq.6⟩
    have hread := read_keyUpdate (D := db.dbms) hq' hm.valid (by decide) hid
      (ident_updateFields hm.valid) (by simpa using hm.updateFields_ne)
    rw [List.mapM_map, show ((updateFields m).mapM (db.dbms.bind ∘ fieldGetValue rec)) = _ from
      mapM_bind_member db rec (updateFields m), bind_member] at hread
    refine exec_of_read hread ?_
    show ((db.dbms.engine.selects _).map _).isSome
    rw [Option.isSome_map]
    exact hsel
  | delete =>
    have hq : deleteBatchQuery .sqlite m pk rec = whereKey (queryNew .sqlite m) pk rec := by
      unfold deleteBatchQuery
      rw [hm.hard]
    have hbt : (queryOp (whereKey (queryNew .sqlite m) pk rec) .delete).bt ≠ .postgres :=
      (by decide : BackendType.sqlite ≠ .postgres)
    have hread := read_keyDelete (D := db.dbms) rfl hbt hm.valid.table hid rfl (fieldGetValue rec pk)
    rw [bind_member] at hread
    rw [kind_delete hm, show BatchOp.query .sqlite m pk rec .delete = _ from hq]
    refine exec_of_read hread ?_
    show ((db.dbms.engine.selects _).map _).isSome
    rw [Option.isSome_map]
    exact hsel

theorem batchLoop_succeeds {σ : Type} {one : σ → Record → Done σ} {s : σ}
    (hone : ∀ s rec, (one s rec).err = .ok) (total : ℤ) :
    (batchLoop one s total recs).1 = .ok := by
  induction recs generalizing s total with
  | nil => rfl
  | cons rec recs ih =>
    have hrec := hone s rec
    rw [batchLoop]
    revert hrec
    rcases one s rec with ⟨err, q, record, count, s'⟩
    rintro rfl
    exact ih _

/-- **A batch** that nothing refuses. -/
theorem batch_succeeds (hm : StoreModel m pk) (h : ¬ MayFail m pk accepts) (bop : BatchOp)
    (hrecs : recs ≠ []) : (bop.run (storeBackend db accepts) s m recs).1 = .ok := by
  obtain ⟨-, hu, hd, hb, hk⟩ := not_mayFail db h
  rw [hb, run_eq _ _ _ (pkField_of_filter hm.primary) hrecs, batchTransaction_eq]
  refine batchLoop_succeeds (fun s rec => ?_) 0
  have hbefore : bop.before m = none := by
    cases bop with
    | update => exact hu
    | delete =>
      unfold BatchOp.before
      rw [hm.hard]
      exact hd
  rcases execWithHooks_cases (sqliteBackend db) (bop.before m) (bop.after m)
    (sqliteBackend db).rowsAffected (fun q _ => q) (bop.kind m) s
    (bop.query .sqlite m pk rec) (some rec) with ⟨record', hhook, hdone⟩ | ⟨hne, -⟩
  · rw [show BatchOp.one _ m pk bop s rec = _ from hdone]
    have hexec : ((sqliteBackend db).exec s
        (buildSql (queryOp (bop.query .sqlite m pk rec) (bop.kind m)))
        (queryOp (bop.query .sqlite m pk rec) (bop.kind m)).params).1 = .ok := exec_key hm hk bop rec
    rw [if_pos hexec]
  · rw [hbefore] at hne
    exact absurd rfl hne

end Corm
