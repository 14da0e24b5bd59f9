import Corm.Backend.SqliteRoundTrip
import Corm.Batch.Confined
import Corm.Lib.Run
import Mathlib.Algebra.GroupWithZero.Nat

/-!
# The last record of a key

`corm_update_batch` on SQLite, which compares names without regard to case, lets the last of two
assignments to one column count, and counts the rows that a statement changes.

* `Sql.Stmt.fold`: a statement with its names up to case;
* `Engine.changes`, `caselessBackend`: the rows that a statement changes, and the backend;
* `cellOf`, `Within`: the value of a member, and those that SQLite has room for;
* `update_caseless`, `batchLoop_caseless`: the statement of one record, and those of a batch;
* `UniqueKey`, `countP_hasKey`: a key that no two rows have;
* **`updateBatch_last`**: each row has the values of the last record with its key;
* `updateBatch_mixes_names`: two fields whose names differ in case only are one column.
-/

/-! ## Names up to case -/

namespace Sql

variable {V : Type}

/-- A statement with what `φ` makes of its names. Of two assignments to a column the last one
counts, and of two values that are inserted into one the first. -/
def Stmt.fold (φ : List Char → List Char) : Stmt V → Stmt V
  | .insert t cols vs => .insert (φ t) (cols.map φ) vs
  | .select t cond => .select (φ t) cond
  | .update t sets cond => .update (φ t) (sets.map fun p => (φ p.1, p.2)).reverse cond
  | .delete t cond => .delete (φ t) cond

/-- The number of rows that a statement inserts, updates or deletes. -/
def Engine.changes (E : Engine V) (db : Database V) : Stmt V → ℤ
  | .insert _ _ _ => 1
  | .select _ _ => 0
  | .update t _ cond => ((E.selects cond).map fun p => ((db t).countP p : ℤ)).getD 0
  | .delete t cond => ((E.selects cond).map fun p => ((db t).countP p : ℤ)).getD 0

theorem Engine.selects_eqItems (E : Engine V) {c : List Char} (hc : isReserved c = false) (v : V) :
    E.selects (some (eqItems c v)) = some fun r => E.pred (eqItems c v) r == some true := by
  show (parseWhere (eqItems c v)).map E.holds = _
  rw [parseWhere_eq, hc]
  exact congrArg some (funext fun r => holds_single _ r)

end Sql

namespace Corm

open Sql (Row Engine)

/-! ## The backend -/

/-- Run a statement that changes tables, and count the rows. -/
def caselessExec (db : SqliteDb) (s : Store Cell × ℤ) (sql : Text) (params : List Value) :
    Err × Store Cell × ℤ :=
  match (db.dbms.read .sqlite sql params).map (Sql.Stmt.fold foldCase) with
  | some stmt =>
    match db.engine.execute db.dbms.omitted s.1.db stmt with
    | some tables => (.ok, { s.1 with db := tables }, db.engine.changes s.1.db stmt)
    | none => (.backend, s)
  | none => (.backend, s)

/-- The SQLite backend with names up to case, and with the count of the last statement that
succeeded. -/
def caselessBackend (db : SqliteDb) : Backend (Store Cell × ℤ) (List (Row Cell)) where
  type := .sqlite
  exec := caselessExec db
  query s sql params :=
    match ((db.dbms.read .sqlite sql params).map (Sql.Stmt.fold foldCase)).bind
      (db.engine.select s.1.db) with
    | some rows => (.ok, some rows, s)
    | none => (.backend, none, s)
  begin_ s := (.ok, { s.1 with saved := some s.1.db }, s.2)
  commit s := (.ok, { s.1 with saved := none }, s.2)
  rollback s := (.ok, ⟨s.1.saved.getD s.1.db, none⟩, s.2)
  lastInsertId s := db.lastInsertId s.1
  rowsAffected := Prod.snd

variable {db : SqliteDb} {accepts : Store Cell × ℤ → Text → List Value → Bool} {m : Model}
  {pk : Field} {s : Store Cell × ℤ} {recs : List Record} {rec : Record} {r : Row Cell}
  {rows : List (Row Cell)}

/-! ## Members -/

/-- The value of a member. -/
def cellOf (L : Sqlite) (size : ℕ) : (t : FieldType) → Member size t → Cell
  | .int, (n : Int32) => .integer n.toInt64
  | .int64, n => .integer n
  | .float, (bits : UInt32) => L.bindDouble (Float32.ofBits bits).toFloat.toBits
  | .double, bits => L.bindDouble bits
  | .string, (buf : Buffer Char size) => .text (cstr buf.1)
  | .text, (some s : Option Text) => .text s
  | .text, (none : Option Text) => .null
  | .bool, (v : Bool) => .integer (if v then 1 else 0)
  | .blob, (buf : Buffer UInt8 size) => .blob buf.1

/-- No text and no blob is longer than `limit`. -/
def Within (limit size : ℕ) : (t : FieldType) → Member size t → Prop
  | .string, (buf : Buffer Char size) => (cstr buf.1).length ≤ limit
  | .text, (p : Option Text) => ∀ s ∈ p, s.length ≤ limit
  | .blob, _ => size ≤ limit
  | _, _ => True

theorem memberCell_of_within {L : Sqlite} {size : ℕ} {t : FieldType} {x : Member size t}
    (h : Within L.limit size t x) : memberCell L size t x = cellOf L size t x := by
  cases t with
  | string => exact bindText_of_le h
  | text =>
    change Option Text at x
    cases x with
    | none => rfl
    | some s => exact bindText_of_le (h s rfl)
  | blob =>
    change Buffer UInt8 size at x
    have hlt : size < 2 ^ 31 := lt_of_le_of_lt h L.limit_lt
    have hmod : size % 2 ^ 32 = size := Nat.mod_eq_of_lt (by omega)
    have hle : size ≤ L.limit := h
    refine (memberCell_blob (hmod.symm ▸ hlt) x).trans ?_
    rw [hmod, if_pos hle, List.take_of_length_le x.2.le]
    rfl
  | _ => rfl

/-- The row has the key of a record, as the database compares them. -/
def hasKey (db : SqliteDb) (pk : Field) (rec : Record) (r : Row Cell) : Bool :=
  db.engine.pred (Sql.eqItems pk.nm (cellOf db.lib pk.size pk.type (rec pk))) r == some true

theorem keyEq_eq_hasKey (h : Within db.lib.limit pk.size pk.type (rec pk)) (r : Row Cell) :
    keyEq db.dbms pk r rec = hasKey db pk rec r := by
  rw [keyEq, bind_member, memberCell_of_within h]
  rfl

/-! ## One record -/

/-- The assignments of a record, the last one first. -/
def caselessSets (db : SqliteDb) (m : Model) (rec : Record) : List (Text × Cell) :=
  ((updateFields m).map fun f =>
    (foldCase f.nm, memberCell db.lib f.size f.type (rec f))).reverse

theorem caselessSets_cols (db : SqliteDb) (m : Model) (rec : Record) :
    (caselessSets db m rec).map Prod.fst =
      ((updateFields m).map fun f => foldCase f.nm).reverse := by
  rw [caselessSets, List.map_reverse, List.map_map]
  rfl

/-- The database accepts the UPDATE of a record: no constraint, and no lock, refuses it. -/
def UpdateAccepted (accepts : Store Cell × ℤ → Text → List Value → Bool) (m : Model) (pk : Field)
    (s : Store Cell × ℤ) (rec : Record) : Prop :=
  accepts s (buildUpdate (queryOp (updateBatchQuery .sqlite m pk rec) .update))
    (updateBatchQuery .sqlite m pk rec).params = true

theorem read_caseless (hm : Validated m) (hne : updateFields m ≠ []) (hpk : pkField m = some pk)
    (rec : Record) :
    (db.dbms.read .sqlite (buildUpdate (queryOp (updateBatchQuery .sqlite m pk rec) .update))
      (updateBatchQuery .sqlite m pk rec).params).map (Sql.Stmt.fold foldCase) =
    some (.update (foldCase m.table) (caselessSets db m rec)
      (some (Sql.eqItems pk.nm (memberCell db.lib pk.size pk.type (rec pk))))) := by
  obtain ⟨h1, h2, h3, h4, h5, h6⟩ := keyQuery_update hm .sqlite pk rec
  have hq : KeyQuery .sqlite m ((updateFields m).map Field.nm)
      ((updateFields m).map (fieldGetValue rec)) pk.nm (fieldGetValue rec pk)
      (queryOp (updateBatchQuery .sqlite m pk rec) .update) := ⟨h1, h2, h3, h4, h5, h6⟩
  have hvals : ((updateFields m).map (fieldGetValue rec)).mapM db.dbms.bind =
      some ((updateFields m).map fun f => memberCell db.lib f.size f.type (rec f)) := by
    rw [List.mapM_map, Sql.mapM_eq_some_iff, List.map_map]
    exact List.map_congr_left fun f _ => bind_member rec f
  have hread := read_keyUpdate (D := db.dbms) hq hm (by decide) (hm.ident_nm (pkField_mem hpk))
    (ident_updateFields hm) (by simpa using hne)
  have hzip : ((updateFields m).map Field.nm).zip
      ((updateFields m).map fun f => memberCell db.lib f.size f.type (rec f)) =
      (updateFields m).map fun f => (f.nm, memberCell db.lib f.size f.type (rec f)) :=
    List.zip_map'
  rw [hvals, bind_member, Option.bind_some, Option.map_some, hzip] at hread
  rw [show (updateBatchQuery .sqlite m pk rec).params =
    (queryOp (updateBatchQuery .sqlite m pk rec) .update).params from rfl]
  refine (congrArg (Option.map (Sql.Stmt.fold foldCase)) hread).trans ?_
  rw [Option.map_some, Sql.Stmt.fold, List.map_map]
  rfl

variable (db) in
/-- **The UPDATE of one record**: it succeeds, changes the rows with the key, and counts them. -/
theorem update_caseless (hm : Validated m) (hhook : m.beforeUpdate = none)
    (hne : updateFields m ≠ []) (hpk : pkField m = some pk) (hres : Sql.isReserved pk.nm = false)
    (hacc : UpdateAccepted accepts m pk s rec) :
    let done := updateInternal ((caselessBackend db).guard accepts) s
      (updateBatchQuery .sqlite m pk rec) (some rec)
    done.err = .ok ∧
    done.count =
      some (((s.1.db (foldCase m.table)).countP fun r => keyEq db.dbms pk r rec : ℕ) : ℤ) ∧
    done.state.1.db = Function.update s.1.db (foldCase m.table)
      ((s.1.db (foldCase m.table)).map fun r => stepRow db.dbms pk (caselessSets db m) r rec) := by
  have hmodel : (updateBatchQuery .sqlite m pk rec).model = m :=
    (keyQuery_update hm .sqlite pk rec).model_eq
  have hkey : (fun r : Row Cell => db.engine.pred (Sql.eqItems pk.nm
      (memberCell db.lib pk.size pk.type (rec pk))) r == some true) =
      fun r => keyEq db.dbms pk r rec := by
    funext r
    rw [keyEq, bind_member]
    rfl
  have hselects := db.engine.selects_eqItems hres (memberCell db.lib pk.size pk.type (rec pk))
  rw [hkey] at hselects
  -- the statement, once it is read
  have hexec : ((caselessBackend db).guard accepts).exec s
      (buildUpdate (queryOp (updateBatchQuery .sqlite m pk rec) .update))
      (updateBatchQuery .sqlite m pk rec).params =
      (Err.ok, (⟨Function.update s.1.db (foldCase m.table) ((s.1.db (foldCase m.table)).map fun r =>
        stepRow db.dbms pk (caselessSets db m) r rec), s.1.saved⟩ : Store Cell),
        (((s.1.db (foldCase m.table)).countP fun r => keyEq db.dbms pk r rec : ℕ) : ℤ)) := by
    refine (if_pos hacc).trans ?_
    show caselessExec db s _ _ = _
    rw [caselessExec, read_caseless hm hne hpk]
    simp only [Engine.execute, Engine.changes, hselects, Option.map_some]
    rfl
  unfold updateInternal execWithHooks
  rw [hmodel, runHook_none hhook]
  simp only
  have hsql : buildSql (queryOp (updateBatchQuery .sqlite m pk rec) .update) =
      buildUpdate (queryOp (updateBatchQuery .sqlite m pk rec) .update) := rfl
  have hparams : (queryOp (updateBatchQuery .sqlite m pk rec) .update).params =
      (updateBatchQuery .sqlite m pk rec).params := rfl
  rw [hsql, hparams, hexec]
  exact ⟨rfl, rfl, rfl⟩

/-! ## The records of a batch -/

/-- The database accepts the UPDATE of every record of a batch. -/
def UpdatesAccepted (db : SqliteDb) (accepts : Store Cell × ℤ → Text → List Value → Bool)
    (m : Model) (pk : Field) (s : Store Cell × ℤ) (recs : List Record) : Prop :=
  Run.Along (fun s rec => (updateInternal ((caselessBackend db).guard accepts) s
    (updateBatchQuery .sqlite m pk rec) (some rec)).state) (UpdateAccepted accepts m pk) s recs

theorem pk_notMem_cols (hm : Validated m) (hpk : pkField m = some pk)
    (hown : (m.fields.map fun f => foldCase f.nm).Nodup) :
    foldCase pk.nm ∉ ((updateFields m).map fun f => foldCase f.nm).reverse := by
  rw [List.mem_reverse]
  intro h
  obtain ⟨f, hf, hnm⟩ := List.mem_map.mp h
  obtain rfl : f = pk :=
    List.inj_on_of_nodup_map hown (updateFields_sub hf) (pkField_mem hpk) hnm
  exact pk_notMem_updateFields hm hpk (List.mem_map_of_mem hf)

theorem keyEq_stepRow (hread : db.engine.ReadsAt pk.nm (foldCase pk.nm))
    (hnot : foldCase pk.nm ∉ ((updateFields m).map fun f => foldCase f.nm).reverse) (r : Row Cell)
    (rec rec' : Record) :
    keyEq db.dbms pk (stepRow db.dbms pk (caselessSets db m) r rec) rec' =
      keyEq db.dbms pk r rec' := by
  refine keyEq_congr (D := db.dbms) hread ?_ rec'
  unfold stepRow
  split_ifs
  · exact Sql.assign_of_notMem (by rwa [caselessSets_cols]) r
  · rfl

/-- **The loop over the records**: each of them succeeds and changes the rows with its key. -/
theorem batchLoop_caseless (hm : Validated m) (hhook : m.beforeUpdate = none)
    (hne : updateFields m ≠ []) (hpk : pkField m = some pk) (hres : Sql.isReserved pk.nm = false)
    (hread : db.engine.ReadsAt pk.nm (foldCase pk.nm))
    (hown : (m.fields.map fun f => foldCase f.nm).Nodup)
    (hacc : UpdatesAccepted db accepts m pk s recs) (total : ℤ) :
    let out := batchLoop (fun s rec => updateInternal ((caselessBackend db).guard accepts) s
      (updateBatchQuery .sqlite m pk rec) (some rec)) s total recs
    out.1 = .ok ∧
    out.2.1 = total + (recs.map fun rec =>
      (s.1.db (foldCase m.table)).countP fun r => keyEq db.dbms pk r rec).sum ∧
    out.2.2.1.db = Function.update s.1.db (foldCase m.table)
      ((s.1.db (foldCase m.table)).map fun r =>
        recs.foldl (stepRow db.dbms pk (caselessSets db m)) r) := by
  have hnot := pk_notMem_cols hm hpk hown
  induction recs generalizing s total with
  | nil => exact ⟨rfl, (Int.add_zero total).symm, by simp [batchLoop]⟩
  | cons rec recs ih =>
    obtain ⟨herr, hcount, hstate⟩ := update_caseless db hm hhook hne hpk hres hacc.1
    have hrest : UpdatesAccepted db accepts m pk (updateInternal
      ((caselessBackend db).guard accepts) s (updateBatchQuery .sqlite m pk rec)
      (some rec)).state recs := hacc.2
    rw [batchLoop]
    rcases hd : updateInternal ((caselessBackend db).guard accepts) s
      (updateBatchQuery .sqlite m pk rec) (some rec) with ⟨err, q, record, count, s'⟩
    rw [hd] at herr hcount hstate hrest
    simp only at herr hcount hstate hrest ⊢
    subst herr
    have htable : s'.1.db (foldCase m.table) = (s.1.db (foldCase m.table)).map fun r =>
        stepRow db.dbms pk (caselessSets db m) r rec := by
      rw [hstate]
      exact Function.update_self _ _ _
    obtain ⟨hok, hsum, hdb⟩ := ih hrest (total + count.getD 0)
    refine ⟨hok, ?_, ?_⟩
    · have hkeys (rec' : Record) : ((s'.1.db (foldCase m.table)).countP fun r =>
          keyEq db.dbms pk r rec') = (s.1.db (foldCase m.table)).countP fun r =>
            keyEq db.dbms pk r rec' := by
        rw [htable, List.countP_map]
        exact List.countP_congr fun r _ => by
          rw [Function.comp_apply, keyEq_stepRow hread hnot]
      rw [hsum, hcount]
      simp only [hkeys, List.map_cons, List.sum_cons, Option.getD_some]
      omega
    · rw [hdb, htable, hstate, List.map_map, Function.update_idem]
      rfl

/-! ## A unique key -/

/-- No value is the key of two rows, as the database compares them. -/
def UniqueKey (db : SqliteDb) (pk : Field) (rows : List (Row Cell)) : Prop :=
  rows.Pairwise fun r r' => ∀ v, ¬ (db.engine.pred (Sql.eqItems pk.nm v) r = some true ∧
    db.engine.pred (Sql.eqItems pk.nm v) r' = some true)

theorem countP_hasKey (h : UniqueKey db pk rows) (rec : Record) :
    rows.countP (hasKey db pk rec) = if rows.any (hasKey db pk rec) then 1 else 0 := by
  induction rows with
  | nil => rfl
  | cons r rows ih =>
    obtain ⟨hr, hrows⟩ := List.pairwise_cons.mp h
    by_cases hk : hasKey db pk rec r = true
    · have hnone : rows.countP (hasKey db pk rec) = 0 := by
        rw [List.countP_eq_zero]
        exact fun r' hr' hk' => hr r' hr' _ ⟨eq_of_beq hk, eq_of_beq hk'⟩
      rw [List.countP_cons, List.any_cons, hnone, hk]
      rfl
    · rw [List.countP_cons, List.any_cons, Bool.eq_false_iff.mpr hk, Bool.false_or, ih hrows]
      rfl

theorem sum_countP_hasKey (h : UniqueKey db pk rows) (recs : List Record) :
    (recs.map fun rec => rows.countP (hasKey db pk rec)).sum =
      recs.countP fun rec => rows.any (hasKey db pk rec) := by
  induction recs with
  | nil => rfl
  | cons rec recs ih =>
    rw [List.map_cons, List.sum_cons, ih, countP_hasKey h, List.countP_cons]
    omega

/-! ## What becomes of the rows -/

/-- The last record with the key of a row. -/
def lastRecord (db : SqliteDb) (pk : Field) (recs : List Record) (r : Row Cell) : Option Record :=
  (recs.filter fun rec => hasKey db pk rec r).getLast?

/-- What the batch makes of a row: each field has the value of the last record with its key, and the
columns that are no fields of the model, and the key, stay. -/
structure LastWritten (db : SqliteDb) (m : Model) (pk : Field) (recs : List Record)
    (r r' : Row Cell) : Prop where
  written : ∀ rec, lastRecord db pk recs r = some rec → ∀ f ∈ m.fields, f ≠ pk →
    r' (foldCase f.nm) = cellOf db.lib f.size f.type (rec f)
  others : ∀ c, (∀ f ∈ m.fields, f ≠ pk → c ≠ foldCase f.nm) → r' c = r c
  kept : (∀ rec ∈ recs, hasKey db pk rec r = false) → r' = r

variable (db) in
theorem lookup_caselessSets (hown : (m.fields.map fun f => foldCase f.nm).Nodup) {f : Field}
    (hf : f ∈ updateFields m) (rec : Record) :
    (caselessSets db m rec).lookup (foldCase f.nm) =
      some (memberCell db.lib f.size f.type (rec f)) := by
  have hnodup : ((updateFields m).reverse.map fun f => foldCase f.nm).Nodup := by
    rw [List.map_reverse, List.nodup_reverse]
    exact hown.sublist (List.filter_sublist.map _)
  have hzip : caselessSets db m rec = ((updateFields m).reverse.map fun f => foldCase f.nm).zip
      ((updateFields m).reverse.map fun f => memberCell db.lib f.size f.type (rec f)) := by
    rw [caselessSets, ← List.map_reverse]
    exact List.zip_map'.symm
  rw [hzip]
  exact lookup_zip (g := fun f => some (memberCell db.lib f.size f.type (rec f))) hnodup
    (by rw [List.map_map]; rfl) (List.mem_reverse.mpr hf)

theorem lastWritten_foldl (hm : Validated m) (hone : (m.fields.filter fun f => f.isPrimary) = [pk])
    (hread : db.engine.ReadsAt pk.nm (foldCase pk.nm))
    (hown : (m.fields.map fun f => foldCase f.nm).Nodup)
    (hwithin : ∀ rec ∈ recs, ∀ f ∈ m.fields, Within db.lib.limit f.size f.type (rec f))
    (r : Row Cell) :
    LastWritten db m pk recs r (recs.foldl (stepRow db.dbms pk (caselessSets db m)) r) := by
  have hpk := pkField_of_filter hone
  have hlast : lastWith db.dbms pk recs r = lastRecord db pk recs r := by
    rw [lastWith, lastRecord, List.filter_congr fun rec hrec =>
      keyEq_eq_hasKey (hwithin rec hrec pk (pkField_mem hpk)) r]
  rw [foldl_stepRow (D := db.dbms) hread (fun rec _ => caselessSets_cols db m rec)
    (pk_notMem_cols hm hpk hown), hlast]
  cases hr : lastRecord db pk recs r with
  | none =>
    refine ⟨fun rec hrec => ?_, fun _ _ => rfl, fun _ => rfl⟩
    rw [hr] at hrec
    cases hrec
  | some rec =>
    obtain ⟨hmem, hk⟩ := List.mem_filter.mp (List.mem_of_getLast? hr)
    refine ⟨fun rec' hrec' f hf hne => ?_, fun c hc => ?_, fun hnone => ?_⟩
    · obtain rfl := Option.some.inj (hr.symm.trans hrec')
      have hlook := lookup_caselessSets db hown
        ((mem_updateFields_iff hone).mpr ⟨hf, hne⟩) rec
      show Engine.assign (caselessSets db m rec) r (foldCase f.nm) = _
      rw [Engine.assign, hlook, memberCell_of_within (hwithin rec hmem f hf)]
      rfl
    · refine Sql.assign_of_notMem ?_ r
      rw [caselessSets_cols, List.mem_reverse]
      intro hmem'
      obtain ⟨f, hf, hnm⟩ := List.mem_map.mp hmem'
      obtain ⟨hf, hne⟩ := (mem_updateFields_iff hone).mp hf
      exact hc f hf hne hnm.symm
    · rw [hnone rec hmem] at hk
      cases hk

/-- **A batch update writes the last record of each key**, when the names of the fields differ in
more than case, and SQLite has room for the values. -/
theorem updateBatch_last (hm : validateModel m = .ok)
    (hone : (m.fields.filter fun f => f.isPrimary) = [pk]) (hother : ∃ f ∈ m.fields, f ≠ pk)
    (hres : Sql.isReserved pk.nm = false) (hhook : m.beforeUpdate = none)
    (hown : (m.fields.map fun f => foldCase f.nm).Nodup)
    (hread : db.engine.ReadsAt pk.nm (foldCase pk.nm))
    (hunique : UniqueKey db pk (s.1.db (foldCase m.table)))
    (hwithin : ∀ rec ∈ recs, ∀ f ∈ m.fields, Within db.lib.limit f.size f.type (rec f))
    (hacc : UpdatesAccepted db accepts m pk ((caselessBackend db).begin_ s).2 recs) :
    let out := updateBatch ((caselessBackend db).guard accepts) s m recs
    (recs ≠ [] → out.1 = .ok) ∧
    (∀ t, t ≠ foldCase m.table → out.2.2.1.db t = s.1.db t) ∧
    List.Forall₂ (LastWritten db m pk recs) (s.1.db (foldCase m.table))
      (out.2.2.1.db (foldCase m.table)) ∧
    out.2.1 = recs.countP fun rec => (s.1.db (foldCase m.table)).any (hasKey db pk rec) := by
  have hv := validated_of_ok hm
  have hpk := pkField_of_filter hone
  have hne : updateFields m ≠ [] := by
    obtain ⟨f, hf⟩ := hother
    exact List.ne_nil_of_mem ((mem_updateFields_iff hone).mpr hf)
  by_cases hnil : recs = []
  · subst hnil
    have hrows : List.Forall₂ (LastWritten db m pk []) (s.1.db (foldCase m.table))
        (s.1.db (foldCase m.table)) :=
      List.forall₂_same.mpr fun r _ => ⟨nofun, fun _ _ => rfl, fun _ => rfl⟩
    exact ⟨absurd rfl, fun _ _ => rfl, hrows, rfl⟩
  obtain ⟨hok, hsum, hdb⟩ := batchLoop_caseless hv hhook hne hpk hres hread hown hacc 0
  have hout : updateBatch ((caselessBackend db).guard accepts) s m recs =
      batchTransaction ((caselessBackend db).guard accepts)
        (fun s rec => updateInternal ((caselessBackend db).guard accepts) s
          (updateBatchQuery .sqlite m pk rec) (some rec)) s recs := by
    rw [updateBatch, if_neg hnil, hpk]
    rfl
  rw [hout, batchTransaction_eq]
  have hbegin : ((caselessBackend db).guard accepts).begin_ s =
    (caselessBackend db).begin_ s := rfl
  simp only [hbegin, hok, if_true]
  have hafter : ∀ t, ((caselessBackend db).guard accepts).commit t =
    (Err.ok, { t.1 with saved := none }, t.2) := fun _ => rfl
  simp only [hafter, hdb]
  refine ⟨fun _ => trivial, fun t ht => Function.update_of_ne ht _ _, ?_, ?_⟩
  · rw [Function.update_self, List.forall₂_map_right_iff]
    exact List.forall₂_same.mpr fun r _ => lastWritten_foldl hv hone hread hown hwithin r
  · have hcounts : (recs.map fun rec => (s.1.db (foldCase m.table)).countP fun r =>
        keyEq db.dbms pk r rec) =
        recs.map fun rec => (s.1.db (foldCase m.table)).countP (hasKey db pk rec) :=
      List.map_congr_left fun rec hrec => List.countP_congr fun r _ => by
        rw [keyEq_eq_hasKey (hwithin rec hrec pk (pkField_mem hpk))]
    rw [← sum_countP_hasKey hunique, ← hcounts, hsum]
    exact Int.zero_add _

/-! ## Two users -/

/-- The truth value of `c = v`, for cells of one storage class. -/
def caselessPred : List (Sql.Item Cell) → Row Cell → Option Bool
  | [.tok (.word c), .tok (.sym _), .val v], r =>
    if r (foldCase c) = .null ∨ v = .null then none else some (decide (r (foldCase c) = v))
  | _, _ => none

/-- A database that compares cells. -/
def caselessDb : SqliteDb where
  lib := plainSqlite
  engine := ⟨.null, caselessPred⟩
  columns _ := []
  rowId _ rows _ := Int64.ofNat (rows.length + 1)
  lastInsertId _ := 0
  rowsAffected _ := 0

theorem caselessDb_reads (c : Text) : caselessDb.engine.ReadsAt c (foldCase c) := by
  intro v r r' h
  show (if r (foldCase c) = .null ∨ v = .null then none else some (decide (r (foldCase c) = v))) = _
  rw [h]
  rfl

theorem uniqueKey_caselessDb
    (h : rows.Pairwise fun r r' => r (foldCase pk.nm) ≠ r' (foldCase pk.nm)) :
    UniqueKey caselessDb pk rows := by
  have hkey {v : Cell} {r : Row Cell}
      (hr : caselessDb.engine.pred (Sql.eqItems pk.nm v) r = some true) :
      r (foldCase pk.nm) = v := by
    change (if r (foldCase pk.nm) = .null ∨ v = .null then none
      else some (decide (r (foldCase pk.nm) = v))) = some true at hr
    split_ifs at hr
    exact of_decide_eq_true (Option.some.inj hr)
  exact h.imp fun hne v hv => hne ((hkey hv.1).trans (hkey hv.2).symm)

/-- A user, and two columns of texts. -/
def textRow (user : Int64) (c text c' text' : String) : Row Cell := fun name =>
  if name = userId.nm then .integer user
  else if name = c.toList then .text text.toList
  else if name = c'.toList then .text text'.toList
  else .null

/-- A table of users. -/
def userTable (t : String) (rows : List (Row Cell)) : Store Cell × ℤ :=
  (⟨fun name => if name = t.toList then rows else [], none⟩, 0)

/-- A text of 32 bytes. -/
def shortField (name : String) : Field := ⟨some name.toList, .string, 32, 0⟩

/-- A text as it stands in such a field. -/
def shortText (text : String) : Buffer Char 32 := ⟨strncpy text.toList 32, strncpy_length _ _⟩

/-- A table of users with some texts. -/
def usersModel (table : String) (fields : List Field) : Model where
  tableName := some table.toList
  structSize := 68
  fields := userId :: fields
  primaryKey := some userId
  primaryKey_mem := by simp
  beforeCreate := none
  afterCreate := none
  beforeUpdate := none
  afterUpdate := none
  beforeDelete := none
  afterDelete := none
  afterFind := none

theorem within_usersModel {table : String} {names : List String} (rec : Record) :
    ∀ f ∈ (usersModel table (names.map shortField)).fields,
      Within caselessDb.lib.limit f.size f.type (rec f) := by
  intro f hf
  rcases List.mem_cons.mp hf with rfl | hf
  · trivial
  · obtain ⟨name, -, rfl⟩ := List.mem_map.mp hf
    let buf : Buffer Char 32 := rec (shortField name)
    have hlen : (cstr buf.1).length ≤ 32 :=
      ((List.takeWhile_sublist _).length_le).trans buf.2.le
    exact hlen.trans (by decide)

theorem updatesAccepted_all (db : SqliteDb) (m : Model) (pk : Field) (s : Store Cell × ℤ)
    (recs : List Record) : UpdatesAccepted db (fun _ _ _ => true) m pk s recs := by
  induction recs generalizing s with
  | nil => trivial
  | cons rec recs ih => exact ⟨rfl, ih _⟩

/-- The roles of the users of one tenant. -/
def tenantModel : Model := usersModel "user_roles" (["role"].map shortField)

/-- A record of a user. -/
def userRecord (user : Int32) (role : String) : Record :=
  Function.update (Function.update zeroRecord userId user) (shortField "role") (shortText role)

/-- The second user twice, and one who has no row. -/
def roleRecords : List Record := [userRecord 2 "owner", userRecord 3 "admin", userRecord 2 "editor"]

/-- Two users. -/
def roleRows : List (Row Cell) :=
  [textRow 1 "role" "admin" "note" "", textRow 2 "role" "guest" "note" "new"]

theorem updateBatch_last_roleRecords :
    let out := updateBatch ((caselessBackend caselessDb).guard fun _ _ _ => true)
      (userTable "user_roles" roleRows) tenantModel roleRecords
    (roleRecords ≠ [] → out.1 = .ok) ∧
    (∀ t, t ≠ foldCase tenantModel.table →
      out.2.2.1.db t = (userTable "user_roles" roleRows).1.db t) ∧
    List.Forall₂ (LastWritten caselessDb tenantModel userId roleRecords)
      ((userTable "user_roles" roleRows).1.db (foldCase tenantModel.table))
      (out.2.2.1.db (foldCase tenantModel.table)) ∧
    out.2.1 = roleRecords.countP fun rec =>
      ((userTable "user_roles" roleRows).1.db (foldCase tenantModel.table)).any
        (hasKey caselessDb userId rec) :=
  updateBatch_last (by decide +kernel) (by decide +kernel)
    ⟨shortField "role", by decide +kernel, by decide +kernel⟩ (by decide +kernel) rfl
    (by decide +kernel) (caselessDb_reads _) (uniqueKey_caselessDb (by decide +kernel))
    (fun rec _ => within_usersModel rec) (updatesAccepted_all _ _ _ _ _)

/-- Two fields whose names differ in case only. -/
def namesModel : Model := usersModel "people" (["Name", "name"].map shortField)

/-- A user with two names. -/
def namesRecord : Record :=
  Function.update (Function.update (Function.update zeroRecord userId (1 : Int32))
    (shortField "Name") (shortText "Ada")) (shortField "name") (shortText "Bob")

/-- The user, before. -/
def namesRows : List (Row Cell) := [textRow 1 "name" "Eve" "note" ""]

/-- The second name is written into the column of both. -/
theorem updateBatch_mixes_names :
    validateModel namesModel = .ok ∧ (namesModel.fields.filter fun f => f.isPrimary) = [userId] ∧
    (∃ f ∈ namesModel.fields, f ≠ userId) ∧ Sql.isReserved userId.nm = false ∧
    namesModel.beforeUpdate = none ∧ namesModel.afterUpdate = none ∧
    caselessDb.engine.ReadsAt userId.nm (foldCase userId.nm) ∧
    UniqueKey caselessDb userId
      ((userTable "people" namesRows).1.db (foldCase namesModel.table)) ∧
    (∀ rec ∈ [namesRecord], ∀ f ∈ namesModel.fields,
      Within caselessDb.lib.limit f.size f.type (rec f)) ∧
    UpdatesAccepted caselessDb (fun _ _ _ => true) namesModel userId
      ((caselessBackend caselessDb).begin_ (userTable "people" namesRows)).2 [namesRecord] ∧
    ¬ List.Forall₂ (LastWritten caselessDb namesModel userId [namesRecord])
      ((userTable "people" namesRows).1.db (foldCase namesModel.table))
      ((updateBatch ((caselessBackend caselessDb).guard fun _ _ _ => true)
        (userTable "people" namesRows) namesModel [namesRecord]).2.2.1.db
          (foldCase namesModel.table)) := by
  refine ⟨by decide +kernel, by decide +kernel,
    ⟨shortField "Name", by decide +kernel, by decide +kernel⟩, by decide +kernel, rfl, rfl,
    caselessDb_reads _, uniqueKey_caselessDb (by decide +kernel), fun rec _ => within_usersModel rec,
    updatesAccepted_all _ _ _ _ _, fun h => ?_⟩
  have hkey : hasKey caselessDb userId namesRecord (textRow 1 "name" "Eve" "note" "") = true := by
    decide +kernel
  have hnames : ((updateBatch ((caselessBackend caselessDb).guard fun _ _ _ => true)
      (userTable "people" namesRows) namesModel [namesRecord]).2.2.1.db
        (foldCase namesModel.table)).map (fun r => r (foldCase "Name".toList)) =
      [.text "Bob".toList] := by
    decide +kernel
  have hrows : (userTable "people" namesRows).1.db (foldCase namesModel.table) =
    [textRow 1 "name" "Eve" "note" ""] := rfl
  rw [hrows] at h
  obtain ⟨r', rest, hlast, -, heq⟩ := List.forall₂_cons_left_iff.mp h
  rw [heq] at hnames
  have hbob : r' (foldCase "Name".toList) = .text "Bob".toList := (List.cons.inj hnames).1
  have hrecord : lastRecord caselessDb userId [namesRecord] (textRow 1 "name" "Eve" "note" "") =
      some namesRecord := by
    rw [lastRecord, List.filter_singleton, hkey]
    rfl
  have hada := hlast.written namesRecord hrecord (shortField "Name") (by decide +kernel)
    (by decide +kernel)
  rw [show foldCase (shortField "Name").nm = foldCase "Name".toList from rfl, hbob] at hada
  exact absurd hada (by decide +kernel)

end Corm
