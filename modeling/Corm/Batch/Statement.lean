import Corm.Create
import Corm.Reading.Update
import Corm.Sql.Touch

/-!
# The statements of a batch

Each record of a batch is one statement with the condition `key = ?`.

* `read_keyUpdate`, `read_keyDelete`: how the database reads it;
* `keyEq`, `boundSets`, `stepRow`: what it does to a row;
* **`updateBatch_one`**, **`deleteBatch_soft`**, **`deleteBatch_hard`**: what it does to the table.
-/

namespace Corm

open Sql (Tok Row Engine lex lex_append_some)

variable {V : Type} {bt : BackendType} {D : Dbms V} {m : Model} {pk : Field} {s : Store V}
  {q : Query} {c : Text} {rec : Record}

/-! ## Reading -/

/-- The condition on the key, with its placeholder: on every dialect the first one of a text. -/
theorem whereTokens_key (hc : Ident c) (hw : q.where_ = c ++ " = ?".toList) :
    whereTokens q.bt.dialect q 0 = some (some [.word c, .sym '=', placeholderTok q.bt 0]) := by
  have hne : q.where_ ≠ [] := by
    rw [hw]
    exact fun h => hc.ne_nil (List.append_eq_nil_iff.mp h).1
  have hmem : '?' ∉ c := hc.notMem rfl
  have hk : ∀ bt : BackendType, lex bt.dialect (appendWithPlaceholders bt 0 " = ?".toList) =
      some [.sym '=', placeholderTok bt 0] := by
    intro bt
    cases bt <;> rfl
  have hblank : ∀ bt : BackendType,
      Sql.Joins bt.dialect c (appendWithPlaceholders bt 0 " = ?".toList) :=
    fun bt => joins_blank _ _
  rw [whereTokens, if_neg hne, hw, appendWithPlaceholders_append,
    appendWithPlaceholders_id fun _ => hmem, List.count_eq_zero.mpr hmem,
    lex_append_some (lexPart_ident hc) (hk q.bt) (hblank q.bt)]
  rfl

theorem readWhere_key (hb : q.bt ≠ .postgres) (hc : Ident c)
    (hw : q.where_ = c ++ " = ?".toList) (pre : List V) (v : V) :
    readWhere q.bt.dialect q 0 (pre ++ [v]) pre.length = some (some (Sql.eqItems c v)) := by
  have hv : (pre ++ [v])[pre.length]? = some v := by simp
  have htok : placeholderTok q.bt 0 = .param none := by
    cases hbt : q.bt with
    | postgres => exact absurd hbt hb
    | mysql => rfl
    | sqlite => rfl
  have hfill : Sql.fill (pre ++ [v]) pre.length [.word c, .sym '=', .param none] =
      some (Sql.eqItems c v) := by
    rw [Sql.fill_cons, Sql.fill_cons, Sql.fill_cons]
    simp only [Sql.fillTok, Sql.tick, Sql.slot, Option.bind_some, hv]
    rfl
  rw [readWhere, whereTokens_key hc hw, htok]
  show (Sql.fill (pre ++ [v]) pre.length _).map some = _
  rw [hfill]
  rfl

/-- A query that sets the columns `ns` to `vals` where the column `c` has the value `key`. -/
structure KeyQuery (bt : BackendType) (m : Model) (ns : List Text) (vals : List Value) (c : Text)
    (key : Value) (q : Query) : Prop where
  bt_eq : q.bt = bt
  model_eq : q.model = m
  setClause : q.setClause = setText bt 0 ns
  params : q.params = vals ++ [key]
  where_ : q.where_ = c ++ " = ?".toList
  length : ns.length = vals.length

/-- **Such a query as an UPDATE.** -/
theorem read_keyUpdate {ns : List Text} {vals : List Value} {key : Value}
    (hq : KeyQuery bt m ns vals c key q) (hm : Validated m) (hb : bt ≠ .postgres) (hc : Ident c)
    (hns : ∀ n ∈ ns, Ident n) (hne : ns ≠ []) :
    D.read bt.dialect (buildUpdate q) q.params = (vals.mapM D.bind).bind fun vs =>
      (D.bind key).map fun v => .update m.table (ns.zip vs) (some (Sql.eqItems c v)) := by
  obtain ⟨rfl, rfl, hset, hparams, hw, hlen⟩ := hq
  unfold Dbms.read
  rw [hparams, List.mapM_append]
  cases hvs : vals.mapM D.bind with
  | none => rfl
  | some vs =>
    show Option.bind (Option.bind (some vs) fun a => Option.bind ([key].mapM D.bind) _) _ = _
    cases hv : D.bind key with
    | none =>
      rw [List.mapM_cons, hv]
      rfl
    | some v =>
      have hkey : [key].mapM D.bind = some [v] := by
        rw [List.mapM_cons, hv]
        rfl
      have hlen' : ns.length = vs.length := by
        have hl := congrArg List.length (Sql.mapM_eq_some_iff.mp hvs)
        rw [List.length_map, List.length_map] at hl
        omega
      have hzip : ns.zip vs ≠ [] := by
        intro h
        have hl := congrArg List.length h
        rw [List.length_zip, ← hlen', Nat.min_self, List.length_nil] at hl
        exact hne (List.length_eq_zero_iff.mp hl)
      have hfill : Sql.fill ([] ++ vs ++ [v]) 0 (setToks q.bt 0 ns) =
          some (Sql.assignItems (quoteOf q.bt) (ns.zip vs)) :=
        fill_setText (Or.inr rfl) rfl hlen' [v]
      have hr := readStmt_update (δ := q.bt.dialect) hm.table hns hset hzip hne hfill
      rw [marks_setToks hb, hlen', List.nil_append, readWhere_key hb hc hw] at hr
      rw [hkey]
      exact hr

theorem read_keyDelete (hbt : q.bt = bt) (hb : bt ≠ .postgres) (ht : Ident q.model.table)
    (hc : Ident c) (hw : q.where_ = c ++ " = ?".toList) (key : Value) :
    D.read bt.dialect (buildDelete q) [key] =
      (D.bind key).map fun v => .delete q.model.table (some (Sql.eqItems c v)) := by
  subst hbt
  unfold Dbms.read
  rw [List.mapM_cons, List.mapM_nil]
  cases hv : D.bind key with
  | none => rfl
  | some v =>
    have hw' : readWhere q.bt.dialect q 0 [v] 0 = _ := readWhere_key hb hc hw [] v
    show Sql.readStmt q.bt.dialect (buildDelete q) [v] = _
    rw [readStmt_delete ht, hw']
    rfl

/-! ## Effects -/

/-- The row has the value of the record in the column of a field, as the database compares them. -/
def keyEq (D : Dbms V) (f : Field) (r : Row V) (rec : Record) : Bool :=
  match D.bind (fieldGetValue rec f) with
  | some v => D.engine.pred (Sql.eqItems f.nm v) r == some true
  | none => false

theorem keyEq_eq_true {r : Row V} : keyEq D pk r rec = true ↔
    ∃ v, D.bind (fieldGetValue rec pk) = some v ∧
      D.engine.pred (Sql.eqItems pk.nm v) r = some true := by
  unfold keyEq
  cases D.bind (fieldGetValue rec pk) <;> simp

/-- The values of a record for some fields. -/
def boundSets (D : Dbms V) (fs : List Field) (rec : Record) : List (Text × V) :=
  fs.filterMap fun f => (D.bind (fieldGetValue rec f)).map fun v => (f.nm, v)

theorem boundSets_eq {fs : List Field} {vs : List V}
    (h : (fs.mapM fun f => D.bind (fieldGetValue rec f)) = some vs) :
    boundSets D fs rec = (fs.map Field.nm).zip vs := by
  have hmap := Sql.mapM_eq_some_iff.mp h
  clear h
  unfold boundSets
  induction fs generalizing vs with
  | nil => rfl
  | cons f fs ih =>
    cases vs with
    | nil => cases hmap
    | cons v vs =>
      obtain ⟨hf, hfs⟩ := List.cons.inj hmap
      simp only at hf
      have hsome : ((D.bind (fieldGetValue rec f)).map fun v => (f.nm, v)) = some (f.nm, v) := by
        rw [hf]
        rfl
      rw [List.filterMap_cons, hsome]
      exact congrArg ((f.nm, v) :: ·) (ih hfs)

theorem boundSets_cols {fs : List Field} {vs : List V}
    (h : (fs.mapM fun f => D.bind (fieldGetValue rec f)) = some vs) :
    (boundSets D fs rec).map Prod.fst = fs.map Field.nm := by
  have hlen := congrArg List.length (Sql.mapM_eq_some_iff.mp h)
  rw [List.length_map, List.length_map] at hlen
  rw [boundSets_eq h, List.map_fst_zip]
  simp [hlen]

/-- What the UPDATE of a record does to a row. -/
def stepRow (D : Dbms V) (pk : Field) (sets : Record → List (Text × V)) (r : Row V) (rec : Record) :
    Row V :=
  if keyEq D pk r rec then Engine.assign (sets rec) r else r

theorem selects_key {v : V} {p : Row V → Bool}
    (h : D.engine.selects (some (Sql.eqItems pk.nm v)) = some p)
    (hv : D.bind (fieldGetValue rec pk) = some v) : p = fun r => keyEq D pk r rec := by
  change (Sql.parseWhere (Sql.eqItems pk.nm v)).map D.engine.holds = some p at h
  rw [Sql.parseWhere_eq] at h
  split_ifs at h
  · cases h
  obtain rfl := Option.some.inj h
  funext r
  rw [Sql.holds_single, keyEq, hv]

theorem execute_keyUpdate {t : Text} {sets : Record → List (Text × V)} {v : V}
    {db db' : Sql.Database V} (hv : D.bind (fieldGetValue rec pk) = some v)
    (h : D.engine.execute D.omitted db (.update t (sets rec) (some (Sql.eqItems pk.nm v))) =
      some db') :
    db' = Function.update db t ((db t).map fun r => stepRow D pk sets r rec) := by
  obtain ⟨p, hp, rfl⟩ := Option.map_eq_some_iff.mp h
  rw [selects_key hp hv]
  rfl

theorem execute_keyDelete {t : Text} {v : V} {db db' : Sql.Database V}
    (hv : D.bind (fieldGetValue rec pk) = some v)
    (h : D.engine.execute D.omitted db (.delete t (some (Sql.eqItems pk.nm v))) = some db') :
    db' = Function.update db t ((db t).filter fun r => !keyEq D pk r rec) := by
  obtain ⟨p, hp, rfl⟩ := Option.map_eq_some_iff.mp h
  rw [selects_key hp hv]

/-! ## One record -/

theorem updateFields_sub {f : Field} (h : f ∈ updateFields m) : f ∈ m.fields :=
  List.mem_of_mem_filter h

theorem pkField_mem (h : pkField m = some pk) : pk ∈ m.fields := List.mem_of_find?_eq_some h

theorem mem_updateFields_iff {f : Field} (hone : (m.fields.filter fun f => f.isPrimary) = [pk]) :
    f ∈ updateFields m ↔ f ∈ m.fields ∧ f ≠ pk := by
  have hmem : f ∈ m.fields ∧ f.isPrimary = true ↔ f = pk := by
    rw [← List.mem_filter, hone, List.mem_singleton]
  rw [updateFields, List.mem_filter, Bool.not_eq_true']
  refine and_congr_right fun hf => ?_
  rw [← Bool.not_eq_true, ne_eq, ← hmem, and_iff_right hf]

theorem pkField_of_filter (hone : (m.fields.filter fun f => f.isPrimary) = [pk]) :
    pkField m = some pk := by
  rw [pkField, ← List.head?_filter, hone]
  rfl

theorem ident_updateFields (hm : Validated m) : ∀ n ∈ (updateFields m).map Field.nm, Ident n := by
  intro n hn
  obtain ⟨f, hf, rfl⟩ := List.mem_map.mp hn
  exact hm.ident_nm (updateFields_sub hf)

theorem keyQuery_update (hm : Validated m) (bt : BackendType) (pk : Field) (rec : Record) :
    KeyQuery bt m ((updateFields m).map Field.nm) ((updateFields m).map (fieldGetValue rec)) pk.nm
      (fieldGetValue rec pk) (updateBatchQuery bt m pk rec) := by
  unfold updateBatchQuery
  rw [foldl_querySet (fun f hf => hm.ident f (updateFields_sub hf)) (fieldGetValue rec)]
  exact ⟨rfl, rfl, rfl, rfl, rfl, by simp⟩

/-- The query of one record of `corm_delete_batch`, on a model with a soft-delete field. -/
theorem keyQuery_softDelete (hm : Validated m) {f : Field} (hf : softDeleteField m = some f)
    (bt : BackendType) (pk : Field) (rec : Record) :
    KeyQuery bt m [f.nm] [tombstone] pk.nm (fieldGetValue rec pk) (deleteBatchQuery bt m pk rec) := by
  unfold deleteBatchQuery
  simp only [hf]
  rw [querySet_eq (hm.ident f (List.mem_of_find?_eq_some hf))]
  exact ⟨rfl, rfl, rfl, rfl, rfl, rfl⟩

theorem deleteBatchOne_soft {σ ρ : Type} {b : Backend σ ρ} {s : σ} {f : Field}
    (hf : softDeleteField m = some f) :
    deleteBatchOne b m s q rec = updateInternal b s q (some rec) := by
  unfold deleteBatchOne
  simp only [hf]

theorem keyUpdate_run (hm : Validated m) (hb : bt ≠ .postgres) (hpk : pkField m = some pk)
    {ns : List Text} {vals : List Value} (hq : KeyQuery bt m ns vals pk.nm (fieldGetValue rec pk) q)
    (hns : ∀ n ∈ ns, Ident n) (hne : ns ≠ []) {record : Option Record}
    (hok : (updateInternal (sqlBackend bt D) s q record).err = .ok) :
    ∃ vs v db, vals.mapM D.bind = some vs ∧ D.bind (fieldGetValue rec pk) = some v ∧
      D.read bt.dialect (buildUpdate (queryOp q .update)) q.params =
        some (.update m.table (ns.zip vs) (some (Sql.eqItems pk.nm v))) ∧
      D.engine.execute D.omitted s.db (.update m.table (ns.zip vs) (some (Sql.eqItems pk.nm v))) =
        some db ∧
      (updateInternal (sqlBackend bt D) s q record).state = { s with db } := by
  have hid : Ident pk.nm := hm.ident_nm (pkField_mem hpk)
  have hq' : KeyQuery bt m ns vals pk.nm (fieldGetValue rec pk) (queryOp q .update) :=
    ⟨hq.1, hq.2, hq.3, hq.4, hq.5, hq.6⟩
  obtain ⟨_, db, -, hrun, hstate⟩ := execWithHooks_ok hok
  change (D.read bt.dialect (buildUpdate (queryOp q .update)) (queryOp q .update).params).bind _ = _ at hrun
  have hread := read_keyUpdate (D := D) hq' hm hb hid hns hne
  rw [hread] at hrun
  obtain ⟨stmt, hstmt, hdb⟩ := Option.bind_eq_some_iff.mp hrun
  rw [hstmt] at hread
  obtain ⟨vs, hvs, hstmt⟩ := Option.bind_eq_some_iff.mp hstmt
  obtain ⟨v, hv, rfl⟩ := Option.map_eq_some_iff.mp hstmt
  exact ⟨vs, v, db, hvs, hv, hread, hdb, hstate⟩

theorem keyUpdate_ok (hm : Validated m) (hb : bt ≠ .postgres) (hpk : pkField m = some pk)
    {ns : List Text} {vals : List Value} (hq : KeyQuery bt m ns vals pk.nm (fieldGetValue rec pk) q)
    (hns : ∀ n ∈ ns, Ident n) (hne : ns ≠ []) {record : Option Record}
    (hok : (updateInternal (sqlBackend bt D) s q record).err = .ok) :
    ∃ vs, vals.mapM D.bind = some vs ∧
      (updateInternal (sqlBackend bt D) s q record).state =
        { s with db := Function.update s.db m.table ((s.db m.table).map fun r =>
            stepRow D pk (fun _ => ns.zip vs) r rec) } := by
  obtain ⟨vs, v, db, hvs, hv, -, hdb, hstate⟩ := keyUpdate_run hm hb hpk hq hns hne hok
  refine ⟨vs, hvs, ?_⟩
  rw [← execute_keyUpdate hv hdb]
  exact hstate

/-- **The UPDATE of one record** of a batch. -/
theorem updateBatch_one (hm : Validated m) (hb : bt ≠ .postgres) (hne : updateFields m ≠ [])
    (hpk : pkField m = some pk)
    (hok : (updateInternal (sqlBackend bt D) s (updateBatchQuery bt m pk rec) (some rec)).err =
      .ok) :
    (∃ vs, ((updateFields m).mapM fun f => D.bind (fieldGetValue rec f)) = some vs) ∧
    (updateInternal (sqlBackend bt D) s (updateBatchQuery bt m pk rec) (some rec)).state =
      { s with db := Function.update s.db m.table ((s.db m.table).map fun r =>
          stepRow D pk (boundSets D (updateFields m)) r rec) } := by
  obtain ⟨vs, hvs, hstate⟩ := keyUpdate_ok hm hb hpk (keyQuery_update hm bt pk rec)
    (ident_updateFields hm) (by simpa using hne) hok
  rw [List.mapM_map] at hvs
  have hvs' : ((updateFields m).mapM fun f => D.bind (fieldGetValue rec f)) = some vs := hvs
  refine ⟨⟨vs, hvs'⟩, ?_⟩
  rw [hstate, ← boundSets_eq hvs']
  rfl

/-- **The soft delete of one record** of a batch. -/
theorem deleteBatch_soft (hm : Validated m) (hb : bt ≠ .postgres) (hpk : pkField m = some pk)
    {f : Field} (hf : softDeleteField m = some f)
    (hok : (deleteBatchOne (sqlBackend bt D) m s (deleteBatchQuery bt m pk rec) rec).err = .ok) :
    ∃ v, D.bind tombstone = some v ∧
      (deleteBatchOne (sqlBackend bt D) m s (deleteBatchQuery bt m pk rec) rec).state =
        { s with db := Function.update s.db m.table ((s.db m.table).map fun r =>
            stepRow D pk (fun _ => [(f.nm, v)]) r rec) } := by
  have hns : ∀ n ∈ [f.nm], Ident n := by
    intro n hn
    rw [List.mem_singleton.mp hn]
    exact hm.ident_nm (List.mem_of_find?_eq_some hf)
  rw [deleteBatchOne_soft hf] at hok ⊢
  obtain ⟨vs, hvs, hstate⟩ := keyUpdate_ok hm hb hpk (keyQuery_softDelete hm hf bt pk rec) hns
    (by simp) hok
  rw [List.mapM_cons, List.mapM_nil] at hvs
  obtain ⟨v, hv, hvs⟩ := Option.bind_eq_some_iff.mp hvs
  obtain rfl := Option.some.inj hvs
  exact ⟨v, hv, hstate⟩

/-- **The DELETE of one record** of a batch. -/
theorem deleteBatch_hard (hm : Validated m) (hb : bt ≠ .postgres) (hpk : pkField m = some pk)
    (hf : softDeleteField m = none)
    (hok : (deleteBatchOne (sqlBackend bt D) m s (deleteBatchQuery bt m pk rec) rec).err = .ok) :
    (deleteBatchOne (sqlBackend bt D) m s (deleteBatchQuery bt m pk rec) rec).state =
      { s with db := Function.update s.db m.table ((s.db m.table).filter fun r =>
          !keyEq D pk r rec) } := by
  have hid : Ident pk.nm := hm.ident_nm (pkField_mem hpk)
  have hq : deleteBatchQuery bt m pk rec = whereKey (queryNew bt m) pk rec := by
    unfold deleteBatchQuery
    simp only [hf]
  have hone : deleteBatchOne (sqlBackend bt D) m s (deleteBatchQuery bt m pk rec) rec =
      execWithHooks (sqlBackend bt D) m.beforeDelete m.afterDelete (sqlBackend bt D).rowsAffected
        (fun q _ => q) .delete s (whereKey (queryNew bt m) pk rec) (some rec) := by
    have hm' : softDeleteField (whereKey (queryNew bt m) pk rec).model = none := hf
    unfold deleteBatchOne deleteInternal
    simp only [hf, hq, hm']
    rfl
  rw [hone] at hok ⊢
  obtain ⟨_, db, -, hrun, hstate⟩ := execWithHooks_ok hok
  have hbt : (queryOp (whereKey (queryNew bt m) pk rec) .delete).bt = bt := rfl
  have hread := read_keyDelete (D := D) hbt hb hm.table hid rfl (fieldGetValue rec pk)
  change (D.read bt.dialect (buildDelete (queryOp (whereKey (queryNew bt m) pk rec) .delete))
    [fieldGetValue rec pk]).bind _ = _ at hrun
  rw [hread] at hrun
  obtain ⟨stmt, hstmt, hdb⟩ := Option.bind_eq_some_iff.mp hrun
  obtain ⟨v, hv, rfl⟩ := Option.map_eq_some_iff.mp hstmt
  have hdb' := execute_keyDelete hv hdb
  rw [hstate, hdb']
  rfl

end Corm
