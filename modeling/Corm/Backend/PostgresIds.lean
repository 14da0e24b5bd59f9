import Corm.Backend.PostgresParam
import Corm.Create
import Corm.Exec
import Corm.Lib.Run
import Corm.Lib.Strtol
import Corm.Placeholders.Update

/-!
# PostgreSQL: the ids of inserted rows

`pg_exec` keeps the id that an INSERT returns, `corm_build_sql` asks for one when the model has a
primary key, and `corm_create` reports the one that is kept.

* `PgResult`, `PgServer`, `PgServer.Inserts`: the server, and what it returns for an INSERT;
* `pgExec`, `pgBackend`, `pgCreate`: the backend, and a `corm_create` that succeeds;
* `Fresh`, `Keyed`: what a call is to do with the caller's variable, and when it does;
* `pgCreate_keyed`, `pgCreate_keyless`: the id that a create reports;
* **`insert_ids_fresh_iff`**: no id is stale in a run exactly when each of its calls is one of these.
-/

namespace Corm

open Sql (Tok lex)

/-! ## The server -/

/-- A `PGresult`: `ok` is a status `PGRES_COMMAND_OK` or `PGRES_TUPLES_OK`, and the rows are what
`PQgetvalue` returns. -/
structure PgResult where
  ok : Bool
  cmdTuples : Option Text
  nfields : ℕ
  rows : List (List Text)
  deriving DecidableEq

/-- A server with states `σ`: `PQexecParams`, and `PQexec` without parameters; and the integer key
that it generates for the row of an INSERT. -/
structure PgServer (σ : Type) where
  exec : σ → Text → List PgParam → PgResult × σ
  key : σ → Text → List PgParam → Int64

/-- The tokens of an INSERT, with a RETURNING or without one. -/
def IsInsert (returning : Bool) (sql : Text) : Prop :=
  ∃ ts, lex .postgres sql = some ts ∧ ts.head? = some (.word "INSERT".toList) ∧
    (.word "RETURNING".toList ∈ ts ↔ returning = true)

/-- **What the server returns for an INSERT**: the number of rows, and no tuples without RETURNING,
one tuple with the key with it. -/
structure PgServer.Inserts {σ : Type} (srv : PgServer σ) : Prop where
  count : ∀ returning s sql params, IsInsert returning sql → (srv.exec s sql params).1.ok = true →
    (srv.exec s sql params).1.cmdTuples = some ['1']
  none : ∀ s sql params, IsInsert false sql → (srv.exec s sql params).1.ok = true →
    (srv.exec s sql params).1.rows = []
  one : ∀ s sql params, IsInsert true sql → (srv.exec s sql params).1.ok = true →
    (srv.exec s sql params).1.nfields = 1 ∧
    (srv.exec s sql params).1.rows = [[(toString (srv.key s sql params).toInt).toList]]

/-! ## The backend -/

/-- `corm_t` with a PostgreSQL connection. The statements sent are part of the model: the latest
first, each with the state of the server before it. -/
structure PgConn (σ : Type) where
  server : σ
  lastInsertId : ℤ
  rowsAffected : ℤ
  sent : List (σ × Text × List PgParam)
  deriving DecidableEq

/-- `PQcmdTuples(pgres) ? atoi(PQcmdTuples(pgres)) : 0`. -/
def pgAffected (res : PgResult) : Option ℤ :=
  match res.cmdTuples with
  | some s => Strtol.atoi s
  | none => some 0

/-- What `last_insert_id_val` is after a result. -/
def pgKeptId (res : PgResult) (affected old : ℤ) : ℤ :=
  if 0 < affected ∧ res.rows.length = 1 ∧ 1 ≤ res.nfields then
    match res.rows.head?.bind List.head? with
    | some (c :: s) => Strtol.strtoll (c :: s)
    | _ => old
  else old

variable {σ ρ : Type} (srv : PgServer σ) (formatG : UInt64 → Text)

/-- `pg_exec`; undefined when a parameter is, or the number of rows is not an `int`. -/
def pgExec (conn : PgConn σ) (sql : Text) (params : List Value) : Option (Err × PgConn σ) := do
  let ps ← params.mapM (pgExecParam formatG)
  let res := srv.exec conn.server sql ps
  let conn := { conn with server := res.2, sent := (conn.server, sql, ps) :: conn.sent }
  if res.1.ok then
    let affected ← pgAffected res.1
    some (.ok, { conn with
      rowsAffected := affected
      lastInsertId := pgKeptId res.1 affected conn.lastInsertId })
  else some (.backend, conn)

/-- The backend, of which `corm_create` calls `exec` and `last_insert_id`; the other functions are
those of `rest`. There is no connection after undefined behaviour. -/
def pgBackend (rest : Backend (Option (PgConn σ)) ρ) : Backend (Option (PgConn σ)) ρ :=
  { rest with
    type := .postgres
    exec := fun conn sql params =>
      match conn.bind fun conn => pgExec srv formatG conn sql params with
      | some (err, conn) => (err, some conn)
      | none => (.backend, none)
    lastInsertId := fun conn => (conn.map PgConn.lastInsertId).getD 0
    rowsAffected := fun conn => (conn.map PgConn.rowsAffected).getD 0 }

/-- A call of `corm_create` on a query of the connection: `insertId` is what the variable of the
caller holds, if it passes a pointer. -/
structure CreateCall where
  query : Query
  record : Record
  insertId : Option ℤ
  bt : query.bt = .postgres
  validated : Validated query.model

/-- A `corm_create` that succeeds: the connection and the variable of the caller after it. -/
def pgCreate (rest : Backend (Option (PgConn σ)) ρ) (conn : PgConn σ) (call : CreateCall) :
    Option (PgConn σ × Option ℤ) :=
  let done := create (pgBackend srv formatG rest) (some conn) call.query call.record
  if done.err = .ok then
    done.state.map fun conn => (conn, call.insertId.map fun old => done.count.getD old)
  else none

/-- The connection after it. -/
def pgStep (rest : Backend (Option (PgConn σ)) ρ) (conn : PgConn σ) (call : CreateCall) :
    Option (PgConn σ) := (pgCreate srv formatG rest conn call).map Prod.fst

/-- The key that the server generated for the last statement. -/
def PgServer.generated (conn : PgConn σ) : Option Int64 :=
  conn.sent.head?.map fun sent => srv.key sent.1 sent.2.1 sent.2.2

/-- **The call reports no stale id**: it leaves the variable as it is, or stores the key that the
server generated for its row. -/
def Fresh (rest : Backend (Option (PgConn σ)) ρ) (conn : PgConn σ) (call : CreateCall) : Prop :=
  ∀ conn' after, pgCreate srv formatG rest conn call = some (conn', after) →
    after = call.insertId ∨ call.query.model.primaryKey.isSome = true ∧
      ∃ key, srv.generated conn' = some key ∧ after = some key.toInt

/-- There is no variable, or a key for it, or it holds the id that is kept. -/
def Keyed (conn : PgConn σ) (call : CreateCall) : Prop :=
  call.insertId = none ∨ call.query.model.primaryKey.isSome = true ∨
    call.insertId = some conn.lastInsertId

variable {srv formatG} {rest : Backend (Option (PgConn σ)) ρ} {conn conn' : PgConn σ}
  {call : CreateCall} {after : Option ℤ}

/-! ## The statement -/

theorem word_notMem_nameToks (w : Text) (bt : BackendType) (ns : List Text) :
    .word w ∉ nameToks bt ns := by
  intro h
  obtain h | ⟨ts, hts, h⟩ := mem_commaToks h
  · cases h
  · obtain ⟨s, -, rfl⟩ := List.mem_map.mp hts
    simp at h

theorem word_notMem_valToks (w : Text) (bt : BackendType) (k m : ℕ) :
    .word w ∉ valToks bt k m := by
  intro h
  obtain h | ⟨ts, hts, h⟩ := mem_commaToks h
  · cases h
  · obtain ⟨j, -, rfl⟩ := List.mem_map.mp hts
    simp [placeholderTok] at h

theorem word_mem_returningToks (q : Query) :
    .word "RETURNING".toList ∈ returningToks q ↔ (returningCol q).isSome = true := by
  unfold returningToks
  cases returningCol q <;> simp

theorem returningCol_postgres {q : Query} (h : q.bt = .postgres) :
    returningCol q = q.model.primaryKey.map Field.nm := by
  unfold returningCol
  rw [h]
  cases q.model.primaryKey <;> rfl

/-- **The INSERT of a validated model** asks for a key exactly when the model has one. -/
theorem isInsert_buildInsert (call : CreateCall) :
    IsInsert call.query.model.primaryKey.isSome (buildInsert (queryOp call.query .insert)) := by
  have hm := call.validated
  have hcol : returningCol (queryOp call.query .insert) = call.query.model.primaryKey.map Field.nm :=
    returningCol_postgres call.bt
  have hret : ∀ c, returningCol (queryOp call.query .insert) = some c → Ident c := by
    intro c hc
    rw [hcol] at hc
    obtain ⟨pk, hpk, rfl⟩ := Option.map_eq_some_iff.mp hc
    exact hm.ident_nm (call.query.model.primaryKey_mem pk hpk)
  have hlex := @lex_buildInsert .postgres (queryOp call.query .insert) hm.table
    (fun f hf => hm.ident_nm hf) hret
  refine ⟨_, hlex, rfl, ?_⟩
  have hsome : (returningCol (queryOp call.query .insert)).isSome =
      call.query.model.primaryKey.isSome := by rw [hcol, Option.isSome_map]
  rw [← hsome, ← word_mem_returningToks]
  simp [word_notMem_nameToks, word_notMem_valToks]

/-! ## One call -/

theorem pgExec_ok {sql : Text} {params : List Value}
    (h : pgExec srv formatG conn sql params = some (.ok, conn')) :
    ∃ ps affected, (srv.exec conn.server sql ps).1.ok = true ∧
      pgAffected (srv.exec conn.server sql ps).1 = some affected ∧
      conn'.lastInsertId = pgKeptId (srv.exec conn.server sql ps).1 affected conn.lastInsertId ∧
      conn'.sent.head? = some (conn.server, sql, ps) := by
  obtain ⟨ps, -, hps⟩ := Option.bind_eq_some_iff.mp h
  simp only at hps
  split_ifs at hps with hok
  · obtain ⟨affected, haffected, hconn⟩ := Option.bind_eq_some_iff.mp hps
    obtain ⟨-, rfl⟩ := Prod.mk.inj (Option.some.inj hconn)
    exact ⟨ps, affected, hok, haffected, rfl, rfl⟩
  · cases (Prod.mk.inj (Option.some.inj hps)).1

theorem exec_pgBackend {sql : Text} {params : List Value}
    (h : (pgBackend srv formatG rest).exec (some conn) sql params = (.ok, some conn')) :
    pgExec srv formatG conn sql params = some (.ok, conn') := by
  replace h : (match pgExec srv formatG conn sql params with
    | some (err, conn) => (err, some conn)
    | none => (.backend, none)) = (Err.ok, some conn') := h
  rcases hexec : pgExec srv formatG conn sql params with _ | ⟨err, conn₁⟩
  · rw [hexec] at h
    cases h
  · rw [hexec] at h
    obtain ⟨rfl, hconn⟩ := Prod.mk.inj h
    rw [Option.some.inj hconn]

/-- **A create that succeeds** sent its INSERT, and reports the id that is kept after it. -/
theorem pgCreate_cases (h : pgCreate srv formatG rest conn call = some (conn', after)) :
    (∃ params, pgExec srv formatG conn (buildInsert (queryOp call.query .insert)) params =
      some (.ok, conn')) ∧
    after = call.insertId.map fun _ => conn'.lastInsertId := by
  unfold pgCreate create execWithHooks at h
  rcases hhook : runHook call.query.model.beforeCreate (some call.record) with ⟨err, record⟩
  rw [hhook] at h
  cases err with
  | ok =>
    simp only at h
    rcases hexec : (pgBackend srv formatG rest).exec (some conn)
      (buildSql (queryOp call.query .insert))
      (bindRecord (queryOp call.query .insert) record).params with ⟨err, state⟩
    rw [hexec] at h
    cases err with
    | ok =>
      simp only [if_true] at h
      obtain ⟨conn₁, rfl, hout⟩ := Option.map_eq_some_iff.mp h
      obtain ⟨rfl, rfl⟩ := Prod.mk.inj hout
      exact ⟨⟨_, exec_pgBackend hexec⟩, rfl⟩
    | _ => cases h
  | _ => cases h

theorem strtoll_toString (n : Int64) : Strtol.strtoll (toString n.toInt).toList = n.toInt := by
  have hlo : -2 ^ 63 ≤ n.toInt := n.le_toInt
  have hhi : n.toInt < 2 ^ 63 := n.toInt_lt
  have hvalue : Strtol.value (toString n.toInt).toList = n.toInt := by
    cases n.toInt with
    | ofNat k =>
      have hk := @Strtol.value_toDigits [] k rfl
      rw [List.append_nil] at hk
      rw [toList_ofNat, hk]
      rfl
    | negSucc k =>
      have hk := @Strtol.value_neg [] (k + 1) rfl
      rw [List.append_nil] at hk
      rw [toList_negSucc, hk]
      rfl
  rw [Strtol.strtoll_eq (by rwa [hvalue]) (by rwa [hvalue]), hvalue]

theorem exists_toString (z : ℤ) : ∃ c s, (toString z).toList = c :: s := by
  cases z with
  | ofNat k =>
    rw [toList_ofNat]
    exact List.exists_cons_of_ne_nil Nat.toDigits_ne_nil
  | negSucc k => exact ⟨_, _, toList_negSucc k⟩

variable (hsrv : srv.Inserts)

include hsrv

/-- **With a key** a create reports it. -/
theorem pgCreate_keyed (h : pgCreate srv formatG rest conn call = some (conn', after))
    (hkey : call.query.model.primaryKey.isSome = true) :
    ∃ key, srv.generated conn' = some key ∧ after = call.insertId.map fun _ => key.toInt := by
  obtain ⟨⟨params, hexec⟩, rfl⟩ := pgCreate_cases h
  obtain ⟨ps, affected, hok, haffected, hid, hsent⟩ := pgExec_ok hexec
  have hinsert := isInsert_buildInsert call
  rw [hkey] at hinsert
  obtain ⟨hfields, hrows⟩ := hsrv.one _ _ _ hinsert hok
  have hone : affected = 1 := by
    rw [pgAffected, hsrv.count _ _ _ _ hinsert hok] at haffected
    exact (Option.some.inj haffected).symm
  obtain ⟨c, s, htext⟩ := exists_toString
    (srv.key conn.server (buildInsert (queryOp call.query .insert)) ps).toInt
  have hkept : conn'.lastInsertId =
      (srv.key conn.server (buildInsert (queryOp call.query .insert)) ps).toInt := by
    rw [hid, pgKeptId, hrows, hfields, hone, if_pos ⟨by decide, rfl, by decide⟩, htext]
    show Strtol.strtoll (c :: s) = _
    rw [← htext, strtoll_toString]
  refine ⟨_, by rw [PgServer.generated, hsent]; rfl, ?_⟩
  rw [hkept]

/-- **Without a key** a create reports the id that was kept before it. -/
theorem pgCreate_keyless (h : pgCreate srv formatG rest conn call = some (conn', after))
    (hkey : call.query.model.primaryKey.isSome = false) :
    after = call.insertId.map fun _ => conn.lastInsertId := by
  obtain ⟨⟨params, hexec⟩, rfl⟩ := pgCreate_cases h
  obtain ⟨ps, affected, hok, -, hid, -⟩ := pgExec_ok hexec
  have hinsert := isInsert_buildInsert call
  rw [hkey] at hinsert
  have hrows := hsrv.none _ _ _ hinsert hok
  rw [hid, pgKeptId, hrows, if_neg (by simp)]

omit hsrv

/-! ## Runs -/

/-- **No id is stale** in a run of creates exactly when each call that passes a pointer is for a
model with a primary key, or its variable holds the id that is kept already. -/
theorem insert_ids_fresh_iff (hsrv : srv.Inserts) (formatG : UInt64 → Text)
    (rest : Backend (Option (PgConn σ)) ρ) (conn : PgConn σ) (calls : List CreateCall) :
    Run.EachStep (pgStep srv formatG rest) (Fresh srv formatG rest) conn calls ↔
      Run.EachStep (pgStep srv formatG rest) Keyed conn calls := by
  refine Run.eachStep_congr (fun conn call conn' hstep => ?_) conn calls
  obtain ⟨⟨conn', after⟩, hcreate, rfl⟩ := Option.map_eq_some_iff.mp hstep
  cases hkey : call.query.model.primaryKey.isSome with
  | true =>
    refine ⟨fun _ => Or.inr (Or.inl hkey), fun _ conn₁ after₁ h => ?_⟩
    obtain ⟨key, hgen, rfl⟩ := pgCreate_keyed hsrv h hkey
    cases call.insertId with
    | none => exact Or.inl rfl
    | some old => exact Or.inr ⟨hkey, key, hgen, rfl⟩
  | false =>
    have hafter := pgCreate_keyless hsrv hcreate hkey
    constructor
    · intro hfresh
      obtain hsame | ⟨hsome, -⟩ := hfresh conn' after hcreate
      · rw [hafter] at hsame
        cases hid : call.insertId with
        | none => exact Or.inl hid
        | some old =>
          rw [hid] at hsame
          exact Or.inr (Or.inr (hid.trans hsame.symm))
      · rw [hkey] at hsome
        cases hsome
    · intro hkeyed conn₁ after₁ h
      rw [pgCreate_keyless hsrv h hkey]
      rcases hkeyed with hid | hsome | hid
      · exact Or.inl (by rw [hid]; rfl)
      · rw [hkey] at hsome
        cases hsome
      · exact Or.inl (by rw [hid]; rfl)

/-! ## A server that counts -/

/-- A server that numbers the rows it inserts. -/
def countingServer : PgServer ℕ where
  exec n sql _ :=
    match lex .postgres sql with
    | some (.word w :: ts) =>
      if w = "INSERT".toList then
        (if .word "RETURNING".toList ∈ ts then
          ⟨true, some ['1'], 1, [[(toString (Int64.ofNat (n + 1)).toInt).toList]]⟩
        else ⟨true, some ['1'], 0, []⟩, n + 1)
      else (⟨false, none, 0, []⟩, n)
    | _ => (⟨false, none, 0, []⟩, n)
  key n _ _ := Int64.ofNat (n + 1)

theorem countingServer_exec {returning : Bool} {sql : Text} (h : IsInsert returning sql) (n : ℕ)
    (params : List PgParam) : (countingServer.exec n sql params).1 =
      if returning then ⟨true, some ['1'], 1, [[(toString (Int64.ofNat (n + 1)).toInt).toList]]⟩
      else ⟨true, some ['1'], 0, []⟩ := by
  obtain ⟨ts, hlex, hhead, hret⟩ := h
  obtain ⟨ts, rfl⟩ : ∃ us, ts = .word "INSERT".toList :: us := by
    cases ts with
    | nil => cases hhead
    | cons t us =>
      obtain rfl := Option.some.inj hhead
      exact ⟨us, rfl⟩
  have hmem : .word "RETURNING".toList ∈ ts ↔ returning = true := by
    rw [← hret]
    simp
  simp only [countingServer, hlex, if_true]
  cases returning with
  | true => rw [if_pos (hmem.mpr rfl), if_pos rfl]
  | false => rw [if_neg (by simpa using hmem), if_neg (by simp)]

theorem countingServer_inserts : countingServer.Inserts where
  count returning n sql params h _ := by
    rw [countingServer_exec h]
    cases returning <;> rfl
  none n sql params h _ := by
    rw [countingServer_exec h]
    rfl
  one n sql params h _ := by
    rw [countingServer_exec h]
    exact ⟨rfl, rfl⟩

/-- Functions of a backend that `corm_create` does not call. -/
def uncalled : Backend (Option (PgConn ℕ)) Unit where
  type := .postgres
  exec conn _ _ := (.ok, conn)
  query conn _ _ := (.ok, none, conn)
  begin_ conn := (.ok, conn)
  commit conn := (.ok, conn)
  rollback conn := (.ok, conn)
  lastInsertId _ := 0
  rowsAffected _ := 0

/-- The model of `test_query.c` without its primary key. -/
def keylessModel : Model :=
  { testUserModel with
    primaryKey := none
    primaryKey_mem := by simp }

/-- A create of an empty record with a key. -/
def keyedCall : CreateCall where
  query := queryNew .postgres testUserModel
  record := zeroRecord
  insertId := some 0
  bt := rfl
  validated := validated_of_ok (by decide +kernel)

/-- A create of an empty record without a key; its variable holds -1. -/
def keylessCall : CreateCall where
  query := queryNew .postgres keylessModel
  record := zeroRecord
  insertId := some (-1)
  bt := rfl
  validated := validated_of_ok (by decide +kernel)

theorem insert_ids_fresh_iff_counting :
    Run.EachStep (pgStep countingServer (fun _ => []) uncalled)
      (Fresh countingServer (fun _ => []) uncalled) ⟨0, 0, 0, []⟩ [keyedCall, keylessCall] ↔
    Run.EachStep (pgStep countingServer (fun _ => []) uncalled) Keyed ⟨0, 0, 0, []⟩
      [keyedCall, keylessCall] :=
  insert_ids_fresh_iff countingServer_inserts (fun _ => []) uncalled ⟨0, 0, 0, []⟩
    [keyedCall, keylessCall]

/-- **A stale id**: the second create stores the key of the first. -/
theorem stale_insert_id :
    ((pgCreate countingServer (fun _ => []) uncalled ⟨0, 0, 0, []⟩ keyedCall).bind fun out =>
      (pgCreate countingServer (fun _ => []) uncalled out.1 keylessCall).map fun out' =>
        (out.2, out'.2)) = some (some 1, some 1) ∧
    ¬ Run.EachStep (pgStep countingServer (fun _ => []) uncalled)
      (Fresh countingServer (fun _ => []) uncalled) ⟨0, 0, 0, []⟩ [keyedCall, keylessCall] := by
  have hrun : ((pgCreate countingServer (fun _ => []) uncalled ⟨0, 0, 0, []⟩ keyedCall).bind
      fun out => (pgCreate countingServer (fun _ => []) uncalled out.1 keylessCall).map fun out' =>
        (out.2, out'.2)) = some (some 1, some 1) := by decide +kernel
  refine ⟨hrun, ?_⟩
  obtain ⟨⟨conn, first⟩, hfirst, hrest⟩ := Option.bind_eq_some_iff.mp hrun
  obtain ⟨⟨conn', second⟩, hsecond, hout⟩ := Option.map_eq_some_iff.mp hrest
  obtain ⟨rfl, rfl⟩ := Prod.mk.inj hout
  rintro ⟨-, conn₁, hstep, hfresh, -⟩
  rw [pgStep, hfirst] at hstep
  obtain rfl := Option.some.inj hstep
  obtain hsame | ⟨hsome, -⟩ := hfresh conn' (some 1) hsecond
  · cases Option.some.inj hsame
  · cases hsome

end Corm
