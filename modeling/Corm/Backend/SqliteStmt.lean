import Corm.Backend.Stmt

/-!
# SQLite: the life of prepared statements

The statement handles of `backend/sqlite3.c`: where each is prepared, used, finalized, and who holds
it between the calls. Each call takes the outcomes of the driver's calls and of the allocations.

* `sqliteGetStmt`, `sqliteCleanupStmt`, `sqliteExec`, `sqliteQuery`: the functions of the backend;
* `sqliteStep_owns`: a call leaves every open handle in the cache;
* **`sqlite_stmt_lifetime`**: in every run each handle is finalized once, and not used afterwards.
-/

namespace Corm.Lifetime

open Handle

/-- The driver calls on a `sqlite3_stmt *`, apart from preparing and finalizing it. -/
inductive SqliteCall
  | reset
  | clearBindings
  | bind
  | columnCount
  | step
  | column
  | columnName
  deriving DecidableEq

/-- How `sqlite3_prepare_v2` returns. -/
inductive SqlitePrepare
  /-- An error code. -/
  | error
  /-- `SQLITE_OK` with a null statement: the text holds no SQL. -/
  | empty
  | ok
  deriving DecidableEq

/-- How the row loop of `sqlite_query` stops, after the rows it has stored. -/
inductive SqliteStop
  | done
  | error
  /-- The next row cannot be allocated. -/
  | nomem
  deriving DecidableEq

/-- The outcomes of the driver calls and allocations of one call. -/
structure SqliteOutcome where
  prepare : SqlitePrepare
  /-- The allocations of the cache entry. -/
  callocOk : Bool
  strdupOk : Bool
  /-- `sqlite3_step` of `sqlite_exec` returns `SQLITE_DONE` or `SQLITE_ROW`. -/
  stepOk : Bool
  /-- The row-pointer array and the column types of `sqlite_query`. -/
  buffersOk : Bool
  rows : ℕ
  stop : SqliteStop
  /-- `corm_result_new` succeeds. -/
  resultOk : Bool

abbrev SqliteConn := StmtConn SqliteCall

/-- `sqlite_get_stmt`. -/
def sqliteGetStmt (o : SqliteOutcome) (sql : Text) (s : SqliteConn) :
    Option (Option Stmt × SqliteConn) := do
  let (stmt, s) ← s.get sql
  match stmt with
  | some stmt => some (some stmt, (s.use .reset stmt).use .clearBindings stmt)
  | none =>
    match o.prepare with
    | .error => some (none, s)
    | .empty => do
      let s ← s.put o.callocOk o.strdupOk sql none
      some (none, s)
    | .ok => do
      let stmt := s.fresh
      let s ← s.new.put o.callocOk o.strdupOk sql (some stmt)
      some (some stmt, s)

/-- `sqlite_cleanup_stmt`. -/
def sqliteCleanupStmt (sql : Text) (s : SqliteConn) : Option SqliteConn := do
  let (stmt, s) ← s.remove sql
  match stmt with
  | some stmt => some (s.close stmt)
  | none => some s

/-- `sqlite_exec`. -/
def sqliteExec (o : SqliteOutcome) (sql : Text) (paramCount : ℕ) (s : SqliteConn) :
    Option (Err × SqliteConn) := do
  let (stmt, s) ← sqliteGetStmt o sql s
  match stmt with
  | none => some (.backend, s)
  | some stmt =>
    let s := s.useAll (List.replicate paramCount .bind) stmt
    let s := s.use .step stmt
    if o.stepOk then some (.ok, s)
    else do
      let s ← sqliteCleanupStmt sql s
      some (.backend, s)

/-- `sqlite_query`. -/
def sqliteQuery (o : SqliteOutcome) (sql : Text) (paramCount : ℕ) (s : SqliteConn) :
    Option (Err × SqliteConn) := do
  let (stmt, s) ← sqliteGetStmt o sql s
  match stmt with
  | none => some (.backend, s)
  | some stmt =>
    let s := s.useAll (List.replicate paramCount .bind) stmt
    let s := s.use .columnCount stmt
    if o.buffersOk then
      let s := s.useAll (List.replicate o.rows [.step, .column]).flatten stmt
      let s := s.use .step stmt
      match o.stop with
      | .nomem => do
        let s ← sqliteCleanupStmt sql s
        some (.nomem, s)
      | .error => do
        let s ← sqliteCleanupStmt sql s
        some (.backend, s)
      | .done =>
        if o.resultOk then some (.ok, s.use .columnName stmt)
        else do
          let s ← sqliteCleanupStmt sql s
          some (.nomem, s)
    else do
      let s ← sqliteCleanupStmt sql s
      some (.nomem, s)

/-- A call of the backend, with its outcomes. -/
inductive SqliteOp
  | exec (o : SqliteOutcome) (sql : Text) (paramCount : ℕ)
  | query (o : SqliteOutcome) (sql : Text) (paramCount : ℕ)

/-- The connection after a call. -/
def sqliteStep (s : SqliteConn) : SqliteOp → Option SqliteConn
  | .exec o sql n => (sqliteExec o sql n s).map Prod.snd
  | .query o sql n => (sqliteQuery o sql n s).map Prod.snd

/-- The outcomes of a call. -/
def SqliteOp.outcome : SqliteOp → SqliteOutcome
  | .exec o _ _ | .query o _ _ => o

/-- The allocations of the cache entry succeed. -/
def SqliteOutcome.Allocates (o : SqliteOutcome) : Prop := o.callocOk = true ∧ o.strdupOk = true

variable {cap : ℕ} {s : SqliteConn} {m : List (Text × Stmt)} {o : SqliteOutcome} {sql : Text}
  {stmt : Stmt}

/-! ## One call -/

theorem sqliteGetStmt_owns (ho : Owns cap s m []) (ha : o.Allocates) (sql : Text) :
    ∃ r s' m', sqliteGetStmt o sql s = some (r, s') ∧ Owns cap s' m' [] ∧
      ∀ stmt, r = some stmt → Lru.find m' sql = some stmt := by
  obtain ⟨s₁, e1, h1, -, hfresh⟩ := ho.get sql
  simp only [sqliteGetStmt, e1, Option.bind_eq_bind, Option.bind_some]
  cases hf : Lru.find m sql with
  | some stmt =>
    rw [Lru.get_some hf] at h1 ⊢
    have hm : stmt ∈ ((sql, stmt) :: Lru.erase m sql).map Prod.snd ++ [] := by simp
    refine ⟨_, _, _, rfl, (h1.use hm .reset).use hm .clearBindings, fun stmt' he => ?_⟩
    cases he
    simp [Lru.find]
  | none =>
    rw [Lru.get_none hf] at h1 ⊢
    cases o.prepare with
    | error => exact ⟨none, s₁, m, rfl, h1, fun _ he => by cases he⟩
    | empty => exact ⟨none, s₁, m, rfl, h1, fun _ he => by cases he⟩
    | ok =>
      obtain ⟨s₂, e2, -, h2⟩ := h1.new.put hf o.callocOk o.strdupOk
      rw [ha.1, ha.2] at h2
      simp only [e2, Option.bind_some]
      refine ⟨_, s₂, _, rfl, h2, fun stmt' he => ?_⟩
      cases he
      simp [Lru.find]

theorem mem_handles (hf : Lru.find m sql = some stmt) : stmt ∈ m.map Prod.snd ++ [] := by
  rw [List.append_nil]
  exact List.mem_map.mpr ⟨(sql, stmt), Lru.mem_of_find hf, rfl⟩

theorem sqliteCleanupStmt_owns (ho : Owns cap s m []) (hf : Lru.find m sql = some stmt) :
    ∃ s', sqliteCleanupStmt sql s = some s' ∧ Owns cap s' (Lru.erase m sql) [] := by
  obtain ⟨s₁, e1, h1⟩ := ho.remove hf
  exact ⟨s₁.close stmt, by rw [sqliteCleanupStmt, e1]; rfl, h1.close⟩

theorem sqliteExec_owns (ho : Owns cap s m []) (ha : o.Allocates) (sql : Text) (n : ℕ) :
    ∃ err s' m', sqliteExec o sql n s = some (err, s') ∧ Owns cap s' m' [] := by
  obtain ⟨r, s₁, m₁, e1, h1, hr⟩ := sqliteGetStmt_owns ho ha sql
  simp only [sqliteExec, e1, Option.bind_eq_bind, Option.bind_some]
  cases r with
  | none => exact ⟨_, s₁, m₁, rfl, h1⟩
  | some stmt =>
    have hf := hr stmt rfl
    have hm := mem_handles hf
    have h2 := (h1.useAll hm (List.replicate n .bind)).use hm .step
    simp only
    by_cases hs : o.stepOk
    · rw [if_pos hs]
      exact ⟨_, _, m₁, rfl, h2⟩
    · rw [if_neg hs]
      obtain ⟨s₃, e3, h3⟩ := sqliteCleanupStmt_owns h2 hf
      exact ⟨_, s₃, _, by rw [e3]; rfl, h3⟩

theorem sqliteQuery_owns (ho : Owns cap s m []) (ha : o.Allocates) (sql : Text) (n : ℕ) :
    ∃ err s' m', sqliteQuery o sql n s = some (err, s') ∧ Owns cap s' m' [] := by
  obtain ⟨r, s₁, m₁, e1, h1, hr⟩ := sqliteGetStmt_owns ho ha sql
  simp only [sqliteQuery, e1, Option.bind_eq_bind, Option.bind_some]
  cases r with
  | none => exact ⟨_, s₁, m₁, rfl, h1⟩
  | some stmt =>
    have hf := hr stmt rfl
    have hm := mem_handles hf
    have h2 := (h1.useAll hm (List.replicate n .bind)).use hm .columnCount
    simp only
    by_cases hb : o.buffersOk
    · rw [if_pos hb]
      have h3 := (h2.useAll hm (List.replicate o.rows [.step, .column]).flatten).use hm .step
      obtain ⟨s₄, e4, h4⟩ := sqliteCleanupStmt_owns h3 hf
      cases o.stop with
      | nomem => exact ⟨.nomem, s₄, _, by simp only [e4, Option.bind_some], h4⟩
      | error => exact ⟨.backend, s₄, _, by simp only [e4, Option.bind_some], h4⟩
      | done =>
        by_cases hres : o.resultOk
        · exact ⟨.ok, _, m₁, by simp only [if_pos hres], h3.use hm .columnName⟩
        · exact ⟨.nomem, s₄, _, by simp only [if_neg hres, e4, Option.bind_some], h4⟩
    · rw [if_neg hb]
      obtain ⟨s₃, e3, h3⟩ := sqliteCleanupStmt_owns h2 hf
      exact ⟨_, s₃, _, by rw [e3]; rfl, h3⟩

theorem sqliteStep_owns (ho : Owns cap s m []) (op : SqliteOp) (ha : op.outcome.Allocates) :
    ∃ s' m', sqliteStep s op = some s' ∧ Owns cap s' m' [] := by
  cases op with
  | exec o sql n =>
    obtain ⟨err, s', m', e, h⟩ := @sqliteExec_owns _ _ _ o ho ha sql n
    exact ⟨s', m', by rw [sqliteStep, e]; rfl, h⟩
  | query o sql n =>
    obtain ⟨err, s', m', e, h⟩ := @sqliteQuery_owns _ _ _ o ho ha sql n
    exact ⟨s', m', by rw [sqliteStep, e]; rfl, h⟩

/-! ## Runs -/

/-- **The life of SQLite's statements.** After every run on a new connection no handle has been used
or finalized after its end, and the cache holds only live handles. The handle that the next call
works with is not one its own put evicts. Destroying the cache leaves every handle ever prepared
finalized exactly once. -/
theorem sqlite_stmt_lifetime {n : ℤ} {s₀ : SqliteConn} (h₀ : StmtConn.open SqliteCall n = .ok s₀)
    (ops : List SqliteOp) (ha : ∀ op ∈ ops, op.outcome.Allocates) :
    ∃ s, Run.exec sqliteStep s₀ ops = some s ∧ s.Safe ∧
      (∀ o sql stmt s', o.Allocates → sqliteGetStmt o sql s = some (some stmt, s') →
        .closed stmt ∉ s'.log ∧ s'.Cached stmt) ∧
      ∃ log, s.destroy = some log ∧ Clean log ∧
        ∀ stmt, .opened stmt ∈ log → log.count (.closed stmt) = 1 := by
  obtain ⟨cap, hopen⟩ := owns_open h₀
  have hstep : ∀ s, ∀ op ∈ ops, (∃ m, Owns cap s m []) →
      ∃ s', sqliteStep s op = some s' ∧ ∃ m, Owns cap s' m [] := by
    rintro s op hop ⟨m, ho⟩
    obtain ⟨s', m', e, h⟩ := sqliteStep_owns ho op (ha op hop)
    exact ⟨s', e, m', h⟩
  obtain ⟨s, e, m, ho⟩ := Run.exec_of_inv hstep ⟨[], hopen⟩
  refine ⟨s, e, ho.safe, fun o sql stmt s' hal hget => ?_, ?_⟩
  · obtain ⟨r, s₁, m₁, e1, h1, hr⟩ := sqliteGetStmt_owns ho hal sql
    obtain ⟨rfl, rfl⟩ : r = some stmt ∧ s₁ = s' := by simpa using e1.symm.trans hget
    have hm : stmt ∈ m₁.map Prod.snd := List.mem_map.mpr ⟨_, Lru.mem_of_find (hr stmt rfl), rfl⟩
    exact ⟨((h1.holds.live stmt).mpr (List.mem_append_left _ hm)).2, h1.refines.cached_iff.mpr hm⟩
  · obtain ⟨log, e, hh⟩ := ho.destroy
    exact ⟨log, e, hh.clean, hh.count_closed⟩

/-- On a cache of one entry, an `exec` whose step fails finalizes its handle. -/
theorem sqlite_stmt_lifetime_stepFails :
    ∃ s₀ s, StmtConn.open SqliteCall 1 = .ok s₀ ∧
      Run.exec sqliteStep s₀
          [.exec ⟨.ok, true, true, false, true, 0, .done, true⟩ ['a'] 1,
            .query ⟨.ok, true, true, true, true, 2, .done, true⟩ ['b'] 0] = some s ∧
      s.Safe ∧ .closed 0 ∈ s.log := by
  obtain ⟨s, e, hs, -⟩ := @sqlite_stmt_lifetime 1 _ rfl
    [.exec ⟨.ok, true, true, false, true, 0, .done, true⟩ ['a'] 1,
      .query ⟨.ok, true, true, true, true, 2, .done, true⟩ ['b'] 0]
    (by simp [SqliteOp.outcome, SqliteOutcome.Allocates])
  refine ⟨_, s, rfl, e, hs, ?_⟩
  cases e
  decide

end Corm.Lifetime
