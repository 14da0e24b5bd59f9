import Corm.Backend.Stmt

/-!
# MySQL: the life of prepared statements

The statement handles of `backend/mysql.c`. `mysql_exec` closes the handle it works with when
binding or executing fails, and `mysql_stmt_query` closes it on every exit; neither takes it out of
the statement cache.

* `mysqlGetStmt`, `mysqlExec`, `mysqlStmtQuery`, `mysqlQuery`: the functions of the backend;
* `MysqlKeeps`: the calls that do not close a handle the cache holds;
* **`mysql_stmt_lifetime_iff`**: the handles are safe throughout a run exactly when each of its calls
  is one of these.
-/

namespace Corm.Lifetime

open Handle

/-- The driver calls on a `MYSQL_STMT *`, apart from `mysql_stmt_init` and `mysql_stmt_close`. -/
inductive MysqlCall
  | prepare
  | error
  | bindParam
  | execute
  | insertId
  | affectedRows
  | resultMetadata
  | storeResult
  | numRows
  | bindResult
  | fetch
  deriving DecidableEq

/-- The outcomes of the driver calls and allocations of one call. -/
structure MysqlOutcome where
  /-- `mysql_query`, for a text without parameters. -/
  plainOk : Bool
  initOk : Bool
  prepareOk : Bool
  /-- The allocations of the cache entry. -/
  callocOk : Bool
  strdupOk : Bool
  /-- The array of `mysql_bind_params`. -/
  bindAllocOk : Bool
  bindOk : Bool
  executeOk : Bool
  hasMetadata : Bool
  storeOk : Bool
  /-- `corm_result_new` succeeds. -/
  resultOk : Bool
  rowCount : ℕ
  /-- The six arrays of the result binding. -/
  buffersOk : Bool
  bindResultOk : Bool
  fetched : ℕ

abbrev MysqlConn := StmtConn MysqlCall

/-- The first block of `mysql_exec` and of `mysql_stmt_query`: take the handle from the cache, or
prepare one and put it there. -/
def mysqlGetStmt (o : MysqlOutcome) (sql : Text) (s : MysqlConn) :
    Option (Except Err Stmt × MysqlConn) := do
  let (stmt, s) ← s.get sql
  match stmt with
  | some stmt => some (.ok stmt, s)
  | none =>
    if o.initOk then
      let stmt := s.fresh
      let s := s.new.use .prepare stmt
      if o.prepareOk then do
        let s ← s.put o.callocOk o.strdupOk sql (some stmt)
        some (.ok stmt, s)
      else some (.error .backend, (s.use .error stmt).close stmt)
    else some (.error .nomem, s)

/-- `mysql_exec` with a prepared handle. -/
def mysqlExecStmt (o : MysqlOutcome) (stmt : Stmt) (s : MysqlConn) : Err × MysqlConn :=
  if o.bindAllocOk then
    let s := s.use .bindParam stmt
    if o.bindOk then
      let s := s.use .execute stmt
      if o.executeOk then (.ok, s.useAll [.insertId, .affectedRows] stmt)
      else (.backend, (s.use .error stmt).close stmt)
    else (.backend, (s.use .error stmt).close stmt)
  else (.nomem, s.close stmt)

/-- `mysql_exec`. -/
def mysqlExec (o : MysqlOutcome) (sql : Text) (paramCount : ℕ) (s : MysqlConn) :
    Option (Err × MysqlConn) :=
  if paramCount = 0 then some (if o.plainOk then .ok else .backend, s)
  else do
    let (stmt, s) ← mysqlGetStmt o sql s
    match stmt with
    | .error e => some (e, s)
    | .ok stmt => some (mysqlExecStmt o stmt s)

/-- `mysql_stmt_query` from `mysql_stmt_execute` on. -/
def mysqlFetchStmt (o : MysqlOutcome) (stmt : Stmt) (s : MysqlConn) : Err × MysqlConn :=
  let s := s.use .execute stmt
  if o.executeOk then
    let s := s.use .resultMetadata stmt
    if o.hasMetadata then
      let s := s.use .storeResult stmt
      if o.storeOk then
        let s := s.use .numRows stmt
        if o.resultOk then
          if 0 < o.rowCount then
            if o.buffersOk then
              let s := s.use .bindResult stmt
              if o.bindResultOk then
                let s := s.useAll (List.replicate (o.fetched + 1) .fetch) stmt
                (.ok, s.close stmt)
              else (.backend, (s.use .error stmt).close stmt)
            else (.nomem, s.close stmt)
          else (.ok, s.close stmt)
        else (.nomem, s.close stmt)
      else (.backend, (s.use .error stmt).close stmt)
    else (.ok, s.close stmt)
  else (.backend, (s.use .error stmt).close stmt)

/-- `mysql_stmt_query` with a prepared handle. -/
def mysqlQueryStmt (o : MysqlOutcome) (stmt : Stmt) (paramCount : ℕ) (s : MysqlConn) :
    Err × MysqlConn :=
  if 0 < paramCount then
    if o.bindAllocOk then
      let s := s.use .bindParam stmt
      if o.bindOk then mysqlFetchStmt o stmt s
      else (.backend, (s.use .error stmt).close stmt)
    else (.nomem, s.close stmt)
  else mysqlFetchStmt o stmt s

/-- `mysql_stmt_query`. -/
def mysqlStmtQuery (o : MysqlOutcome) (sql : Text) (paramCount : ℕ) (s : MysqlConn) :
    Option (Err × MysqlConn) := do
  let (stmt, s) ← mysqlGetStmt o sql s
  match stmt with
  | .error e => some (e, s)
  | .ok stmt => some (mysqlQueryStmt o stmt paramCount s)

/-- `corm_mysql_query`. -/
def mysqlQuery (o : MysqlOutcome) (sql : Text) (paramCount : ℕ) (s : MysqlConn) :
    Option (Err × MysqlConn) :=
  if paramCount = 0 then some (if o.plainOk then .ok else .backend, s)
  else mysqlStmtQuery o sql paramCount s

/-- A call of the backend, with its outcomes. -/
inductive MysqlOp
  | exec (o : MysqlOutcome) (sql : Text) (paramCount : ℕ)
  | query (o : MysqlOutcome) (sql : Text) (paramCount : ℕ)

/-- The connection after a call. -/
def mysqlStep (s : MysqlConn) : MysqlOp → Option MysqlConn
  | .exec o sql n => (mysqlExec o sql n s).map Prod.snd
  | .query o sql n => (mysqlQuery o sql n s).map Prod.snd

/-! ## The calls that keep the cached handles -/

/-- The call finds no handle in the cache and leaves none there: no handle comes out of
`mysql_stmt_init` and `mysql_stmt_prepare`, or its cache entry cannot be allocated. -/
def NeverCached (s : MysqlConn) (o : MysqlOutcome) (sql : Text) : Prop :=
  s.lookup sql = some none ∧ (o.initOk && o.prepareOk && (o.callocOk && o.strdupOk)) = false

/-- No parameters, or a handle that stays out of the cache, or a `mysql_exec` that binds and
executes. -/
def MysqlKeeps (s : MysqlConn) : MysqlOp → Prop
  | .exec o sql n =>
    n = 0 ∨ NeverCached s o sql ∨ (o.bindAllocOk && o.bindOk && o.executeOk) = true
  | .query o sql n => n = 0 ∨ NeverCached s o sql

variable {cap : ℕ} {s : MysqlConn} {m : List (Text × Stmt)} {rest : List Stmt} {o : MysqlOutcome}
  {sql : Text} {stmt : Stmt}

/-- The handle of a call is the cached one, or one that stays out of the cache. -/
theorem mysqlGetStmt_owns (ho : Owns cap s m rest) (o : MysqlOutcome) (sql : Text) :
    ∃ r s', mysqlGetStmt o sql s = some (r, s') ∧
      match r with
      | .error _ => NeverCached s o sql ∧ ∃ m' rest', Owns cap s' m' rest'
      | .ok stmt =>
        (NeverCached s o sql ∧ ∃ m' rest', Owns cap s' m' (stmt :: rest')) ∨
          ¬ NeverCached s o sql ∧ ∃ m' rest', Owns cap s' m' rest' ∧ stmt ∈ m'.map Prod.snd := by
  obtain ⟨s₁, e1, h1, -, hfresh⟩ := ho.get sql
  simp only [mysqlGetStmt, e1, Option.bind_eq_bind, Option.bind_some, NeverCached,
    ho.refines.lookup]
  cases hf : Lru.find m sql with
  | some stmt =>
    rw [Lru.get_some hf] at h1 ⊢
    exact ⟨_, s₁, rfl, Or.inr ⟨by simp, _, _, h1, by simp⟩⟩
  | none =>
    rw [Lru.get_none hf] at h1 ⊢
    simp only
    cases o.initOk with
    | false => exact ⟨.error .nomem, s₁, rfl, by simp, m, rest, h1⟩
    | true =>
      have hmem : s₁.fresh ∈ m.map Prod.snd ++ s₁.fresh :: rest := by simp
      have h2 := h1.new.use hmem .prepare
      cases o.prepareOk with
      | false => exact ⟨.error .backend, _, rfl, by simp, m, rest, (h2.use hmem .error).close⟩
      | true =>
        obtain ⟨s₃, e3, -, h3⟩ := h2.put hf o.callocOk o.strdupOk
        simp only [if_true, e3, Option.bind_some, Bool.true_and, true_and]
        refine ⟨.ok s₁.fresh, s₃, rfl, ?_⟩
        cases hb : o.callocOk && o.strdupOk with
        | false =>
          rw [hb] at h3
          exact Or.inl ⟨rfl, _, rest, h3⟩
        | true =>
          rw [hb] at h3
          exact Or.inr ⟨by simp, _, rest, h3, by simp⟩

/-- The handle is used some times and then closed. -/
def Closes (stmt : Stmt) (s s' : MysqlConn) : Prop := ∃ hows, s' = (s.useAll hows stmt).close stmt

theorem Closes.now : Closes stmt s (s.close stmt) := ⟨[], rfl⟩

theorem Closes.use {s' : MysqlConn} (how : MysqlCall) (h : Closes stmt (s.use how stmt) s') :
    Closes stmt s s' := by
  obtain ⟨hows, rfl⟩ := h
  exact ⟨how :: hows, rfl⟩

theorem Closes.useAll {s' : MysqlConn} (hows : List MysqlCall)
    (h : Closes stmt (s.useAll hows stmt) s') : Closes stmt s s' := by
  induction hows generalizing s with
  | nil => exact h
  | cons how hows ih => exact (ih h).use how

theorem Closes.owns {s' : MysqlConn} (h : Closes stmt s s') (ho : Owns cap s m (stmt :: rest)) :
    Owns cap s' m rest := by
  obtain ⟨hows, rfl⟩ := h
  exact (ho.useAll (by simp) hows).close

theorem Closes.not_safe {s' : MysqlConn} (h : Closes stmt s s') (ho : Owns cap s m rest)
    (hm : stmt ∈ m.map Prod.snd) : ¬ s'.Safe := by
  obtain ⟨hows, rfl⟩ := h
  intro hs
  have hu := ho.useAll (List.mem_append_left rest hm) hows
  have hr : Refines cap true ((s.useAll hows stmt).close stmt).cache m := hu.refines
  exact hs.cached stmt (hr.cached_iff.mpr hm) List.mem_cons_self

theorem mysqlExecStmt_closes (s : MysqlConn) (stmt : Stmt)
    (h : (o.bindAllocOk && o.bindOk && o.executeOk) = false) :
    Closes stmt s (mysqlExecStmt o stmt s).2 := by
  unfold mysqlExecStmt
  by_cases ha : o.bindAllocOk
  · rw [if_pos ha]
    refine Closes.use .bindParam ?_
    by_cases hb : o.bindOk
    · simp only [if_pos hb]
      refine Closes.use .execute ?_
      have he : ¬ o.executeOk := by simpa [ha, hb] using h
      rw [if_neg he]
      exact Closes.now.use .error
    · simp only [if_neg hb]
      exact Closes.now.use .error
  · rw [if_neg ha]
    exact Closes.now

theorem mysqlExecStmt_keeps (ho : Owns cap s m rest) (hm : stmt ∈ m.map Prod.snd ++ rest)
    (h : (o.bindAllocOk && o.bindOk && o.executeOk) = true) :
    Owns cap (mysqlExecStmt o stmt s).2 m rest := by
  simp only [Bool.and_eq_true] at h
  simp only [mysqlExecStmt, if_pos h.1.1, if_pos h.1.2, if_pos h.2]
  exact ((ho.use hm .bindParam).use hm .execute).useAll hm _

theorem mysqlFetchStmt_closes (o : MysqlOutcome) (s : MysqlConn) (stmt : Stmt) :
    Closes stmt s (mysqlFetchStmt o stmt s).2 := by
  unfold mysqlFetchStmt
  refine Closes.use .execute ?_
  by_cases h : o.executeOk
  swap; · simp only [if_neg h]; exact Closes.now.use .error
  simp only [if_pos h]
  refine Closes.use .resultMetadata ?_
  by_cases h : o.hasMetadata
  swap; · simp only [if_neg h]; exact Closes.now
  simp only [if_pos h]
  refine Closes.use .storeResult ?_
  by_cases h : o.storeOk
  swap; · simp only [if_neg h]; exact Closes.now.use .error
  simp only [if_pos h]
  refine Closes.use .numRows ?_
  by_cases h : o.resultOk
  swap; · simp only [if_neg h]; exact Closes.now
  simp only [if_pos h]
  by_cases h : 0 < o.rowCount
  swap; · simp only [if_neg h]; exact Closes.now
  simp only [if_pos h]
  by_cases h : o.buffersOk
  swap; · simp only [if_neg h]; exact Closes.now
  simp only [if_pos h]
  refine Closes.use .bindResult ?_
  by_cases h : o.bindResultOk
  swap; · simp only [if_neg h]; exact Closes.now.use .error
  simp only [if_pos h]
  exact Closes.now.useAll _

theorem mysqlQueryStmt_closes (o : MysqlOutcome) (s : MysqlConn) (stmt : Stmt) (n : ℕ) :
    Closes stmt s (mysqlQueryStmt o stmt n s).2 := by
  unfold mysqlQueryStmt
  by_cases hn : 0 < n
  swap; · rw [if_neg hn]; exact mysqlFetchStmt_closes o s stmt
  rw [if_pos hn]
  by_cases h : o.bindAllocOk
  swap; · rw [if_neg h]; exact Closes.now
  rw [if_pos h]
  refine Closes.use .bindParam ?_
  by_cases h : o.bindOk
  swap; · simp only [if_neg h]; exact Closes.now.use .error
  simp only [if_pos h]
  exact mysqlFetchStmt_closes o _ stmt

/-! ## Runs -/

theorem mysqlStep_cases (ho : Owns cap s m rest) (op : MysqlOp) :
    ∃ s', mysqlStep s op = some s' ∧
      ((MysqlKeeps s op ∧ ∃ m' rest', Owns cap s' m' rest') ∨ ¬ MysqlKeeps s op ∧ ¬ s'.Safe) := by
  rcases op with ⟨o, sql, n⟩ | ⟨o, sql, n⟩
  case exec =>
    by_cases hn : n = 0
    · exact ⟨s, by simp [mysqlStep, mysqlExec, hn], Or.inl ⟨Or.inl hn, m, rest, ho⟩⟩
    obtain ⟨r, s₁, e1, h1⟩ := mysqlGetStmt_owns ho o sql
    cases r with
    | error err =>
      exact ⟨s₁, by simp [mysqlStep, mysqlExec, hn, e1], Or.inl ⟨Or.inr (Or.inl h1.1), h1.2⟩⟩
    | ok stmt =>
      refine ⟨_, by simp [mysqlStep, mysqlExec, hn, e1]; rfl, ?_⟩
      cases hok : o.bindAllocOk && o.bindOk && o.executeOk with
      | true =>
        refine Or.inl ⟨Or.inr (Or.inr hok), ?_⟩
        rcases h1 with ⟨-, m', rest', h1⟩ | ⟨-, m', rest', h1, hm⟩
        · exact ⟨m', stmt :: rest', mysqlExecStmt_keeps h1 (by simp) hok⟩
        · exact ⟨m', rest', mysqlExecStmt_keeps h1 (List.mem_append_left _ hm) hok⟩
      | false =>
        have hc := mysqlExecStmt_closes s₁ stmt hok
        rcases h1 with ⟨hnc, m', rest', h1⟩ | ⟨hnc, m', rest', h1, hm⟩
        · exact Or.inl ⟨Or.inr (Or.inl hnc), m', rest', hc.owns h1⟩
        · refine Or.inr ⟨?_, hc.not_safe h1 hm⟩
          rintro (h0 | h0 | h0)
          · exact hn h0
          · exact hnc h0
          · rw [hok] at h0
            cases h0
  case query =>
    by_cases hn : n = 0
    · exact ⟨s, by simp [mysqlStep, mysqlQuery, hn], Or.inl ⟨Or.inl hn, m, rest, ho⟩⟩
    obtain ⟨r, s₁, e1, h1⟩ := mysqlGetStmt_owns ho o sql
    cases r with
    | error err =>
      exact ⟨s₁, by simp [mysqlStep, mysqlQuery, mysqlStmtQuery, hn, e1],
        Or.inl ⟨Or.inr h1.1, h1.2⟩⟩
    | ok stmt =>
      refine ⟨_, by simp [mysqlStep, mysqlQuery, mysqlStmtQuery, hn, e1]; rfl, ?_⟩
      have hc := mysqlQueryStmt_closes o s₁ stmt n
      rcases h1 with ⟨hnc, m', rest', h1⟩ | ⟨hnc, m', rest', h1, hm⟩
      · exact Or.inl ⟨Or.inr hnc, m', rest', hc.owns h1⟩
      · refine Or.inr ⟨?_, hc.not_safe h1 hm⟩
        rintro (h0 | h0)
        · exact hn h0
        · exact hnc h0

/-- **The life of MySQL's statements.** In a run on a new connection, no cached handle has been
closed, no closed handle is used and none is closed twice, exactly when every call of the run keeps
the handles of the cache. -/
theorem mysql_stmt_lifetime_iff {n : ℤ} {s₀ : MysqlConn}
    (h₀ : StmtConn.open MysqlCall n = .ok s₀) (ops : List MysqlOp) :
    Run.Throughout mysqlStep (fun s => s.Safe) s₀ ops ↔
      Run.EachStep mysqlStep MysqlKeeps s₀ ops := by
  obtain ⟨cap, hopen⟩ := owns_open h₀
  have hinv : ∀ s : MysqlConn, (∃ m rest, Owns cap s m rest) → s.Safe := by
    rintro s ⟨m, rest, ho⟩
    exact ho.safe
  refine Run.throughout_iff hinv ?_ ?_ ⟨[], [], hopen⟩ ops
  · rintro s op ⟨m, rest, ho⟩ hk
    obtain ⟨s', e, ⟨-, h⟩ | ⟨hnot, -⟩⟩ := mysqlStep_cases ho op
    · exact ⟨s', e, h⟩
    · exact absurd hk hnot
  · rintro s op ⟨m, rest, ho⟩ hk
    obtain ⟨s', e, ⟨hkeep, -⟩ | ⟨-, h⟩⟩ := mysqlStep_cases ho op
    · exact absurd hkeep hk
    · exact ⟨s', e, h⟩

/-- Every driver call and allocation succeeds, and the query returns one row. -/
def mysqlAllOk : MysqlOutcome where
  plainOk := true
  initOk := true
  prepareOk := true
  callocOk := true
  strdupOk := true
  bindAllocOk := true
  bindOk := true
  executeOk := true
  hasMetadata := true
  storeOk := true
  resultOk := true
  rowCount := 1
  buffersOk := true
  bindResultOk := true
  fetched := 1

/-- The same `exec` twice keeps the handles safe. -/
theorem mysql_stmt_lifetime_iff_repeatedExec :
    ∃ s₀, StmtConn.open MysqlCall 0 = .ok s₀ ∧
      Run.Throughout mysqlStep (fun s => s.Safe) s₀
        [.exec mysqlAllOk ['q'] 1, .exec mysqlAllOk ['q'] 1] := by
  refine ⟨_, rfl, (@mysql_stmt_lifetime_iff 0 _ rfl _).mpr ?_⟩
  exact ⟨Or.inr (Or.inr rfl), _, rfl, Or.inr (Or.inr rfl), _, rfl, trivial⟩

/-- The same query twice, with every driver call succeeding: the second one works with a handle that
the first has closed, and closes it again. -/
theorem mysql_repeatedQuery_unsafe :
    ∃ s₀ s, StmtConn.open MysqlCall 0 = .ok s₀ ∧
      Run.exec mysqlStep s₀ [.query mysqlAllOk ['q'] 1, .query mysqlAllOk ['q'] 1] = some s ∧
      s.Cached 0 ∧ s.log.count (.closed 0) = 2 ∧ ¬ Clean s.log ∧
      ¬ Run.Throughout mysqlStep (fun s => s.Safe) s₀
        [.query mysqlAllOk ['q'] 1, .query mysqlAllOk ['q'] 1] := by
  refine ⟨_, _, rfl, rfl, ⟨['q'], rfl⟩, by decide, fun hc => absurd (hc.count_closed 0) (by decide),
    ?_⟩
  rintro ⟨-, s₁, e₁, -, s₂, e₂, hs⟩
  cases e₁
  cases e₂
  exact absurd (hs.once 0) (by decide)

end Corm.Lifetime
