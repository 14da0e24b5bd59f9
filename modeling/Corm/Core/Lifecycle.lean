import Corm.Backend.SqliteStmt

/-!
# The life of a connection

`corm_open_with_config` and `corm_close` over SQLite, with any calls between them, where any
allocation and any driver call may fail.

* `cormOpenWithConfig`: what an open allocates, and frees when it fails;
* `connStep`: a call with the statement cache, or without one; `Keeps`: a call after which every
  statement is in the cache; `droppedStmts`: the statements of a run that are not;
* `cormClose`: what a close frees; `sqlite3_close` refuses while a statement is live;
* **`connection_lifetime`**: an open that fails leaves the statement cache behind, and a close leaves
  the statements that the cache had no memory for, and with one of them the connection.
-/

namespace Corm.Lifetime

open Handle

/-! ## Opening -/

/-- What a connection consists of: the struct, the tables of its registry, the statement cache, the
`sqlite3 *` and the statements. -/
inductive ConnPart
  | db
  | byTable
  | byName
  | cache
  | conn
  | stmt (h : Stmt)
  deriving DecidableEq

/-- What happened to the parts of a connection. -/
abbrev ConnLog := List (Event SqliteCall ConnPart)

/-- What `corm_get_backend` finds, and how its `open` returns. -/
inductive OpenBackend
  | missing
  | noOpen
  | refuses
  | opens
  deriving DecidableEq

/-- The outcomes of the allocations, and the backend. -/
structure OpenOutcome where
  dbOk : Bool
  byTableOk : Bool
  byNameOk : Bool
  cacheOk : Bool
  backend : OpenBackend

/-- What is there before the backend is looked up. -/
def OpenOutcome.parts (o : OpenOutcome) : List ConnPart :=
  [ConnPart.db, .byTable, .byName] ++ if o.cacheOk then [.cache] else []

/-- `corm_open_with_config`. A cache that is not allocated is no error. -/
def cormOpenWithConfig (o : OpenOutcome) : Err × ConnLog :=
  if o.dbOk then
    if o.byTableOk then
      if o.byNameOk then
        let log := openAll o.parts []
        match o.backend with
        | .missing => (.notfound, closeAll [.byTable, .byName, .db] log)
        | .noOpen => (.backend, closeAll [.byTable, .byName, .db] log)
        | .refuses => (.backend, closeAll [.byTable, .byName, .db] log)
        | .opens => (.ok, .opened .conn :: log)
      else (.nomem, closeAll [.byTable, .db] (openAll [.db, .byTable] []))
    else (.nomem, closeAll [.db] (openAll [.db] []))
  else (.nomem, [])

/-- What a failed open leaves: the statement cache, when it got that far. -/
def OpenOutcome.left (o : OpenOutcome) : List ConnPart :=
  if o.dbOk && o.byTableOk && o.byNameOk && o.cacheOk then [.cache] else []

theorem holds_parts (o : OpenOutcome) :
    Holds (openAll o.parts [] : ConnLog) (o.parts ++ []) := by
  refine Holds.nil.openAll ?_ fun _ _ => List.not_mem_nil
  unfold OpenOutcome.parts
  cases o.cacheOk <;> decide

theorem open_fails {o : OpenOutcome} (h : (cormOpenWithConfig o).1 ≠ .ok) :
    Holds (cormOpenWithConfig o).2 o.left := by
  have hnone (parts : List ConnPart) (hn : parts.Nodup) (freed : List ConnPart)
      (hp : freed.Perm parts) : Holds (closeAll freed (openAll parts []) : ConnLog) [] := by
    have hopen : Holds (openAll parts [] : ConnLog) (parts ++ []) :=
      Holds.nil.openAll hn fun _ _ => List.not_mem_nil
    exact Holds.closeAll (hopen.perm (hp.append_right []))
  have hall : Holds (closeAll [.byTable, .byName, .db] (openAll o.parts []) : ConnLog)
      (if o.cacheOk then [.cache] else []) := by
    refine Holds.closeAll ((holds_parts o).perm ?_)
    unfold OpenOutcome.parts
    cases o.cacheOk <;> decide
  obtain ⟨dbOk, byTableOk, byNameOk, cacheOk, backend⟩ := o
  cases dbOk with
  | false => exact Holds.nil
  | true =>
    cases byTableOk with
    | false => exact hnone [.db] (by decide) [.db] (List.Perm.refl _)
    | true =>
      cases byNameOk with
      | false => exact hnone [.db, .byTable] (by decide) [.byTable, .db] (List.Perm.swap ..)
      | true =>
        cases backend with
        | opens => exact absurd rfl h
        | missing | noOpen | refuses => exact hall

theorem open_succeeds {o : OpenOutcome} (h : (cormOpenWithConfig o).1 = .ok) :
    (cormOpenWithConfig o).2 = .opened .conn :: openAll o.parts [] := by
  obtain ⟨dbOk, byTableOk, byNameOk, cacheOk, backend⟩ := o
  cases dbOk with
  | false => cases h
  | true =>
    cases byTableOk with
    | false => cases h
    | true =>
      cases byNameOk with
      | false => cases h
      | true =>
        cases backend with
        | opens => rfl
        | missing | noOpen | refuses => cases h

/-! ## Calls -/

/-- The text of a call. -/
def SqliteOp.sql : SqliteOp → Text
  | .exec _ sql _ | .query _ sql _ => sql

/-- The driver calls of a call, on the statement that it has prepared. -/
def SqliteOp.uses : SqliteOp → List SqliteCall
  | .exec _ _ n => List.replicate n .bind ++ [.step]
  | .query o _ n => List.replicate n .bind ++ .columnCount ::
    if o.buffersOk then
      (List.replicate o.rows [.step, .column]).flatten ++ .step ::
        if o.stop = .done ∧ o.resultOk = true then [.columnName] else []
    else []

/-- A call without a statement cache: a statement that is prepared is not finalized. -/
def bareStep (s : SqliteConn) (op : SqliteOp) : SqliteConn :=
  if op.outcome.prepare = .ok then s.new.useAll op.uses s.fresh else s

/-- A call, with or without a statement cache. -/
def connStep (cacheOk : Bool) (s : SqliteConn) (op : SqliteOp) : Option SqliteConn :=
  if cacheOk then sqliteStep s op else some (bareStep s op)

/-- A statement is prepared that the cache does not take. -/
def Dropped (s : SqliteConn) (o : SqliteOutcome) (sql : Text) : Prop :=
  o.prepare = .ok ∧ s.lookup sql = some none ∧ ¬ o.Allocates

instance (s : SqliteConn) (o : SqliteOutcome) (sql : Text) : Decidable (Dropped s o sql) := by
  unfold Dropped SqliteOutcome.Allocates
  infer_instance

/-- Every statement that is prepared is in the cache. -/
def Keeps (cacheOk : Bool) (s : SqliteConn) (op : SqliteOp) : Prop :=
  if cacheOk then ¬ Dropped s op.outcome op.sql else op.outcome.prepare ≠ .ok

instance (cacheOk : Bool) (s : SqliteConn) (op : SqliteOp) : Decidable (Keeps cacheOk s op) := by
  unfold Keeps
  infer_instance

/-- The statement that a call prepares and does not put in the cache. -/
def droppedBy (cacheOk : Bool) (s : SqliteConn) (op : SqliteOp) : List Stmt :=
  if Keeps cacheOk s op then [] else [s.fresh]

/-- The statements of a run that did not go into the cache, the last first. -/
def droppedStmts (cacheOk : Bool) (s : SqliteConn) (ops : List SqliteOp) : List Stmt :=
  Run.collected (connStep cacheOk) (droppedBy cacheOk) s ops

section Calls

variable {cap : ℕ} {s : SqliteConn} {m : List (Text × Stmt)} {rest : List Stmt}

theorem sqliteGetStmt_rest (ho : Owns cap s m rest) (o : SqliteOutcome) (sql : Text) :
    ∃ r s' m' rest', sqliteGetStmt o sql s = some (r, s') ∧ Owns cap s' m' rest' ∧
      (∀ stmt, r = some stmt → stmt ∈ m'.map Prod.snd ++ rest') ∧
      (¬ Dropped s o sql ∧ rest' = rest ∨ Dropped s o sql ∧ rest' = s.fresh :: rest) := by
  obtain ⟨s₁, e1, h1, -, hfresh⟩ := ho.get sql
  simp only [sqliteGetStmt, e1, Option.bind_eq_bind, Option.bind_some, Dropped, ho.refines.lookup]
  cases hf : Lru.find m sql with
  | some stmt =>
    rw [Lru.get_some hf] at h1 ⊢
    have hm : stmt ∈ ((sql, stmt) :: Lru.erase m sql).map Prod.snd ++ rest := by simp
    refine ⟨_, _, _, rest, rfl, (h1.use hm .reset).use hm .clearBindings, fun stmt' he => ?_,
      Or.inl ⟨fun h => (by cases h.2.1), rfl⟩⟩
    cases he
    exact hm
  | none =>
    rw [Lru.get_none hf] at h1 ⊢
    cases hprepare : o.prepare with
    | error =>
      exact ⟨none, s₁, m, rest, rfl, h1, fun _ he => (by cases he), Or.inl ⟨fun h => (by cases h.1), rfl⟩⟩
    | empty =>
      exact ⟨none, s₁, m, rest, rfl, h1, fun _ he => (by cases he), Or.inl ⟨fun h => (by cases h.1), rfl⟩⟩
    | ok =>
      obtain ⟨s₂, e2, -, h2⟩ := h1.new.put hf o.callocOk o.strdupOk
      simp only [e2, Option.bind_some]
      cases hboth : o.callocOk && o.strdupOk with
      | true =>
        rw [hboth, if_pos rfl] at h2
        refine ⟨_, s₂, _, rest, rfl, h2, fun stmt' he => ?_,
          Or.inl ⟨fun h => h.2.2 (Bool.and_eq_true_iff.mp hboth), rfl⟩⟩
        cases he
        simp
      | false =>
        rw [hboth, if_neg Bool.false_ne_true] at h2
        refine ⟨_, s₂, _, _, rfl, h2, fun stmt' he => ?_, Or.inr ⟨⟨trivial, trivial, fun hall => ?_⟩, ?_⟩⟩
        · cases he
          simp
        · rw [Bool.and_eq_true_iff.mpr hall] at hboth
          cases hboth
        · rw [hfresh]

theorem sqliteCleanupStmt_rest (ho : Owns cap s m rest) (sql : Text) :
    ∃ s' m', sqliteCleanupStmt sql s = some s' ∧ Owns cap s' m' rest := by
  cases hf : Lru.find m sql with
  | some stmt =>
    obtain ⟨s₁, e1, h1⟩ := ho.remove hf
    exact ⟨s₁.close stmt, _, by rw [sqliteCleanupStmt, e1]; rfl, h1.close⟩
  | none =>
    -- the cache did not take the statement, and it stays as it is
    obtain ⟨c, e, hr⟩ := ho.refines.remove sql
    simp only [Lru.remove, hf, Lru.erase_of_notMem (Lru.find_eq_none.mp hf)] at e hr
    refine ⟨{ s with cache := c }, m, ?_, hr, ho.holds, ho.fresh⟩
    rw [sqliteCleanupStmt, StmtConn.remove, e]
    rfl

theorem sqliteExec_rest (ho : Owns cap s m rest) (o : SqliteOutcome) (sql : Text) (n : ℕ) :
    ∃ err s' m' rest', sqliteExec o sql n s = some (err, s') ∧ Owns cap s' m' rest' ∧
      (¬ Dropped s o sql ∧ rest' = rest ∨ Dropped s o sql ∧ rest' = s.fresh :: rest) := by
  obtain ⟨r, s₁, m₁, rest₁, e1, h1, hr, hrest⟩ := sqliteGetStmt_rest ho o sql
  simp only [sqliteExec, e1, Option.bind_eq_bind, Option.bind_some]
  cases r with
  | none => exact ⟨_, s₁, m₁, rest₁, rfl, h1, hrest⟩
  | some stmt =>
    have hm := hr stmt rfl
    have h2 := (h1.useAll hm (List.replicate n .bind)).use hm .step
    simp only
    by_cases hs : o.stepOk
    · rw [if_pos hs]
      exact ⟨_, _, m₁, rest₁, rfl, h2, hrest⟩
    · rw [if_neg hs]
      obtain ⟨s₃, m₃, e3, h3⟩ := sqliteCleanupStmt_rest h2 sql
      exact ⟨_, s₃, m₃, rest₁, by rw [e3]; rfl, h3, hrest⟩

theorem sqliteQuery_rest (ho : Owns cap s m rest) (o : SqliteOutcome) (sql : Text) (n : ℕ) :
    ∃ err s' m' rest', sqliteQuery o sql n s = some (err, s') ∧ Owns cap s' m' rest' ∧
      (¬ Dropped s o sql ∧ rest' = rest ∨ Dropped s o sql ∧ rest' = s.fresh :: rest) := by
  obtain ⟨r, s₁, m₁, rest₁, e1, h1, hr, hrest⟩ := sqliteGetStmt_rest ho o sql
  simp only [sqliteQuery, e1, Option.bind_eq_bind, Option.bind_some]
  cases r with
  | none => exact ⟨_, s₁, m₁, rest₁, rfl, h1, hrest⟩
  | some stmt =>
    have hm := hr stmt rfl
    have h2 := (h1.useAll hm (List.replicate n .bind)).use hm .columnCount
    simp only
    by_cases hb : o.buffersOk
    · rw [if_pos hb]
      have h3 := (h2.useAll hm (List.replicate o.rows [.step, .column]).flatten).use hm .step
      obtain ⟨s₄, m₄, e4, h4⟩ := sqliteCleanupStmt_rest h3 sql
      cases o.stop with
      | nomem => exact ⟨.nomem, s₄, m₄, rest₁, by simp only [e4, Option.bind_some], h4, hrest⟩
      | error => exact ⟨.backend, s₄, m₄, rest₁, by simp only [e4, Option.bind_some], h4, hrest⟩
      | done =>
        by_cases hres : o.resultOk
        · exact ⟨.ok, _, m₁, rest₁, by simp only [if_pos hres], h3.use hm .columnName, hrest⟩
        · exact ⟨.nomem, s₄, m₄, rest₁, by simp only [if_neg hres, e4, Option.bind_some], h4, hrest⟩
    · rw [if_neg hb]
      obtain ⟨s₃, m₃, e3, h3⟩ := sqliteCleanupStmt_rest h2 sql
      exact ⟨_, s₃, m₃, rest₁, by rw [e3]; rfl, h3, hrest⟩

end Calls

/-- The live statements are those in the cache and the statements `left`. -/
def HasLeft (cacheOk : Bool) (s : SqliteConn) (left : List Stmt) : Prop :=
  ∃ cap m, Owns cap s m left ∧ (cacheOk = false → m = [])

section Steps

variable {s : SqliteConn} {left : List Stmt} {op : SqliteOp} {cacheOk : Bool}

theorem sqliteStep_rest {cap : ℕ} {m : List (Text × Stmt)} (ho : Owns cap s m left) (op : SqliteOp) :
    ∃ s' m' left', sqliteStep s op = some s' ∧ Owns cap s' m' left' ∧
      (¬ Dropped s op.outcome op.sql ∧ left' = left ∨
        Dropped s op.outcome op.sql ∧ left' = s.fresh :: left) := by
  cases op with
  | exec o sql n =>
    obtain ⟨err, s', m', left', e, h, hleft⟩ := sqliteExec_rest ho o sql n
    exact ⟨s', m', left', by rw [sqliteStep, e]; rfl, h, hleft⟩
  | query o sql n =>
    obtain ⟨err, s', m', left', e, h, hleft⟩ := sqliteQuery_rest ho o sql n
    exact ⟨s', m', left', by rw [sqliteStep, e]; rfl, h, hleft⟩

theorem droppedBy_eq_nil_iff : droppedBy cacheOk s op = [] ↔ Keeps cacheOk s op := by
  unfold droppedBy
  split_ifs with hk
  · exact iff_of_true rfl hk
  · exact iff_of_false not_false hk

/-- **One call** leaves the statement that it drops. -/
theorem connStep_leaves (hs : HasLeft cacheOk s left) (op : SqliteOp) :
    ∃ s', connStep cacheOk s op = some s' ∧ HasLeft cacheOk s' (droppedBy cacheOk s op ++ left) := by
  obtain ⟨cap, m, ho, hm⟩ := hs
  unfold droppedBy
  cases cacheOk with
  | true =>
    obtain ⟨s', m', left', e, h, ⟨hkeep, rfl⟩ | ⟨hdrop, rfl⟩⟩ := sqliteStep_rest ho op
    · rw [if_pos (show Keeps true s op from hkeep)]
      exact ⟨s', e, cap, m', h, fun h => absurd h.symm Bool.false_ne_true⟩
    · rw [if_neg (show ¬ Keeps true s op from not_not.mpr hdrop)]
      exact ⟨s', e, cap, m', h, fun h => absurd h.symm Bool.false_ne_true⟩
  | false =>
    by_cases hprepare : op.outcome.prepare = .ok
    · rw [if_neg (show ¬ Keeps false s op from not_not.mpr hprepare)]
      have hnew : s.fresh ∈ m.map Prod.snd ++ s.fresh :: left := by simp
      exact ⟨_, congrArg some (if_pos hprepare), cap, m, ho.new.useAll hnew _, hm⟩
    · rw [if_pos (show Keeps false s op from hprepare)]
      exact ⟨s, congrArg some (if_neg hprepare), cap, m, ho, hm⟩

end Steps

/-! ## Closing -/

/-- The statements that are not finalized. -/
def liveStmts (log : ConnLog) : List Stmt :=
  log.filterMap fun e => match e with
    | .opened (.stmt h) => if .closed (.stmt h) ∈ log then none else some h
    | _ => none

/-- `sqlite3_close`, which refuses while a statement is not finalized. -/
def sqlite3Close (log : ConnLog) : ConnLog :=
  if liveStmts log = [] then .closed .conn :: log else log

/-- `corm_close` of a connection that was opened with the log `opened`. -/
def cormClose (o : OpenOutcome) (opened : ConnLog) (s : SqliteConn) : Option ConnLog :=
  (if o.cacheOk then s.destroy else some s.log).map fun stmts =>
    let log := stmts.map (Event.map .stmt) ++ opened
    let log := if o.cacheOk then .closed .cache :: log else log
    closeAll [.byTable, .byName, .db] (sqlite3Close log)

theorem liveStmts_eq_nil_iff {log : ConnLog} : liveStmts log = [] ↔ ∀ h, ¬ Live log (.stmt h) := by
  unfold liveStmts
  rw [List.filterMap_eq_nil_iff]
  constructor
  · rintro hall h ⟨hopen, hclosed⟩
    have hnone := hall _ hopen
    simp only [if_neg hclosed] at hnone
    cases hnone
  · intro hall e he
    split
    · rename_i h
      exact if_pos (not_not.mp fun hclosed => hall h ⟨he, hclosed⟩)
    · rfl

/-- `sqlite3_close` and the rest of `corm_close`, with the live statements `left`. -/
theorem closed_leaves {log : ConnLog} {left : List Stmt}
    (hh : Holds log (.conn :: ([.byTable, .byName, .db] ++ left.map .stmt))) :
    Holds (closeAll [.byTable, .byName, .db] (sqlite3Close log))
      (left.map .stmt ++ if left = [] then [] else [ConnPart.conn]) := by
  have hlive (h : Stmt) : Live log (.stmt h) ↔ h ∈ left := by
    rw [hh.live]
    simp
  unfold sqlite3Close
  by_cases hnil : left = []
  · have hnone : liveStmts log = [] := liveStmts_eq_nil_iff.mpr fun h hl => by
      rw [hlive, hnil] at hl
      exact List.not_mem_nil hl
    rw [if_pos hnone, if_pos hnil, List.append_nil]
    exact hh.closed.closeAll
  · have hsome : liveStmts log ≠ [] := fun hnone => by
      obtain ⟨h, hmem⟩ := List.exists_mem_of_ne_nil left hnil
      exact liveStmts_eq_nil_iff.mp hnone h ((hlive h).mpr hmem)
    rw [if_neg hsome, if_neg hnil]
    refine Holds.closeAll (hh.perm (List.perm_iff_count.mpr fun b => ?_))
    simp only [List.count_append, List.count_cons, List.count_nil]
    omega

/-- What a close leaves: the statements that the cache did not take, and the connection with them. -/
theorem close_leaves {o : OpenOutcome} {s : SqliteConn} {left : List Stmt}
    (hs : HasLeft o.cacheOk s left) :
    ∃ log, cormClose o (.opened .conn :: openAll o.parts []) s = some log ∧
      Holds log (left.map .stmt ++ if left = [] then [] else [ConnPart.conn]) := by
  obtain ⟨cap, m, ho, hm⟩ := hs
  have hstmts : ∃ stmts, (if o.cacheOk then s.destroy else some s.log) = some stmts ∧
      Holds stmts left := by
    cases hc : o.cacheOk with
    | true => exact ho.destroy
    | false =>
      obtain rfl := hm hc
      exact ⟨s.log, rfl, ho.holds⟩
  obtain ⟨stmts, hdestroy, hleft⟩ := hstmts
  have hopened : Holds (.opened .conn :: openAll o.parts [] : ConnLog) (.conn :: o.parts) := by
    have hparts := holds_parts o
    rw [List.append_nil] at hparts
    refine hparts.opened fun hm => ?_
    rcases mem_openAll_opened.mp hm with hm | hm
    · unfold OpenOutcome.parts at hm
      cases o.cacheOk <;> simp at hm
    · cases hm
  have hout : ∀ h, .opened (.stmt h) ∉ (.opened .conn :: openAll o.parts [] : ConnLog) := by
    intro h hm
    rcases List.mem_cons.mp hm with heq | hm
    · cases heq
    · rcases mem_openAll_opened.mp hm with hm | hm
      · unfold OpenOutcome.parts at hm
        cases o.cacheOk <;> simp at hm
      · cases hm
  have hall := Holds.embed (fun _ _ => ConnPart.stmt.inj) hout hopened hleft
  have hperm : List.Perm (([ConnPart.cache].filter fun _ => o.cacheOk) ++
      .conn :: ([ConnPart.byTable, .byName, .db] ++ left.map ConnPart.stmt))
      (left.map ConnPart.stmt ++ ConnPart.conn :: o.parts) := by
    unfold OpenOutcome.parts
    refine List.perm_iff_count.mpr fun b => ?_
    cases o.cacheOk <;> simp [List.count_cons] <;> omega
  have hcache : Holds (if o.cacheOk then
      .closed .cache :: (stmts.map (Event.map ConnPart.stmt) ++
        Event.opened ConnPart.conn :: openAll o.parts [])
      else stmts.map (Event.map ConnPart.stmt) ++ Event.opened ConnPart.conn :: openAll o.parts [])
      (.conn :: ([ConnPart.byTable, .byName, .db] ++ left.map ConnPart.stmt)) := by
    have hlive := hall.perm hperm
    cases hc : o.cacheOk with
    | true =>
      rw [hc] at hlive
      exact hlive.closed
    | false =>
      rw [hc] at hlive
      exact hlive
  refine ⟨_, by rw [cormClose, hdestroy]; rfl, ?_⟩
  exact closed_leaves hcache

/-- **The life of a connection.** An open that fails leaves the statement cache that it has made, and
nothing else. After an open that succeeds and any calls, a close leaves the statements that were
prepared and did not go into the cache, and when there are any, the connection, which `sqlite3_close`
refuses to close; there are none exactly when each call keeps its statement in the cache. Nothing is
freed twice. -/
theorem connection_lifetime (o : OpenOutcome) {n : ℤ} {s₀ : SqliteConn}
    (h₀ : StmtConn.open SqliteCall n = .ok s₀) (ops : List SqliteOp) :
    ((cormOpenWithConfig o).1 ≠ .ok → Holds (cormOpenWithConfig o).2 o.left) ∧
    ((cormOpenWithConfig o).1 = .ok →
      let left := droppedStmts o.cacheOk s₀ ops
      (∃ s log, Run.exec (connStep o.cacheOk) s₀ ops = some s ∧
        cormClose o (cormOpenWithConfig o).2 s = some log ∧
        Holds log (left.map .stmt ++ if left = [] then [] else [ConnPart.conn])) ∧
      (left = [] ↔ Run.EachStep (connStep o.cacheOk) (Keeps o.cacheOk) s₀ ops)) := by
  refine ⟨open_fails, fun hok => ?_⟩
  obtain ⟨cap, hopen⟩ := owns_open h₀
  have hstart : HasLeft o.cacheOk s₀ [] := ⟨cap, [], hopen, fun _ => rfl⟩
  obtain ⟨s, hrun, hs⟩ := Run.exec_collects
    (fun s l a (hs : HasLeft o.cacheOk s l) => connStep_leaves hs a) hstart ops
  rw [List.append_nil] at hs
  obtain ⟨log, hclose, hlog⟩ := close_leaves hs
  refine ⟨⟨s, log, hrun, by rw [open_succeeds hok]; exact hclose, hlog⟩, ?_⟩
  exact Run.collected_eq_nil_iff (fun _ _ => droppedBy_eq_nil_iff) (by rw [hrun]; rfl)

/-- Every part is allocated, and the backend opens its connection. -/
def allOpened : OpenOutcome := ⟨true, true, true, true, .opens⟩

/-- An `exec` whose cache entry is not allocated. -/
def noEntry : SqliteOp := .exec ⟨.ok, false, true, true, true, 0, .done, true⟩ ['a'] 0

theorem connection_lifetime_noEntry :
    ∃ s₀ s log, StmtConn.open SqliteCall 0 = .ok s₀ ∧
      Run.exec (connStep true) s₀ [noEntry] = some s ∧
      cormClose allOpened (cormOpenWithConfig allOpened).2 s = some log ∧
      Holds log [.stmt 0, .conn] := by
  obtain ⟨-, hlife⟩ := connection_lifetime (n := 0) allOpened rfl [noEntry]
  obtain ⟨⟨s, log, hrun, hclose, hleft⟩, -⟩ := hlife rfl
  exact ⟨_, s, log, rfl, hrun, hclose, hleft⟩

end Corm.Lifetime
