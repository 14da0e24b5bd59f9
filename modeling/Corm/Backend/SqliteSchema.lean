import Corm.Backend.SqliteCached

/-!
# Cached statements and the schema

The number of columns of a cached statement is read before its first step, and a statement that
`sqlite_exec` stepped to a row stays there.

* `Serves`, `getStmt_some`, `getStmt_none`: what the calls keep, and the statement they work with;
* `Undisturbed`: statements that stand on a row make no difference to a call;
* `Fits`, `query_fresh_iff`: when one call answers as on a statement that was just prepared;
* **`sqlite_transparent_iff`**: when a run does.
-/

namespace Corm.Cached

variable {D S : Type}

/-! ## What the calls keep -/

/-- The cache holds `m`, and under each text a statement of this text that is not finalized. -/
structure Serves (cap : ℕ) (s : Conn D S) (m : List (Text × Stmt)) : Prop where
  refines : Refines cap true s.cache m
  texts : ∀ e ∈ m, ∃ st, s.stmts e.2 = some st ∧ st.sql = e.1
  nodup : (m.map Prod.snd).Nodup
  fresh : ∀ e ∈ m, e.2 < s.fresh

variable {vm : SqliteVm D S} {cap : ℕ} {s : Conn D S} {m : List (Text × Stmt)} {o : Allocations} {sql : Text}
  {h : Stmt} {st : Prepared S} {params : List Value}

theorem serves_start {db : D} (h : Conn.start S cap db = .ok s) : Serves cap s [] ∧ s.db = db := by
  unfold Conn.start at h
  cases hc : stmtCacheCreate Stmt cap with
  | error e =>
    rw [hc] at h
    cases h
  | ok c =>
    rw [hc] at h
    cases h
    exact ⟨⟨refines_create true hc, by simp, List.nodup_nil, by simp⟩, rfl⟩

theorem Serves.update (hs : Serves cap s m) (hst : s.stmts h = some st) {st' : Prepared S}
    (ht : st'.sql = st.sql) (db : D) :
    Serves cap { s with db, stmts := Function.update s.stmts h (some st') } m := by
  refine ⟨hs.refines, fun e he => ?_, hs.nodup, hs.fresh⟩
  obtain ⟨st₁, h1, h2⟩ := hs.texts e he
  by_cases hh : e.2 = h
  · rw [hh, hst] at h1
    cases h1
    exact ⟨st', by rw [hh]; exact Function.update_self _ _ _, ht.trans h2⟩
  · exact ⟨st₁, (Function.update_of_ne hh _ _).trans h1, h2⟩

theorem Serves.cleanup (hs : Serves cap s m) (sql : Text) :
    ∃ s' m', sqliteCleanupStmt sql s = some s' ∧ Serves cap s' m' ∧ s'.db = s.db := by
  obtain ⟨c, e, hr⟩ := hs.refines.remove sql
  simp only [sqliteCleanupStmt, e, Option.bind_eq_bind, Option.bind_some]
  have hsub : (Lru.erase m sql).Sublist m := List.filter_sublist
  refine ⟨_, _, rfl, ⟨hr, fun e he => ?_, hs.nodup.sublist (hsub.map _),
    fun e he => hs.fresh e (hsub.subset he)⟩, rfl⟩
  obtain ⟨st, h1, h2⟩ := hs.texts e (hsub.subset he)
  refine ⟨st, (if_neg ?_).trans h1, h2⟩
  -- the statement of another text is another statement
  intro hmem
  have hf : Lru.find m sql = some e.2 := by simpa [Lru.remove] using hmem
  have hme := Lru.mem_of_find hf
  have heq := List.inj_on_of_nodup_map hs.nodup hme (hsub.subset he) rfl
  have hk : e.1 ≠ sql := by simpa using (List.mem_filter.mp he).2
  exact hk (congrArg Prod.fst heq).symm

theorem Serves.put (hs : Serves cap s m) (ok : Bool) (sql : Text) (schema : S) {c : StmtCache Stmt}
    (hr : Refines cap true c (lruPut cap ok m sql s.fresh).2.2) :
    let gone := destroyed true (lruPut cap ok m sql s.fresh).2.1
    let stmts := Function.update s.stmts s.fresh (some (.new sql schema))
    Serves cap ⟨s.db, c, finalizeAll stmts gone, s.fresh + 1⟩ (lruPut cap ok m sql s.fresh).2.2 ∧
      finalizeAll stmts gone s.fresh = some (.new sql schema) := by
  have hlt {stmt : Stmt} (h : stmt ∈ m.map Prod.snd) : stmt < s.fresh := by
    obtain ⟨e, he, rfl⟩ := List.mem_map.mp h
    exact hs.fresh e he
  obtain ⟨hnodup, hmem, hdrop⟩ := lruPut_distinct cap hs.refines.2.2.2.2.nodup hs.nodup ok
    sql fun h => Nat.lt_irrefl _ (hlt h)
  intro gone stmts
  have hnew : finalizeAll stmts gone s.fresh = some (.new sql schema) := by
    refine (if_neg fun hd => ?_).trans (Function.update_self _ _ _)
    exact Nat.lt_irrefl _ (hlt (hdrop _ (subset_destroyed hd)).1)
  refine ⟨⟨hr, fun e he => ?_, hnodup, fun e he => ?_⟩, hnew⟩
  · rcases hmem e he with rfl | hm
    · exact ⟨_, hnew, rfl⟩
    · obtain ⟨st, h1, h2⟩ := hs.texts e hm
      have hkept : e.2 ∉ gone := fun hd =>
        (hdrop _ (subset_destroyed hd)).2 (List.mem_map_of_mem he)
      refine ⟨st, (if_neg hkept).trans ?_, h2⟩
      exact (Function.update_of_ne (Nat.ne_of_lt (hs.fresh e hm)) _ _).trans h1
  · rcases hmem e he with rfl | hm
    · exact Nat.lt_succ_self _
    · exact Nat.lt_succ_of_lt (hs.fresh e hm)

/-! ## The statement of a call -/

/-- The statement in the cache. -/
def Conn.cached (s : Conn D S) (sql : Text) : Option (Prepared S) :=
  (stmtCacheGet s.cache (some sql)).bind fun r => r.1.bind s.stmts

/-- The schema under which the statement of a call was compiled, if there is one. -/
def Conn.compiledFor (vm : SqliteVm D S) (s : Conn D S) (sql : Text) : Option S :=
  match s.cached sql with
  | some st => some st.schema
  | none =>
    match vm.compile (vm.schema s.db) sql with
    | .ok _ => some (vm.schema s.db)
    | _ => none

theorem Serves.cached (hs : Serves cap s m) (sql : Text) :
    s.cached sql = (Lru.find m sql).bind s.stmts := by
  obtain ⟨c, e, -⟩ := hs.refines.get sql
  unfold Conn.cached
  rw [e, Option.bind_some, Lru.get_fst]

theorem Serves.get (hs : Serves cap s m) {c : StmtCache Stmt}
    (hr : Refines cap true c (Lru.get m sql).2) :
    Serves cap { s with cache := c } (Lru.get m sql).2 := by
  have hperm := Lru.perm_get (k := sql) hs.refines.2.2.2.2.nodup
  exact ⟨hr, fun e he => hs.texts e (hperm.mem_iff.mp he),
    (hperm.map Prod.snd).nodup_iff.mpr hs.nodup, fun e he => hs.fresh e (hperm.mem_iff.mp he)⟩

theorem Serves.lookup (hs : Serves cap s m) (sql : Text) :
    (∃ h st, Lru.find m sql = some h ∧ s.stmts h = some st ∧ st.sql = sql ∧
      s.cached sql = some st) ∨
    Lru.find m sql = none ∧ s.cached sql = none := by
  have hcached := hs.cached sql
  cases hf : Lru.find m sql with
  | some h =>
    obtain ⟨st, hst, ht⟩ := hs.texts _ (Lru.mem_of_find hf)
    rw [hf, Option.bind_some, hst] at hcached
    exact Or.inl ⟨h, st, rfl, hst, ht, hcached⟩
  | none =>
    rw [hf] at hcached
    exact Or.inr ⟨rfl, hcached⟩

/-- **The statement of a call** has no parameters and is at its beginning, cached or not. -/
theorem getStmt_some (hs : Serves cap s m) (o : Allocations) {schema : S}
    (hc : s.compiledFor vm sql = some schema) :
    ∃ h s' m', sqliteGetStmt vm o sql s = some (some h, s') ∧ Serves cap s' m' ∧ s'.db = s.db ∧
      s'.stmts h = some (.new sql schema) := by
  obtain ⟨c, e, hr⟩ := hs.refines.get sql
  have hget := hs.get hr
  unfold Conn.compiledFor at hc
  simp only [sqliteGetStmt, e, Option.bind_eq_bind, Option.bind_some]
  rw [Lru.get_fst]
  rcases hs.lookup sql with ⟨h, st, hf, hst, ht, hcached⟩ | ⟨hf, hcached⟩
  · rw [hcached] at hc
    obtain rfl := Option.some.inj hc
    simp only [hf, hst, Option.bind_some]
    refine ⟨_, _, _, rfl, hget.update (h := h) hst (show st.reset.clearBindings.sql = st.sql from rfl)
      s.db, rfl, ?_⟩
    refine (Function.update_self _ _ _).trans ?_
    rw [← show st.sql = sql from ht]
    rfl
  · simp only [hcached] at hc
    rw [Lru.get_none hf] at hget hr
    rw [hf]
    split at hc
    · rename_i names hcomp
      cases hc
      obtain ⟨c', e', hr'⟩ := hr.put o.callocOk o.strdupOk sql s.fresh
      obtain ⟨hput, hnew⟩ := hget.put (o.callocOk && o.strdupOk) sql (vm.schema s.db) hr'
      simp only [hcomp, e', Option.bind_some]
      exact ⟨_, _, _, rfl, hput, rfl, hnew⟩
    · cases hc

theorem getStmt_none (hs : Serves cap s m) (o : Allocations)
    (hc : s.compiledFor vm sql = none) :
    ∃ s' m', sqliteGetStmt vm o sql s = some (none, s') ∧ Serves cap s' m' ∧ s'.db = s.db := by
  obtain ⟨c, e, hr⟩ := hs.refines.get sql
  have hget := hs.get hr
  unfold Conn.compiledFor at hc
  simp only [sqliteGetStmt, e, Option.bind_eq_bind, Option.bind_some]
  rw [Lru.get_fst]
  rcases hs.lookup sql with ⟨h, st, -, -, -, hcached⟩ | ⟨hf, hcached⟩
  · rw [hcached] at hc
    cases hc
  · simp only [hcached] at hc
    rw [hf]
    cases hcomp : vm.compile (vm.schema s.db) sql with
    | ok names =>
      rw [hcomp] at hc
      cases hc
    | error => exact ⟨_, _, rfl, hget, rfl⟩
    | empty => exact ⟨_, _, rfl, hget, rfl⟩

/-- The statements that stand on a row when the statement of a call is stepped. -/
def Conn.others (vm : SqliteVm D S) (s : Conn D S) (o : Allocations) (sql : Text) :
    List (Prepared S) := (sqliteGetStmt vm o sql s).elim [] fun r => r.2.unfinished

theorem others_eq {r : Option Stmt × Conn D S} (h : sqliteGetStmt vm o sql s = some r) :
    s.others vm o sql = r.2.unfinished := by
  rw [Conn.others, h]
  rfl

/-- SQLite runs the statement of a call as if no other statement stood on a row. -/
def RunsAlone (vm : SqliteVm D S) (s : Conn D S) (o : Allocations) (sql : Text)
    (params : List Value) : Prop :=
  ∀ names new, vm.compile (vm.schema s.db) sql = .ok names →
    (Prepared.new sql (vm.schema s.db)).bindParams vm 0 params = some new →
      vm.run s.db (s.others vm o sql) sql new.bound = vm.run s.db [] sql new.bound

/-- The statements that earlier calls left on a row make no difference to a call. -/
def Undisturbed (vm : SqliteVm D S) (s : Conn D S) : Call → Prop
  | .exec o sql params => RunsAlone vm s o sql params
  | .query o sql params => o.buffersOk = true → RunsAlone vm s o sql params

/-- The parameters of a statement at its beginning, whatever it was compiled for. -/
theorem bindParams_new (hb : ∀ val ∈ params, (bindParam vm.lib val).isSome) (sql : Text)
    (b : ℕ → Cell) (i : ℕ) : ∃ bound, ∀ schema : S,
      Prepared.bindParams vm ⟨sql, schema, b, none⟩ i params = some ⟨sql, schema, bound, none⟩ := by
  induction params generalizing b i with
  | nil => exact ⟨b, fun _ => rfl⟩
  | cons val vals ih =>
    obtain ⟨c, hc⟩ := Option.isSome_iff_exists.mp (hb val List.mem_cons_self)
    obtain ⟨bound, hbound⟩ := ih (fun v hv => hb v (List.mem_cons_of_mem _ hv))
      (Function.update b (i + 1) c) (i + 1)
    refine ⟨bound, fun schema => ?_⟩
    rw [Prepared.bindParams, hc, Option.bind_some]
    exact hbound schema

/-! ## The columns of a result -/

/-- A query with `n` columns, of a statement that has others by then, fails before it reads a column
that there is not. -/
def FailsUnread (o : Allocations) (n width : ℕ) (rows : List (List Cell)) (done : Bool) : Prop :=
  (rows.take o.rowsOk = [] ∨ n ≤ width) ∧
    (o.rowsOk < rows.length ∨ done = false ∨ o.resultOk = false)

/-- How a query ends that stores its rows but has no result. -/
def failure (o : Allocations) (rows : List (List Cell)) (done : Bool) : Option Err :=
  if o.rowsOk < rows.length then some .nomem
  else if done = false then some .backend
  else if o.resultOk = false then some .nomem
  else none

theorem failure_isSome {rows : List (List Cell)} {done : Bool} : (failure o rows done).isSome ↔
    o.rowsOk < rows.length ∨ done = false ∨ o.resultOk = false := by
  unfold failure
  split_ifs <;> simp_all

theorem assemble_eq (o : Allocations) (n : ℕ) (names : List Text) (rows : List (List Cell))
    (done : Bool) : assemble vm o n names rows done =
      ((rows.take o.rowsOk).mapM (readColumns n)).bind fun stored =>
        match failure o rows done with
        | some err => some (err, none)
        | none => (readColumns n names).map fun names =>
          (.ok, some (Corm.sqliteQuery vm.lib names stored)) := by
  unfold assemble failure
  cases (rows.take o.rowsOk).mapM (readColumns n) with
  | none => rfl
  | some stored =>
    simp only [Option.bind_eq_bind, Option.bind_some]
    split_ifs
    · rfl
    · rfl
    · rfl
    · cases readColumns n names <;> rfl

theorem mapM_readColumns {n width : ℕ} {rows : List (List Cell)}
    (hw : ∀ row ∈ rows, row.length = width) (hn : rows = [] ∨ n ≤ width) :
    ∃ stored, rows.mapM (readColumns n) = some stored := by
  induction rows with
  | nil => exact ⟨[], rfl⟩
  | cons row rows ih =>
    have hle : n ≤ width := hn.resolve_left (List.cons_ne_nil _ _)
    obtain ⟨stored, hs⟩ := ih (fun r hr => hw r (List.mem_cons_of_mem _ hr)) (Or.inr hle)
    have hrow : n ≤ row.length := (hw row List.mem_cons_self).symm ▸ hle
    rw [List.mapM_cons, hs, readColumns, dif_pos hrow]
    exact ⟨_, rfl⟩

theorem mapM_readColumns_none {n width : ℕ} {rows : List (List Cell)}
    (hw : ∀ row ∈ rows, row.length = width) (hne : rows ≠ []) (hn : ¬ n ≤ width) :
    rows.mapM (readColumns n) = none := by
  cases rows with
  | nil => exact absurd rfl hne
  | cons row rows =>
    have hrow : ¬ n ≤ row.length := (hw row List.mem_cons_self).symm ▸ hn
    rw [List.mapM_cons, readColumns, dif_neg hrow]
    rfl

/-- **The result with the columns of another schema** is the right one exactly when there are as
many of them, or the query fails anyway. -/
theorem assemble_eq_iff {names : List Text} {rows : List (List Cell)}
    (hw : ∀ row ∈ rows, row.length = names.length) (o : Allocations) (n : ℕ) (done : Bool) :
    assemble vm o n names rows done = assemble vm o names.length names rows done ↔
      n = names.length ∨ FailsUnread o n names.length rows done := by
  have htake : ∀ row ∈ rows.take o.rowsOk, row.length = names.length :=
    fun row hr => hw row (List.mem_of_mem_take hr)
  obtain ⟨stored, hfresh⟩ := mapM_readColumns htake (n := names.length) (Or.inr le_rfl)
  by_cases hn : n = names.length
  · subst hn
    simp
  · rw [or_iff_right hn, FailsUnread, ← failure_isSome, assemble_eq, assemble_eq, hfresh,
      Option.bind_some]
    by_cases hread : rows.take o.rowsOk = [] ∨ n ≤ names.length
    · obtain ⟨stored', hs⟩ := mapM_readColumns htake hread
      rw [hs, Option.bind_some]
      cases failure o rows done with
      | some err => exact ⟨fun _ => ⟨hread, rfl⟩, fun _ => rfl⟩
      | none =>
        -- both make a result, with different numbers of columns
        have hnames : readColumns names.length names = some fun i => names.get (i.castLE le_rfl) :=
          dif_pos le_rfl
        simp only [hnames, Option.map_some, Option.isSome_none, Bool.false_eq_true, and_false,
          iff_false]
        intro h
        obtain ⟨cols, -, hc⟩ := Option.map_eq_some_iff.mp h
        have hcount := congrArg (fun out : Err × Option Result => out.2.map Result.columnCount) hc
        exact hn (Option.some.inj hcount)
    · rw [not_or] at hread
      rw [mapM_readColumns_none htake hread.1 hread.2, Option.bind_none]
      simp only [hread.1, hread.2, or_self, false_and, iff_false]
      cases failure o rows done with
      | some err => simp
      | none => simp [readColumns]

/-! ## One call -/

/-- What a query answers with a statement that was compiled under a schema, next to other statements,
and the database after it. -/
def answer (vm : SqliteVm D S) (schema : S) (db : D) (others : List (Prepared S)) (o : Allocations)
    (sql : Text) (bound : ℕ → Cell) : Option (Err × Option Result) × D :=
  if o.buffersOk then
    match vm.compile (vm.schema db) sql with
    | .ok names =>
      let (rows, done, db') := vm.run db others sql bound
      (assemble vm o ((Prepared.new sql schema).columns vm).length names rows done, db')
    | _ => (some (.backend, none), db)
  else (some (.nomem, none), db)

theorem start_ok {db : D} {names : List Text} (hc : vm.compile (vm.schema db) sql = .ok names)
    (schema : S) (bound : ℕ → Cell) (others : List (Prepared S)) :
    (Prepared.mk sql schema bound none).start vm db others =
      (((vm.run db others sql bound).1, (vm.run db others sql bound).2.1),
        (vm.run db others sql bound).2.2, ⟨sql, vm.schema db, bound,
          some ((vm.run db others sql bound).1, (vm.run db others sql bound).2.1)⟩) := by
  simp only [Prepared.start, hc]

theorem start_fails {db : D} (hc : ∀ names, vm.compile (vm.schema db) sql ≠ .ok names)
    (schema : S) (bound : ℕ → Cell) (others : List (Prepared S)) :
    (Prepared.mk sql schema bound none).start vm db others =
      (([], false), db, ⟨sql, schema, bound, some ([], false)⟩) := by
  unfold Prepared.start
  cases h : vm.compile (vm.schema db) sql with
  | ok names => exact absurd h (hc names)
  | error => rfl
  | empty => rfl

theorem columns_of_ok {names : List Text} {schema : S} (hc : vm.compile schema sql = .ok names)
    (bound : ℕ → Cell) (cursor : Option (List (List Cell) × Bool)) :
    (Prepared.mk sql schema bound cursor).columns vm = names := by
  simp only [Prepared.columns, hc]

theorem Serves.finish (hs : Serves cap s m) (hst : s.stmts h = some st) {st' : Prepared S}
    (ht : st'.sql = st.sql) (db : D) (sql : Text) (out : Err × Option Result) :
    ∃ s' m', (if out.1 = .ok then
        some (out, { s with db, stmts := Function.update s.stmts h (some st') })
      else (sqliteCleanupStmt sql
        { s with db, stmts := Function.update s.stmts h (some st') }).bind fun s => some (out, s)) =
        some (out, s') ∧
      Serves cap s' m' ∧ s'.db = db := by
  have hu := hs.update hst ht db
  split_ifs
  · exact ⟨_, m, rfl, hu, rfl⟩
  · obtain ⟨s', m', e, hs', hdb⟩ := hu.cleanup sql
    exact ⟨s', m', by rw [e]; rfl, hs', hdb⟩

theorem query_answer (hs : Serves cap s m) {schema : S} (hc : s.compiledFor vm sql = some schema)
    {bound : ℕ → Cell} (hb : ∀ schema : S,
      (Prepared.new sql schema).bindParams vm 0 params = some ⟨sql, schema, bound, none⟩)
    (o : Allocations) :
    (∀ out, (answer vm schema s.db (s.others vm o sql) o sql bound).1 = some out → ∃ s' m',
      sqliteQuery vm o sql params s = some (out, s') ∧ Serves cap s' m' ∧
        s'.db = (answer vm schema s.db (s.others vm o sql) o sql bound).2) ∧
    ((answer vm schema s.db (s.others vm o sql) o sql bound).1 = none →
      sqliteQuery vm o sql params s = none) := by
  obtain ⟨h, s₁, m₁, e₁, hs₁, hdb, hst⟩ := getStmt_some hs o hc
  rw [others_eq e₁]
  have hcols : (Prepared.mk sql schema bound none).columns vm =
      (Prepared.new sql schema).columns vm := rfl
  have hend (st' : Prepared S) (ht : st'.sql = sql) :=
    hs₁.finish hst (show st'.sql = (Prepared.new sql schema).sql from ht)
  unfold sqliteQuery answer
  simp only [e₁, hst, hb schema, Option.bind_eq_bind, Option.bind_some, hcols, ← hdb]
  cases o.buffersOk with
  | false =>
    obtain ⟨s', m', e, hs', hd⟩ :=
      hend ⟨sql, schema, bound, none⟩ rfl s₁.db sql (.nomem, none)
    refine ⟨fun out hout => ?_, fun h => (nomatch h)⟩
    obtain rfl := Option.some.inj hout
    exact ⟨s', m', e, hs', hd⟩
  | true =>
    simp only [if_true]
    cases hcomp : vm.compile (vm.schema s₁.db) sql with
    | ok names =>
      simp only [start_ok hcomp, columns_of_ok hcomp, Prepared.leave]
      cases hout : assemble vm o ((Prepared.new sql schema).columns vm).length names
          (vm.run s₁.db s₁.unfinished sql bound).1 (vm.run s₁.db s₁.unfinished sql bound).2.1 with
      | none => exact ⟨fun out h => (nomatch h), fun _ => rfl⟩
      | some out =>
        obtain ⟨s', m', e, hs', hd⟩ := hend ⟨sql, vm.schema s₁.db, bound,
          some ([], (vm.run s₁.db s₁.unfinished sql bound).2.1)⟩ rfl
          (vm.run s₁.db s₁.unfinished sql bound).2.2 sql out
        refine ⟨fun out' h => ?_, fun h => (nomatch h)⟩
        obtain rfl := Option.some.inj h
        exact ⟨s', m', e, hs', hd⟩
    | _ =>
      have hno : ∀ names, vm.compile (vm.schema s₁.db) sql ≠ .ok names := by
        intro names h
        rw [hcomp] at h
        cases h
      have hfail (n : ℕ) (names : List Text) :
          assemble vm o n names [] false = some (.backend, none) := by
        rw [assemble_eq]
        simp [failure]
      simp only [start_fails hno, hfail, Prepared.leave, Option.bind_some]
      obtain ⟨s', m', e, hs', hd⟩ := hend ⟨sql, schema, bound, some ([], false)⟩ rfl s₁.db
        sql (.backend, none)
      refine ⟨fun out h => ?_, fun h => (nomatch h)⟩
      obtain rfl := Option.some.inj h
      exact ⟨s', m', e, hs', hd⟩

theorem query_none (hs : Serves cap s m) (hc : s.compiledFor vm sql = none) (o : Allocations)
    (params : List Value) :
    ∃ s' m', sqliteQuery vm o sql params s = some ((.backend, none), s') ∧ Serves cap s' m' ∧
      s'.db = s.db := by
  obtain ⟨s', m', e, hs', hdb⟩ := getStmt_none hs o hc
  exact ⟨s', m', by rw [sqliteQuery, e]; rfl, hs', hdb⟩

theorem compiledFor_none (hc : s.compiledFor vm sql = none) :
    s.cached sql = none ∧ ∀ names, vm.compile (vm.schema s.db) sql ≠ .ok names := by
  unfold Conn.compiledFor at hc
  cases hcached : s.cached sql with
  | some st => simp [hcached] at hc
  | none =>
    refine ⟨rfl, fun names hcomp => ?_⟩
    simp [hcached, hcomp] at hc

theorem freshCall_fails {db : D} (c : Call)
    (hc : ∀ names, vm.compile (vm.schema db) c.sql ≠ .ok names) :
    freshCall vm db c = some ((.backend, none), db) := by
  cases c with
  | exec o sql params | query o sql params =>
    unfold freshCall
    cases hcomp : vm.compile (vm.schema db) sql with
    | ok names => exact absurd hcomp (hc names)
    | error => simp only [hcomp]
    | empty => simp only [hcomp]

/-- **What `sqlite_exec` does** with a cached statement is what it does with a new one. -/
theorem exec_fresh (hs : Serves cap s m) (o : Allocations)
    (hb : ∀ val ∈ params, (bindParam vm.lib val).isSome)
    (hq : Undisturbed vm s (.exec o sql params)) :
    ∃ out s' m', s.call vm (.exec o sql params) = some (out, s') ∧ Serves cap s' m' ∧
      freshCall vm s.db (.exec o sql params) = some (out, s'.db) := by
  obtain ⟨bound, hbound⟩ := bindParams_new (S := S) hb sql (fun _ => .null) 0
  have hnew (schema : S) : (Prepared.new sql schema).bindParams vm 0 params =
      some ⟨sql, schema, bound, none⟩ := hbound schema
  cases hc : s.compiledFor vm sql with
  | none =>
    obtain ⟨s', m', e, hs', hdb⟩ := getStmt_none hs o hc
    have hcall : s.call vm (.exec o sql params) = some ((.backend, none), s') := by
      rw [Conn.call, sqliteExec, e]
      rfl
    refine ⟨_, s', m', hcall, hs', ?_⟩
    rw [hdb]
    exact freshCall_fails (.exec o sql params) (compiledFor_none hc).2
  | some schema =>
    obtain ⟨h, s₁, m₁, e₁, hs₁, hdb, hst⟩ := getStmt_some hs o hc
    unfold Conn.call sqliteExec
    simp only [e₁, hst, hnew, Option.bind_eq_bind, Option.bind_some, ← hdb]
    cases hcomp : vm.compile (vm.schema s₁.db) sql with
    | ok names =>
      have halone : vm.run s₁.db s₁.unfinished sql bound = vm.run s₁.db [] sql bound := by
        have hrun := hq names _ (hdb ▸ hcomp) (hnew _)
        rwa [others_eq e₁, ← hdb] at hrun
      have ht : (Prepared.mk sql (vm.schema s₁.db) bound (some ((vm.run s₁.db [] sql bound).1,
          (vm.run s₁.db [] sql bound).2.1))).sql = (Prepared.new sql schema).sql := rfl
      have hu := hs₁.update hst ht (vm.run s₁.db [] sql bound).2.2
      simp only [start_ok hcomp, halone, freshCall, hcomp, hnew, Option.bind_eq_bind,
        Option.bind_some]
      split_ifs
      · exact ⟨_, _, m₁, rfl, hu, rfl⟩
      · obtain ⟨s', m', e, hs', hd⟩ := hu.cleanup sql
        rw [e]
        exact ⟨_, s', m', rfl, hs', by rw [hd]⟩
    | _ =>
      have hno : ∀ names, vm.compile (vm.schema s₁.db) sql ≠ .ok names := by
        intro names h
        rw [hcomp] at h
        cases h
      have ht : (Prepared.mk sql schema bound (some ([], false))).sql = (Prepared.new sql schema).sql :=
        rfl
      have hu := hs₁.update hst ht s₁.db
      obtain ⟨s', m', e, hs', hd⟩ := hu.cleanup sql
      rw [freshCall_fails (.exec o sql params) hno, start_fails hno]
      refine ⟨(.backend, none), s', m', ?_, hs', by rw [hd]⟩
      simp only [ne_eq, not_true, Bool.false_eq_true, or_self, if_false]
      rw [e]
      rfl

/-! ## Runs -/

/-- A query of a text that is in the cache has as many columns as a new statement would, or it fails
anyway before it reads a column that there is not. -/
def Fits (vm : SqliteVm D S) (s : Conn D S) : Call → Prop
  | .exec _ _ _ => True
  | .query o sql params => ∀ st, s.cached sql = some st →
    match vm.compile (vm.schema s.db) sql with
    | .ok names => o.buffersOk = true →
      ∀ new, (Prepared.new sql (vm.schema s.db)).bindParams vm 0 params = some new →
        (st.columns vm).length = names.length ∨
          FailsUnread o (st.columns vm).length names.length (vm.run s.db [] sql new.bound).1
            (vm.run s.db [] sql new.bound).2.1
    | _ => o.buffersOk = true

theorem Serves.cached_sql (hs : Serves cap s m) (hc : s.cached sql = some st) : st.sql = sql := by
  rw [hs.cached] at hc
  obtain ⟨h, hf, hst⟩ := Option.bind_eq_some_iff.mp hc
  obtain ⟨st', hst', ht⟩ := hs.texts _ (Lru.mem_of_find hf)
  rw [show s.stmts h = some st' from hst'] at hst
  obtain rfl := Option.some.inj hst
  exact ht

theorem compiledFor_cached (hc : s.cached sql = some st) :
    s.compiledFor vm sql = some st.schema := by
  simp only [Conn.compiledFor, hc]

theorem fresh_answer {names : List Text} (hcomp : vm.compile (vm.schema s.db) sql = .ok names)
    {bound : ℕ → Cell} (hb : (Prepared.new sql (vm.schema s.db)).bindParams vm 0 params =
      some ⟨sql, vm.schema s.db, bound, none⟩) (o : Allocations) :
    freshCall vm s.db (.query o sql params) =
      (answer vm (vm.schema s.db) s.db [] o sql bound).1.map
        (·, (answer vm (vm.schema s.db) s.db [] o sql bound).2) := by
  have hcols : (Prepared.new sql (vm.schema s.db)).columns vm = names := columns_of_ok hcomp _ _
  simp only [freshCall, answer, hcomp, hb, hcols, Option.bind_eq_bind, Option.bind_some]
  cases o.buffersOk with
  | false => rfl
  | true =>
    simp only [if_true]
    cases assemble vm o names.length names (vm.run s.db [] sql bound).1
      (vm.run s.db [] sql bound).2.1 <;> rfl

/-- **The answer with the columns of an older schema** is that of a new statement exactly when the
query fits. -/
theorem answer_eq_iff (hs : Serves cap s m) (hc : s.cached sql = some st) {bound : ℕ → Cell}
    (hb : ∀ schema : S,
      (Prepared.new sql schema).bindParams vm 0 params = some ⟨sql, schema, bound, none⟩)
    (o : Allocations) :
    (answer vm st.schema s.db [] o sql bound).1.map
        (·, (answer vm st.schema s.db [] o sql bound).2) =
      freshCall vm s.db (.query o sql params) ↔ Fits vm s (.query o sql params) := by
  have hcols : Prepared.columns vm (.new sql st.schema) = st.columns vm := by
    rw [← hs.cached_sql hc]
    rfl
  unfold Fits
  simp only [hc, Option.some.injEq, forall_eq']
  cases hcomp : vm.compile (vm.schema s.db) sql with
  | ok names =>
    have hnames : Prepared.columns vm (.new sql (vm.schema s.db)) = names := columns_of_ok hcomp _ _
    rw [fresh_answer hcomp (hb _)]
    simp only [answer, hcomp, hcols, hnames, hb, Option.some.injEq, forall_eq']
    cases o.buffersOk with
    | false => simp
    | true =>
      have hw := vm.width s.db [] sql bound names hcomp
      have hinj : Function.Injective (Option.map fun out : Err × Option Result =>
          (out, (vm.run s.db [] sql bound).2.2)) :=
        Option.map_injective fun _ _ h => (Prod.mk.inj h).1
      simp only [if_true, forall_const]
      rw [hinj.eq_iff]
      exact assemble_eq_iff hw o _ _
  | _ =>
    have hno : ∀ names, vm.compile (vm.schema s.db) sql ≠ .ok names := by
      intro names h
      rw [hcomp] at h
      cases h
    rw [freshCall_fails (.query o sql params) hno]
    simp only [answer, hcomp]
    cases o.buffersOk <;> simp

/-- The database after a query does not depend on the schema its statement was compiled for. -/
theorem fresh_db {bound : ℕ → Cell} (hb : ∀ schema : S,
      (Prepared.new sql schema).bindParams vm 0 params = some ⟨sql, schema, bound, none⟩)
    {db db' : D} {out : Err × Option Result}
    (hf : freshCall vm db (.query o sql params) = some (out, db')) (schema : S) :
    db' = (answer vm schema db [] o sql bound).2 := by
  cases hcomp : vm.compile (vm.schema db) sql with
  | ok names =>
    simp only [freshCall, hcomp, hb, Option.bind_eq_bind, Option.bind_some] at hf
    unfold answer
    split_ifs at hf ⊢
    · obtain ⟨out', -, hout⟩ := Option.bind_eq_some_iff.mp hf
      obtain ⟨-, rfl⟩ := Prod.mk.inj (Option.some.inj hout)
      rw [hcomp]
    · exact (Prod.mk.inj (Option.some.inj hf)).2.symm
  | _ =>
    have hno : ∀ names, vm.compile (vm.schema db) sql ≠ .ok names := by
      intro names h
      rw [hcomp] at h
      cases h
    rw [freshCall_fails (.query o sql params) hno] at hf
    obtain ⟨-, rfl⟩ := Prod.mk.inj (Option.some.inj hf)
    unfold answer
    split_ifs
    · rw [hcomp]
    · rfl

theorem query_defined (vm : SqliteVm D S) (db : D) (o : Allocations) (sql : Text)
    (hb : ∀ val ∈ params, (bindParam vm.lib val).isSome) :
    ∃ r, freshCall vm db (.query o sql params) = some r := by
  by_cases hcomp : ∃ names, vm.compile (vm.schema db) sql = .ok names
  · obtain ⟨names, hcomp⟩ := hcomp
    obtain ⟨bound, hbound⟩ := bindParams_new (S := S) hb sql (fun _ => .null) 0
    have hnew : (Prepared.new sql (vm.schema db)).bindParams vm 0 params =
      some ⟨sql, vm.schema db, bound, none⟩ := hbound _
    have hw := vm.width db [] sql bound names hcomp
    obtain ⟨stored, hs⟩ := mapM_readColumns (n := names.length)
      (fun row hr => hw row (List.mem_of_mem_take (i := o.rowsOk) hr)) (Or.inr (le_refl _))
    have hnames : readColumns names.length names = some fun i => names.get (i.castLE (le_refl _)) :=
      dif_pos (le_refl _)
    simp only [freshCall, hcomp, hnew, Option.bind_eq_bind, Option.bind_some, assemble_eq, hs, hnames]
    split_ifs
    · cases failure o (vm.run db [] sql bound).1 (vm.run db [] sql bound).2.1 <;> exact ⟨_, rfl⟩
    · exact ⟨_, rfl⟩
  · exact ⟨_, freshCall_fails (.query o sql params) fun names h => hcomp ⟨names, h⟩⟩

theorem answer_undisturbed (hq : Undisturbed vm s (.query o sql params)) {bound : ℕ → Cell}
    (hb : ∀ schema : S,
      (Prepared.new sql schema).bindParams vm 0 params = some ⟨sql, schema, bound, none⟩)
    (schema : S) : answer vm schema s.db (s.others vm o sql) o sql bound =
      answer vm schema s.db [] o sql bound := by
  unfold answer
  split_ifs with hbuffers
  · cases hcomp : vm.compile (vm.schema s.db) sql with
    | ok names => simp only [hq hbuffers names _ hcomp (hb _)]
    | _ => rfl
  · rfl

/-- **One query**: it answers what a new statement would exactly when it fits. -/
theorem query_fresh_iff (hs : Serves cap s m) (o : Allocations)
    (hb : ∀ val ∈ params, (bindParam vm.lib val).isSome)
    (hq : Undisturbed vm s (.query o sql params)) :
    ∃ out db, freshCall vm s.db (.query o sql params) = some (out, db) ∧
      (Fits vm s (.query o sql params) → ∃ s' m',
        s.call vm (.query o sql params) = some (out, s') ∧ Serves cap s' m' ∧ s'.db = db) ∧
      (¬ Fits vm s (.query o sql params) → ∀ out' s',
        s.call vm (.query o sql params) = some (out', s') → out' ≠ out) := by
  obtain ⟨⟨out, db⟩, hfresh⟩ := query_defined vm s.db o sql hb
  refine ⟨out, db, hfresh, ?_⟩
  obtain ⟨bound, hbound⟩ := bindParams_new (S := S) hb sql (fun _ => .null) 0
  have hnew (schema : S) : (Prepared.new sql schema).bindParams vm 0 params =
      some ⟨sql, schema, bound, none⟩ := hbound schema
  have hunfit (hc : s.cached sql = none) : Fits vm s (.query o sql params) := by
    intro st hst
    rw [hc] at hst
    cases hst
  cases hc : s.compiledFor vm sql with
  | none =>
    obtain ⟨hcached, hno⟩ := compiledFor_none hc
    obtain ⟨s', m', e, hs', hdb⟩ := query_none hs hc o params
    rw [freshCall_fails (.query o sql params) hno] at hfresh
    cases hfresh
    exact ⟨fun _ => ⟨s', m', e, hs', hdb⟩, fun h => absurd (hunfit hcached) h⟩
  | some schema =>
    obtain ⟨hsome, hnone⟩ := query_answer hs hc hnew o
    rw [answer_undisturbed hq hnew] at hsome hnone
    have hiff : (answer vm schema s.db [] o sql bound).1.map
        (·, (answer vm schema s.db [] o sql bound).2) = some (out, db) ↔
        Fits vm s (.query o sql params) := by
      rw [← hfresh]
      cases hcached : s.cached sql with
      | some st =>
        rw [compiledFor_cached hcached] at hc
        cases hc
        exact answer_eq_iff hs hcached hnew o
      | none =>
        refine iff_of_true ?_ (hunfit hcached)
        simp only [Conn.compiledFor, hcached] at hc
        split at hc
        · rename_i names hcomp
          cases hc
          exact (fresh_answer hcomp (hnew _) o).symm
        · cases hc
    rw [← hiff]
    constructor
    · intro h
      obtain ⟨out', hout, hr⟩ := Option.map_eq_some_iff.mp h
      obtain ⟨s', m', e, hs', hdb⟩ := hsome out' hout
      obtain ⟨rfl, rfl⟩ := Prod.mk.inj hr
      exact ⟨s', m', e, hs', hdb⟩
    · intro h out' s' hcall heq
      cases ha : (answer vm schema s.db [] o sql bound).1 with
      | none =>
        rw [show s.call vm (.query o sql params) = none from hnone ha] at hcall
        cases hcall
      | some a =>
        obtain ⟨s₁, m₁, e, -, hdb⟩ := hsome a ha
        rw [show s.call vm (.query o sql params) = some (a, s₁) from e] at hcall
        cases hcall
        refine h ?_
        rw [ha, heq, ← fresh_db hnew hfresh schema]
        rfl

theorem freshCalls_defined (vm : SqliteVm D S) (db : D) {calls : List Call}
    (hb : ∀ c ∈ calls, c.Bindable vm) : ∃ r, freshCalls vm db calls = some r := by
  induction calls generalizing db with
  | nil => exact ⟨_, rfl⟩
  | cons c cs ih =>
    have hone : ∃ r, freshCall vm db c = some r := by
      have hc := hb c List.mem_cons_self
      cases c with
      | query o sql params => exact query_defined vm db o sql hc
      | exec o sql params =>
        obtain ⟨bound, hbound⟩ := bindParams_new (S := S) hc sql (fun _ => .null) 0
        have hnew : (Prepared.new sql (vm.schema db)).bindParams vm 0 params =
            some ⟨sql, vm.schema db, bound, none⟩ := hbound _
        by_cases hcomp : ∃ names, vm.compile (vm.schema db) sql = .ok names
        · obtain ⟨names, hcomp⟩ := hcomp
          simp only [freshCall, hcomp, hnew, Option.bind_eq_bind, Option.bind_some]
          exact ⟨_, rfl⟩
        · exact ⟨_, freshCall_fails (.exec o sql params) fun names h => hcomp ⟨names, h⟩⟩
    obtain ⟨r, hr⟩ := hone
    obtain ⟨rs, hrs⟩ := ih r.2 fun c h => hb c (List.mem_cons_of_mem _ h)
    rw [freshCalls, hr, Option.bind_some, hrs]
    exact ⟨_, rfl⟩

theorem calls_fresh_iff (hs : Serves cap s m) {calls : List Call}
    (hb : ∀ c ∈ calls, c.Bindable vm)
    (hq : Run.EachReached (fun s c => (s.call vm c).map Prod.snd) (Undisturbed vm) s calls) :
    s.calls vm calls = freshCalls vm s.db calls ↔
      Run.EachStep (fun s c => (s.call vm c).map Prod.snd) (Fits vm) s calls := by
  induction calls generalizing s m with
  | nil => exact ⟨fun _ => trivial, fun _ => rfl⟩
  | cons c cs ih =>
    have hcs : ∀ c ∈ cs, c.Bindable vm := fun c h => hb c (List.mem_cons_of_mem _ h)
    obtain ⟨hc, hrest⟩ := hq
    -- a call that answers as a new statement, and the rest of the run
    have hgood {out : Err × Option Result} {s' : Conn D S} {m' : List (Text × Stmt)}
        (hf : Fits vm s c) (e : s.call vm c = some (out, s')) (hs' : Serves cap s' m')
        (hfresh : freshCall vm s.db c = some (out, s'.db)) :
        s.calls vm (c :: cs) = freshCalls vm s.db (c :: cs) ↔
          Run.EachStep (fun s c => (s.call vm c).map Prod.snd) (Fits vm) s (c :: cs) := by
      have hinj : Function.Injective (Option.map fun rs : List (Err × Option Result) × D =>
          (out :: rs.1, rs.2)) :=
        Option.map_injective fun x y h => by
          obtain ⟨h1, h2⟩ := Prod.mk.inj h
          exact Prod.ext (List.cons.inj h1).2 h2
      rw [Conn.calls, freshCalls, e, hfresh, Option.bind_some, Option.bind_some, hinj.eq_iff,
        ih hs' hcs (hrest s' (congrArg (Option.map Prod.snd) e))]
      constructor
      · intro h
        exact ⟨hf, s', congrArg (Option.map Prod.snd) e, h⟩
      · rintro ⟨-, s₁, e₁, h⟩
        have hs₁ : (s.call vm c).map Prod.snd = some s₁ := e₁
        rw [e] at hs₁
        cases hs₁
        exact h
    cases c with
    | exec o sql params =>
      obtain ⟨out, s', m', e, hs', hfresh⟩ := exec_fresh hs o (hb _ List.mem_cons_self) hc
      exact hgood trivial e hs' hfresh
    | query o sql params =>
      obtain ⟨out, db, hfresh, hfit, hunfit⟩ := query_fresh_iff hs o (hb _ List.mem_cons_self) hc
      by_cases hf : Fits vm s (.query o sql params)
      · obtain ⟨s', m', e, hs', rfl⟩ := hfit hf
        exact hgood hf e hs' hfresh
      · refine iff_of_false (fun heq => ?_) fun h => hf h.1
        obtain ⟨rs, hrs⟩ := freshCalls_defined vm db hcs
        rw [Conn.calls, freshCalls, hfresh, Option.bind_some, hrs] at heq
        obtain ⟨⟨out', s'⟩, e, hmap⟩ := Option.bind_eq_some_iff.mp heq
        obtain ⟨rs', -, hr⟩ := Option.map_eq_some_iff.mp hmap
        exact hunfit hf out' s' e (List.cons.inj (Prod.mk.inj hr).1).1

/-- **The statement cache is transparent** in a run on a new connection, for any SQLite, any
database, any capacity and any exec and query calls: where no statement that was left on a row
disturbs a call, they return what they return when each statement is freshly prepared, and leave the
same database, if and only if each query of the run fits. -/
theorem sqlite_transparent_iff (vm : SqliteVm D S) {cap : ℕ} {db : D} {s₀ : Conn D S}
    (h₀ : Conn.start S cap db = .ok s₀) {calls : List Call}
    (hb : ∀ c ∈ calls, c.Bindable vm)
    (hq : Run.EachReached (fun s c => (s.call vm c).map Prod.snd) (Undisturbed vm) s₀ calls) :
    s₀.calls vm calls = freshCalls vm db calls ↔
      Run.EachStep (fun s c => (s.call vm c).map Prod.snd) (Fits vm) s₀ calls := by
  obtain ⟨hs, rfl⟩ := serves_start h₀
  exact calls_fresh_iff hs hb hq

/-! ## A column that is added later -/

/-- A SQLite with one table and one row in it; the state tells whether the column `age` was added,
when there is the table. It cannot be dropped while another statement stands on a row. -/
def growingVm : SqliteVm (Option Bool) (Option Bool) where
  lib := plainSqlite
  schema aged := aged
  compile aged sql :=
    match aged with
    | none => .error
    | some aged =>
      if sql = "SELECT * FROM users".toList then
        .ok (if aged then ["id".toList, "age".toList] else ["id".toList])
      else if sql = "ALTER TABLE users ADD COLUMN age".toList then
        if aged then .error else .ok []
      else if sql = "DROP TABLE users".toList then .ok []
      else .error
  run aged others sql _ :=
    if sql = "SELECT * FROM users".toList then
      ([if aged = some true then [.integer 1, .null] else [.integer 1]], true, aged)
    else if sql = "DROP TABLE users".toList then
      if others.isEmpty then ([], true, none) else ([], false, aged)
    else ([], true, some true)
  width aged others sql _ names h row hr := by
    by_cases hsel : sql = "SELECT * FROM users".toList
    · rw [if_pos hsel] at hr
      obtain rfl := List.mem_singleton.mp hr
      cases aged with
      | none => cases h
      | some aged =>
        simp only [if_pos hsel] at h
        rw [← Compiled.ok.inj h]
        cases aged <;> rfl
    · rw [if_neg hsel] at hr
      split_ifs at hr <;> cases hr

/-- Every allocation succeeds. -/
def plenty : Allocations := ⟨true, true, true, 16, true⟩

/-- The table is read, gets a column, and is read again. -/
def growingCalls : List Call :=
  [.query plenty "SELECT * FROM users".toList [],
    .exec plenty "ALTER TABLE users ADD COLUMN age".toList [],
    .query plenty "SELECT * FROM users".toList []]

theorem bindable_growingCalls : ∀ c ∈ growingCalls, c.Bindable growingVm := by
  simp [growingCalls, Call.Bindable]

theorem sql_growingCalls : ∀ c ∈ growingCalls, c.sql ≠ "DROP TABLE users".toList := by
  decide +kernel

theorem undisturbed_growingVm {c : Call} (hc : c.sql ≠ "DROP TABLE users".toList)
    (s : Conn (Option Bool) (Option Bool)) : Undisturbed growingVm s c := by
  cases c with
  | exec o sql params =>
    intro names new _ _
    simp only [growingVm, if_neg (show sql ≠ _ from hc)]
  | query o sql params =>
    intro _ names new _ _
    simp only [growingVm, if_neg (show sql ≠ _ from hc)]

/-- The second result lacks the new column. -/
theorem sqlite_stale_growingCalls : ∃ s₀, Conn.start (Option Bool) 64 (some false) = .ok s₀ ∧
    (∀ c ∈ growingCalls, c.Bindable growingVm) ∧
    ¬ s₀.calls growingVm growingCalls = freshCalls growingVm (some false) growingCalls := by
  refine ⟨_, rfl, bindable_growingCalls, fun h => ?_⟩
  have hcols := congrArg (Option.map fun rs : List (Err × Option Result) × Option Bool =>
    rs.1.map fun r => r.2.map Result.columnCount) h
  exact absurd hcols (by decide +kernel)

theorem sqlite_transparent_iff_growingCalls :
    ∃ s₀, Conn.start (Option Bool) 64 (some false) = .ok s₀ ∧
    (s₀.calls growingVm growingCalls = freshCalls growingVm (some false) growingCalls ↔
      Run.EachStep (fun s c => (s.call growingVm c).map Prod.snd) (Fits growingVm) s₀
        growingCalls) :=
  ⟨_, rfl, @sqlite_transparent_iff _ _ growingVm 64 (some false) _ rfl _ bindable_growingCalls
    (Run.eachReached_of_forall (fun c hc => undisturbed_growingVm (sql_growingCalls c hc)) _)⟩

/-- The table is read with `sqlite_exec`, which leaves the statement on its row, and is dropped. -/
def droppedCalls : List Call :=
  [.exec plenty "SELECT * FROM users".toList [], .exec plenty "DROP TABLE users".toList [],
    .query plenty "SELECT * FROM users".toList []]

/-- **A statement on a row**: the table is locked, and is still there in the end. -/
theorem sqlite_locked_droppedCalls : ∃ s₀, Conn.start (Option Bool) 64 (some false) = .ok s₀ ∧
    ¬ s₀.calls growingVm droppedCalls = freshCalls growingVm (some false) droppedCalls := by
  refine ⟨_, rfl, fun h => ?_⟩
  have herrs := congrArg (Option.map fun rs : List (Err × Option Result) × Option Bool =>
    rs.1.map Prod.fst) h
  exact absurd herrs (by decide +kernel)

end Corm.Cached
