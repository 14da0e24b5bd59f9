import Corm.Backend.SqliteRoundTrip
import Corm.Lib.Run
import Corm.Migration.Model
import Mathlib.Algebra.Ring.Int.Defs

/-!
# Tables whose columns have types

A server that converts each value to the type of its column, and a client that decodes the values of
a result by the types of its columns.

* `TypedDb`, `typedBackend`: the server with its client, and the backend over them;
* `Accepted`: records whose inserts no constraint refuses;
* `createOne_typed`, `createAll_typed`: the rows that are inserted;
* `MemberTrip`: a member that comes back; `TypedTrip`: records that do;
* **`typedTrip_iff`**: records come back exactly when each of their members does;
* `migrated_trip_iff`: the records of a table that was migrated;
* `typeOfName`: the types of the declarations;
* `Encoding`, `varchar_trip_iff`: the characters of a text, and the strings that come back.
-/

namespace Corm

open Sql (Row Engine)

/-! ## The backend -/

/-- A server with columns of the types `Ty`: the value it gets for a parameter, what it stores of one
in a column (`none` when it refuses it), and how the client decodes what is stored. -/
structure TypedDb (V Ty : Type) where
  type : BackendType
  engine : Engine V
  bind : Value → Option V
  columns : Text → List (Text × Ty)
  assign : Ty → V → Option V
  fieldType : Ty → FieldType
  decode : Ty → V → Value
  omitted : Sql.Omitted V
  lastInsertId : Store V → ℤ
  rowsAffected : Store V → ℤ

namespace TypedDb

variable {V Ty : Type} (T : TypedDb V Ty)

/-- The database, before the types of its columns. -/
def dbms : Dbms V where
  engine := T.engine
  bind := T.bind
  omitted := T.omitted
  lastInsertId := T.lastInsertId
  rowsAffected := T.rowsAffected

/-- The values of some columns, as they are stored. -/
def assignAll (t : Text) (sets : List (Text × V)) : Option (List (Text × V)) :=
  sets.mapM fun p => ((T.columns t).lookup p.1).bind fun ty =>
    (T.assign ty p.2).map fun v => (p.1, v)

/-- A statement with the values that are stored. -/
def coerce : Sql.Stmt V → Option (Sql.Stmt V)
  | .insert t cols vs =>
    (T.assignAll t (cols.zip vs)).map fun sets => .insert t cols (sets.map Prod.snd)
  | .update t sets cond => (T.assignAll t sets).map fun sets => .update t sets cond
  | stmt => some stmt

/-- The columns of a table, in a result. -/
def column (t : Text) (i : Fin (T.columns t).length) : Text × Ty := (T.columns t).get i

/-- A row of a result. -/
def decodeRow (t : Text) (row : Row V) (i : Fin (T.columns t).length) : Value :=
  T.decode (T.column t i).2 (row (T.column t i).1)

/-- The result of a query that returns rows of a table. -/
def result (t : Text) (rows : List (Row V)) : Result where
  columnCount := (T.columns t).length
  columnNames := fun i => (T.column t i).1
  columnTypes := fun i => T.fieldType (T.column t i).2
  rows := rows.map (T.decodeRow t)

/-- Run a statement that changes tables. -/
def exec (s : Store V) (sql : Text) (params : List Value) : Err × Store V :=
  match ((T.dbms.read T.type.dialect sql params).bind T.coerce).bind (T.engine.execute T.omitted s.db) with
  | some db => (.ok, { s with db })
  | none => (.backend, s)

end TypedDb

/-- The backend. -/
def typedBackend {V Ty : Type} (T : TypedDb V Ty) : Backend (Store V) Result where
  type := T.type
  exec := T.exec
  query s sql params :=
    match T.dbms.read T.type.dialect sql params with
    | some (.select t cond) =>
      match T.engine.select s.db (.select t cond) with
      | some rows => (.ok, some (T.result t rows), s)
      | none => (.backend, none, s)
    | _ => (.backend, none, s)
  begin_ s := (.ok, { s with saved := some s.db })
  commit s := (.ok, { s with saved := none })
  rollback s := (.ok, ⟨s.saved.getD s.db, none⟩)
  lastInsertId := T.lastInsertId
  rowsAffected := T.rowsAffected

variable {V Ty : Type} {T : TypedDb V Ty} {accepts : Store V → Text → List Value → Bool}
  {m : Model} {s : Store V} {r : Record} {records : List Record}

/-! ## Writing -/

/-- What the server stores for a field of a record. -/
def TypedDb.store (T : TypedDb V Ty) (t : Text) (r : Record) (f : Field) : Option V :=
  (T.bind (fieldGetValue r f)).bind fun v => ((T.columns t).lookup f.nm).bind fun ty =>
    T.assign ty v

/-- The row of a record, next to the rows that the table has. -/
def TypedDb.newRow (T : TypedDb V Ty) (m : Model) (rows : List (Row V)) (r : Record) :
    Option (Row V) :=
  ((insertFields m).mapM (T.store m.table r)).map fun vs =>
    Engine.newRow (insertNames m) vs (T.omitted m.table rows)

/-- Binding all values and converting all of them, as one pass over the fields. -/
theorem mapM_store (t : Text) (r : Record) (fs : List Field) :
    ((fs.mapM fun f => T.bind (fieldGetValue r f)).bind fun vs =>
      (T.assignAll t ((fs.map Field.nm).zip vs)).map fun sets => sets.map Prod.snd) =
      fs.mapM (T.store t r) := by
  induction fs with
  | nil => rfl
  | cons f fs ih =>
    rw [List.mapM_cons, List.mapM_cons, ← ih]
    unfold TypedDb.store
    cases T.bind (fieldGetValue r f) with
    | none => rfl
    | some v =>
      cases hty : (T.columns t).lookup f.nm with
      | none =>
        cases fs.mapM fun f => T.bind (fieldGetValue r f) <;>
          simp [TypedDb.assignAll, List.mapM_cons, hty]
      | some ty =>
        cases hw : T.assign ty v with
        | none =>
          cases fs.mapM fun f => T.bind (fieldGetValue r f) <;>
            simp [TypedDb.assignAll, List.mapM_cons, hty, hw]
        | some w =>
          cases fs.mapM fun f => T.bind (fieldGetValue r f) with
          | none => simp [hw]
          | some vs =>
            cases hsets : (T.assignAll t ((fs.map Field.nm).zip vs)) <;>
              simp_all [TypedDb.assignAll, List.mapM_cons]

theorem read_typed (hm : Validated m) (hne : insertFields m ≠ []) (r : Record) :
    ((T.dbms.read T.type.dialect (buildInsert (queryNew T.type m)) ((insertFields m).map (fieldGetValue r))).bind
      T.coerce).bind (T.engine.execute T.omitted s.db) =
    (T.newRow m (s.db m.table) r).map fun row =>
      Function.update s.db m.table (s.db m.table ++ [row]) := by
  have hns : ∀ f ∈ (queryNew T.type m).model.fields, Ident f.nm := fun f hf => hm.ident_nm hf
  have hstore := mapM_store (T := T) m.table r (insertFields m)
  unfold Dbms.read TypedDb.newRow
  rw [List.mapM_map, ← hstore]
  show Option.bind (Option.bind (Option.bind (List.mapM (fun f => T.bind (fieldGetValue r f)) _) _)
    _) _ = _
  cases hvs : (insertFields m).mapM fun f => T.bind (fieldGetValue r f) with
  | none => rfl
  | some vs =>
    have hlen : (insertNames m).length = vs.length := by
      have := congrArg List.length (Sql.mapM_eq_some_iff.mp hvs)
      simpa [insertNames] using this
    rw [Option.bind_some,
      readStmt_insert hm.table hns (ident_returningCol T.type hm) hne hlen, Option.bind_some]
    show Option.bind (Option.map _ (T.assignAll m.table ((insertNames m).zip vs))) _ =
      Option.map _ (Option.map _ (Option.bind (some vs) _))
    rw [Option.bind_some]
    show _ = Option.map _ (Option.map _ (Option.map _ (T.assignAll m.table ((insertNames m).zip vs))))
    cases T.assignAll m.table ((insertNames m).zip vs) <;> rfl

/-- **An insert** of a record. -/
theorem createOne_typed (hm : Validated m) (hb : m.beforeCreate = none)
    (hne : insertFields m ≠ []) :
    ((createOne (typedBackend T) s m r).err = .ok ↔
      (T.newRow m (s.db m.table) r).isSome = true) ∧
    ∀ row, T.newRow m (s.db m.table) r = some row → (createOne (typedBackend T) s m r).state =
      { s with db := Function.update s.db m.table (s.db m.table ++ [row]) } := by
  have hread := read_typed (T := T) (s := s) hm hne r
  have hbind : bindRecord (queryOp (queryNew T.type m) .insert) (some r) =
      { queryOp (queryNew T.type m) .insert with
        params := (insertFields m).map (fieldGetValue r) } := foldl_queryBind _ _ _
  rcases execWithHooks_cases (typedBackend T) m.beforeCreate m.afterCreate T.lastInsertId bindRecord
    .insert s (queryNew T.type m) (some r) with ⟨record', hhook, hdone⟩ | ⟨hhook, -⟩
  · rw [runHook_none hb] at hhook
    obtain rfl := (Prod.mk.inj hhook).2
    rw [hbind] at hdone
    have hexec : (typedBackend T).exec s (buildSql (queryOp (queryNew T.type m) .insert))
        ((insertFields m).map (fieldGetValue r)) =
        match (T.newRow m (s.db m.table) r).map fun row =>
          Function.update s.db m.table (s.db m.table ++ [row]) with
        | some db => (.ok, { s with db })
        | none => (.backend, s) := by
      rw [← hread]
      rfl
    rw [show createOne (typedBackend T) s m r = _ from hdone]
    simp only [hexec]
    cases T.newRow m (s.db m.table) r with
    | none => exact ⟨iff_of_false (fun h => nomatch h) (fun h => nomatch h), nofun⟩
    | some row =>
      refine ⟨iff_of_true rfl rfl, fun row' hrow => ?_⟩
      obtain rfl := Option.some.inj hrow
      rfl
  · rw [runHook_none hb] at hhook
    exact absurd rfl hhook

/-- The row of a record: what is stored of its members, and what the server puts in the columns that
INSERT leaves out. -/
structure TypedRow (T : TypedDb V Ty) (m : Model) (r : Record) (row : Row V) : Prop where
  bound : ∀ f ∈ insertFields m, T.store m.table r f = some (row f.nm)
  given : ∀ f ∈ m.fields, f.isAutoinc = true → ∃ rows, row f.nm = T.omitted m.table rows f.nm

theorem newRow_typedRow (hm : Validated m) {rows : List (Row V)} {row : Row V}
    (hrow : T.newRow m rows r = some row) : TypedRow T m r row := by
  obtain ⟨vs, hvs, rfl⟩ := Option.map_eq_some_iff.mp hrow
  have hnodup : (insertNames m).Nodup := hm.nodup.sublist (List.filter_sublist.map Field.nm)
  have hmap := Sql.mapM_eq_some_iff.mp hvs
  refine ⟨fun f hf => ?_, fun f hf ha => ⟨rows, ?_⟩⟩
  · have hlook : ((insertNames m).zip vs).lookup f.nm = T.store m.table r f :=
      lookup_zip hnodup hmap hf
    obtain ⟨v, -, hv⟩ := List.mem_map.mp (hmap ▸ List.mem_map_of_mem hf)
    rw [Engine.newRow, hlook, ← hv]
    rfl
  · exact newRow_autoinc hm hf ha vs _

theorem mapM_isSome {α β : Type} {g : α → Option β} {l : List α} :
    (l.mapM g).isSome = true ↔ ∀ a ∈ l, (g a).isSome = true := by
  induction l with
  | nil => simp
  | cons a l ih =>
    rw [List.mapM_cons, List.forall_mem_cons, ← ih]
    cases g a <;> cases l.mapM g <;> simp

theorem newRow_isSome {rows : List (Row V)} : (T.newRow m rows r).isSome = true ↔
    ∀ f ∈ insertFields m, (T.store m.table r f).isSome = true := by
  rw [TypedDb.newRow, Option.isSome_map, mapM_isSome]

/-- The keys, the constraints and the references of the table accept the insert of a record. -/
def InsertAccepted (T : TypedDb V Ty) (accepts : Store V → Text → List Value → Bool) (m : Model)
    (s : Store V) (r : Record) : Prop :=
  accepts s (buildInsert (queryOp (queryNew T.type m) .insert)) (insertParams m r) = true

/-- They accept the inserts of the records, one after the other. -/
def Accepted (T : TypedDb V Ty) (accepts : Store V → Text → List Value → Bool) (m : Model)
    (s : Store V) (records : List Record) : Prop :=
  Run.Along (fun s r => (createOne ((typedBackend T).guard accepts) s m r).state)
    (InsertAccepted T accepts m) s records

theorem accepted_all (T : TypedDb V Ty) (m : Model) (s : Store V) (records : List Record) :
    Accepted T (fun _ _ _ => true) m s records := by
  induction records generalizing s with
  | nil => trivial
  | cons r records ih => exact ⟨rfl, ih _⟩

theorem createOne_accepted (hb : m.beforeCreate = none) (h : InsertAccepted T accepts m s r) :
    createOne ((typedBackend T).guard accepts) s m r = createOne (typedBackend T) s m r := by
  refine execWithHooks_accepted ?_
  show accepts s _ (bindRecord (queryOp (queryNew T.type m) .insert)
    (runHook (queryNew T.type m).model.beforeCreate (some r)).2).params = true
  rw [bound_insertParams hb]
  exact h

theorem Accepted.tail (hb : m.beforeCreate = none) (h : Accepted T accepts m s (r :: records)) :
    createOne ((typedBackend T).guard accepts) s m r = createOne (typedBackend T) s m r ∧
      Accepted T accepts m (createOne (typedBackend T) s m r).state records := by
  have hone := createOne_accepted hb h.1
  refine ⟨hone, ?_⟩
  rw [← hone]
  exact h.2

/-- **The rows of the records.** -/
theorem createAll_typed (hm : Validated m) (hb : m.beforeCreate = none)
    (hne : insertFields m ≠ []) {s' : Store V} (hacc : Accepted T accepts m s records)
    (h : createAll ((typedBackend T).guard accepts) s m records = some s') :
    ∃ rows, List.Forall₂ (TypedRow T m) records rows ∧ s'.db m.table = s.db m.table ++ rows := by
  induction records generalizing s with
  | nil =>
    obtain rfl := Option.some.inj h
    exact ⟨[], .nil, (List.append_nil _).symm⟩
  | cons r records ih =>
    obtain ⟨hone, hrest⟩ := hacc.tail hb
    obtain ⟨hiff, hstate⟩ := createOne_typed (T := T) (s := s) (r := r) hm hb hne
    rw [createAll, hone] at h
    split at h
    · rename_i q rec count s₁ hone
      rw [hone] at hiff hstate hrest
      obtain ⟨row, hrow⟩ := Option.isSome_iff_exists.mp (hiff.mp rfl)
      obtain ⟨rows, hrows, hs'⟩ := ih hrest h
      have htable : s₁.db m.table = s.db m.table ++ [row] := by
        rw [show s₁ = _ from hstate row hrow]
        exact Function.update_self _ _ _
      exact ⟨row :: rows, .cons (newRow_typedRow hm hrow) hrows, by
        rw [hs', htable, List.append_assoc]; rfl⟩
    · cases h

theorem createAll_typed_isSome (hm : Validated m) (hb : m.beforeCreate = none)
    (hne : insertFields m ≠ []) (hacc : Accepted T accepts m s records) :
    (createAll ((typedBackend T).guard accepts) s m records).isSome = true ↔
      ∀ r ∈ records, ∀ f ∈ insertFields m, (T.store m.table r f).isSome = true := by
  induction records generalizing s with
  | nil => exact iff_of_true rfl nofun
  | cons r records ih =>
    obtain ⟨hone, hrest⟩ := hacc.tail hb
    obtain ⟨hiff, -⟩ := createOne_typed (T := T) (s := s) (r := r) hm hb hne
    rw [newRow_isSome] at hiff
    rw [List.forall_mem_cons, ← hiff, createAll, hone]
    clear hone hiff hacc
    revert hrest
    rcases createOne (typedBackend T) s m r with ⟨err, q, rec, count, s₁⟩
    intro hrest
    by_cases herr : err = .ok
    · subst herr
      exact (ih hrest).trans (and_iff_right rfl).symm
    · refine iff_of_false ?_ fun h => herr h.1
      cases err with
      | ok => exact absurd rfl herr
      | _ => exact Bool.false_ne_true

/-! ## Reading -/

/-- The values of a row in the result of its table. -/
def TypedDb.rowValues (T : TypedDb V Ty) (t : Text) (rows : List (Row V)) (row : Row V)
    (i : Fin (T.result t rows).columnCount) : Value := T.decodeRow t row i

theorem result_rows (t : Text) (rows : List (Row V)) :
    (T.result t rows).rows = rows.map (T.rowValues t rows) := rfl

theorem result_value (t c : Text) (rows : List (Row V)) (row : Row V) :
    (T.result t rows).value (T.rowValues t rows row) c =
      ((T.columns t).lookup c).map fun ty => T.decode ty (row c) := by
  have hlookup (l : List (Text × Ty)) : l.lookup c = (l.find? fun p => p.1 == c).map Prod.snd := by
    induction l with
    | nil => rfl
    | cons p l ih =>
      rw [List.lookup_cons, List.find?_cons, BEq.comm]
      cases p.1 == c <;> simp [ih]
  have hfind : (T.columns t).find? (fun p => p.1 == c) =
      ((List.finRange (T.columns t).length).find? fun j => (T.column t j).1 == c).map
        (T.column t) := by
    conv_lhs => rw [← List.map_get_finRange (T.columns t), List.find?_map]
    rfl
  rw [hlookup, hfind]
  show Option.map (T.decodeRow t row)
    ((List.finRange (T.columns t).length).find? fun j => (T.column t j).1 == c) = _
  cases hj : (List.finRange (T.columns t).length).find? fun j => (T.column t j).1 == c with
  | none => rfl
  | some j =>
    have hbeq := List.find?_some hj
    obtain rfl : (T.column t j).1 = c := beq_iff_eq.mp hbeq
    rfl

theorem find_typed (hm : Validated m) (hsoft : softDeleteField m = none) (s : Store V) :
    find (typedBackend T) s (queryNew T.type m) =
      (.ok, some (T.result m.table (s.db m.table)), queryOp (queryNew T.type m) .select, s) := by
  have hscope : findScope (queryNew T.type m) = queryNew T.type m := findScope_none hsoft
  have hread : T.dbms.read T.type.dialect (buildSql (queryOp (queryNew T.type m) .select))
      (queryOp (queryNew T.type m) .select).params = some (.select m.table none) := by
    have hplain : PlainSelect (queryOp (queryNew T.type m) .select) :=
      ⟨rfl, rfl, rfl, rfl, rfl, rfl, rfl, rfl⟩
    have hsql : buildSql (queryOp (queryNew T.type m) .select) =
      buildSelect (queryOp (queryNew T.type m) .select) := rfl
    have hparams : (queryOp (queryNew T.type m) .select).params.mapM T.dbms.bind = some [] := rfl
    rw [Dbms.read, hparams, Option.bind_some, hsql, readStmt_select hplain hm.table]
    rfl
  have hsel : T.engine.select s.db (.select m.table none) = some (s.db m.table) :=
    congrArg some (List.filter_true _)
  have hquery : (typedBackend T).query s (buildSql (queryOp (queryNew T.type m) .select))
      (queryOp (queryNew T.type m) .select).params =
        (.ok, some (T.result m.table (s.db m.table)), s) := by
    unfold typedBackend
    simp only [hread, hsel]
  unfold find
  rw [hscope]
  simp only [hquery]

/-- **What `corm_find_all` returns** of a table. -/
theorem findAll_typed (hm : Validated m) (hsoft : softDeleteField m = none)
    (hf : m.afterFind = none) {n : ℕ} (hn : (s.db m.table).length = n) {count : Option ℤ}
    (hcount : ∀ c ∈ count, 0 < c → (n : ℤ) ≤ c) (spare : ℕ) :
    findAll (typedBackend T) s m none (some (List.replicate (n + spare) zeroRecord)) count =
      (((s.db m.table).mapM fun row => fillRecord (T.result m.table (s.db m.table))
        (T.rowValues m.table (s.db m.table) row) m.fields zeroRecord).map fun out =>
          (.ok, some (out ++ List.replicate spare zeroRecord), count.map fun _ => (n : ℤ), s)) := by
  have hlen : (T.result m.table (s.db m.table)).rows.length = n := by
    rw [result_rows, List.length_map, hn]
  unfold findAll
  rw [show (typedBackend T).type = T.type from rfl]
  simp only
  rw [find_typed hm hsoft]
  simp only [hlen]
  rw [copyCount_all hcount, List.take_of_length_le hlen.le, ← hlen, copyRows_replicate hf]
  rw [result_rows, List.mapM_map, Option.map_map]
  rfl

/-! ## The round trip -/

/-- A member comes back: it is stored, decoded by the type of its column, and read. -/
def MemberTrip (T : TypedDb V Ty) (t : Text) (r : Record) (f : Field) : Prop :=
  ∃ v ty y, T.store t r f = some v ∧ (T.columns t).lookup f.nm = some ty ∧
    memberSet f.size f.type (zeroMember f.size f.type) (T.decode ty v).v = some y ∧
    SameMember f.size f.type (r f) y

/-- A value that passes through a column of a type into a member. -/
def Passes (T : TypedDb V Ty) (ty : Ty) (f : Field) (x : Member f.size f.type) (val : Value) : Prop :=
  ∃ v w y, T.bind val = some v ∧ T.assign ty v = some w ∧
    memberSet f.size f.type (zeroMember f.size f.type) (T.decode ty w).v = some y ∧
    SameMember f.size f.type x y

theorem memberTrip_iff_passes {t : Text} {f : Field} {ty : Ty}
    (hty : (T.columns t).lookup f.nm = some ty) :
    MemberTrip T t r f ↔ Passes T ty f (r f) (fieldGetValue r f) := by
  unfold MemberTrip Passes TypedDb.store
  constructor
  · rintro ⟨w, ty', y, hstore, hty', hy, hsame⟩
    obtain rfl := Option.some.inj (hty.symm.trans hty')
    obtain ⟨v, hv, hw⟩ := Option.bind_eq_some_iff.mp hstore
    rw [hty] at hw
    exact ⟨v, w, y, hv, hw, hy, hsame⟩
  · rintro ⟨v, w, y, hv, hw, hy, hsame⟩
    refine ⟨w, ty, y, ?_, hty, hy, hsame⟩
    rw [hv, hty]
    exact hw

/-- Records that are inserted into a table, and found again in an array that is large enough. -/
def TypedTrip (T : TypedDb V Ty) (accepts : Store V → Text → List Value → Bool) (m : Model)
    (s : Store V) (records : List Record) : Prop :=
  ∃ s', createAll ((typedBackend T).guard accepts) s m records = some s' ∧
    ∀ (spare : ℕ) (count : Option ℤ), (∀ c ∈ count, 0 < c → (records.length : ℤ) ≤ c) →
      ∃ out, List.Forall₂ (SameRecord m) records out ∧
        findAll (typedBackend T) s' m none
          (some (List.replicate (records.length + spare) zeroRecord)) count =
            some (.ok, some (out ++ List.replicate spare zeroRecord),
              count.map fun _ => (records.length : ℤ), s')

variable {row : Row V} {rows : List (Row V)}

/-- The columns of the fields, and the values that the server puts in those that INSERT leaves out:
they can be read. -/
structure TypedDb.Declares (T : TypedDb V Ty) (m : Model) : Prop where
  columns : ∀ f ∈ m.fields, ∃ ty, (T.columns m.table).lookup f.nm = some ty
  given : ∀ f ∈ m.fields, f.isAutoinc = true → ∀ ty, (T.columns m.table).lookup f.nm = some ty →
    ∀ rows, ∃ y, memberSet f.size f.type (zeroMember f.size f.type)
      (T.decode ty (T.omitted m.table rows f.nm)).v = some y

theorem typedRow_trip_iff (hm : Validated m) (hT : T.Declares m) (hrow : TypedRow T m r row) :
    (∃ o, fillRecord (T.result m.table rows) (T.rowValues m.table rows row) m.fields
        zeroRecord = some o ∧ SameRecord m r o) ↔
      ∀ f ∈ insertFields m, MemberTrip T m.table r f := by
  rw [fillRecord_trip_iff hm]
  simp only [result_value]
  constructor
  · intro h f hf
    obtain ⟨hfm, ha⟩ := List.mem_filter.mp hf
    obtain ⟨ty, hty⟩ := hT.columns f hfm
    obtain ⟨y, hy, hsame⟩ := h f hfm
    rw [hty] at hy
    exact ⟨row f.nm, ty, y, hrow.bound f hf, hty, hy, hsame (by simpa using ha)⟩
  · intro h f hf
    obtain ⟨ty, hty⟩ := hT.columns f hf
    rw [hty]
    by_cases ha : f.isAutoinc = true
    · obtain ⟨rows', hgiven⟩ := hrow.given f hf ha
      obtain ⟨y, hy⟩ := hT.given f hf ha ty hty rows'
      refine ⟨y, ?_, fun hfalse => absurd ha (by rw [hfalse]; decide)⟩
      show memberSet f.size f.type _ (T.decode ty (row f.nm)).v = some y
      rw [hgiven]
      exact hy
    · have hins : f ∈ insertFields m := List.mem_filter.mpr ⟨hf, by simpa using ha⟩
      obtain ⟨v, ty', y, hv, hty', hy, hsame⟩ := h f hins
      obtain rfl := Option.some.inj (hty.symm.trans hty')
      obtain rfl := Option.some.inj ((hrow.bound f hins).symm.trans hv)
      exact ⟨y, hy, fun _ => hsame⟩

/-- Related lists, and a property of the pairs that depends on the first element only. -/
theorem forall₂_iff_forall {α β : Type} {A P : α → β → Prop} {Q : α → Prop} {as : List α}
    {bs : List β} (h : List.Forall₂ A as bs) (hPQ : ∀ a b, A a b → (P a b ↔ Q a)) :
    List.Forall₂ P as bs ↔ ∀ a ∈ as, Q a := by
  induction h with
  | nil => exact iff_of_true .nil nofun
  | cons hab _ ih => rw [List.forall₂_cons, List.forall_mem_cons, hPQ _ _ hab, ih]

/-- **Records come back** exactly when each member that is inserted does. -/
theorem typedTrip_iff (hm : Validated m) (hsoft : softDeleteField m = none) (hu : Unhooked m)
    (hne : insertFields m ≠ []) (hT : T.Declares m) (hs : s.db m.table = [])
    (hacc : Accepted T accepts m s records) : TypedTrip T accepts m s records ↔
      ∀ r ∈ records, ∀ f ∈ insertFields m, MemberTrip T m.table r f := by
  -- both sides, for the rows that were inserted
  have hread {s' : Store V}
      (hcreate : createAll ((typedBackend T).guard accepts) s m records = some s') :
      (s'.db m.table).length = records.length ∧
      ((∃ out, (s'.db m.table).mapM (fun row => fillRecord (T.result m.table (s'.db m.table))
          (T.rowValues m.table (s'.db m.table) row) m.fields zeroRecord) = some out ∧
        List.Forall₂ (SameRecord m) records out) ↔
      ∀ r ∈ records, ∀ f ∈ insertFields m, MemberTrip T m.table r f) := by
    obtain ⟨rows, hrows, htable⟩ := createAll_typed hm hu.beforeCreate hne hacc hcreate
    rw [hs, List.nil_append] at htable
    rw [htable]
    refine ⟨hrows.length_eq.symm, ?_⟩
    rw [forall₂_mapM_iff]
    exact forall₂_iff_forall hrows fun r row hrow => typedRow_trip_iff hm hT hrow
  constructor
  · intro h
    obtain ⟨s', hcreate, hfind⟩ := h
    obtain ⟨hlen, hiff⟩ := hread hcreate
    obtain ⟨out, hout, hfound⟩ := hfind 0 none (by simp)
    rw [findAll_typed hm hsoft hu.afterFind hlen (by simp)] at hfound
    obtain ⟨out', hmap, heq⟩ := Option.map_eq_some_iff.mp hfound
    obtain rfl : out' = out := by simpa using heq
    exact hiff.mp ⟨out', hmap, hout⟩
  · intro h
    have hstored : ∀ r ∈ records, ∀ f ∈ insertFields m, (T.store m.table r f).isSome = true := by
      intro r hr f hf
      obtain ⟨v, _, _, hv, -⟩ := h r hr f hf
      rw [hv]
      rfl
    obtain ⟨s', hcreate⟩ := Option.isSome_iff_exists.mp
      ((createAll_typed_isSome hm hu.beforeCreate hne hacc).mpr hstored)
    obtain ⟨hlen, hiff⟩ := hread hcreate
    obtain ⟨out, hmap, hout⟩ := hiff.mpr h
    refine ⟨s', hcreate, fun spare count hcount => ⟨out, hout, ?_⟩⟩
    rw [findAll_typed hm hsoft hu.afterFind hlen hcount, hmap]
    rfl

/-! ## Tables that are migrated -/

/-- The columns are those that the migration declares, and the keys that the server gives are read
into integers. -/
structure TypedDb.Migrated (T : TypedDb V Ty) (ofName : Text → Option Ty) (m : Model) : Prop where
  columns : ∀ f ∈ m.fields, ∃ ty, ofName (declared T.type f) = some ty ∧
    (T.columns m.table).lookup f.nm = some ty
  keys : ∀ f ∈ m.fields, f.isAutoinc = true → f.type = .int ∨ f.type = .int64

variable {ofName : Text → Option Ty}

/-- The keys that the server gives can be read, in the columns of the migration. -/
theorem TypedDb.Migrated.declares (hT : T.Migrated ofName m)
    (hgiven : ∀ f ∈ m.fields, f.isAutoinc = true → ∀ ty, ofName (declared T.type f) = some ty →
      ∀ rows c, ∃ n, (T.decode ty (T.omitted m.table rows c)).v = .i n) : T.Declares m where
  columns f hf := by
    obtain ⟨ty, -, hty⟩ := hT.columns f hf
    exact ⟨ty, hty⟩
  given f hf ha ty hty rows := by
    obtain ⟨ty', hname, hty'⟩ := hT.columns f hf
    obtain rfl := Option.some.inj (hty'.symm.trans hty)
    obtain ⟨n, hn⟩ := hgiven f hf ha _ hname rows f.nm
    rw [hn]
    rcases hT.keys f hf ha with htype | htype <;> rw [htype]
    · exact ⟨n.toInt32, rfl⟩
    · exact ⟨n, rfl⟩

/-- **Records come back** from a migrated table exactly when their members pass through the types
that the migration declares. -/
theorem migrated_trip_iff (hm : Validated m) (hsoft : softDeleteField m = none) (hu : Unhooked m)
    (hne : insertFields m ≠ []) (hT : T.Migrated ofName m)
    (hgiven : ∀ f ∈ m.fields, f.isAutoinc = true → ∀ ty, ofName (declared T.type f) = some ty →
      ∀ rows c, ∃ n, (T.decode ty (T.omitted m.table rows c)).v = .i n)
    {Fits : Record → Field → Prop}
    (hfits : ∀ r ∈ records, ∀ f ∈ insertFields m, ∀ ty,
      ofName (dialectTypeNameStr T.type f.type f.size) = some ty →
        (Passes T ty f (r f) (fieldGetValue r f) ↔ Fits r f))
    (hs : s.db m.table = []) (hacc : Accepted T accepts m s records) :
    TypedTrip T accepts m s records ↔ ∀ r ∈ records, ∀ f ∈ insertFields m, Fits r f := by
  rw [typedTrip_iff hm hsoft hu hne (hT.declares hgiven) hs hacc]
  refine forall₂_congr fun r hr => forall₂_congr fun f hf => ?_
  obtain ⟨hfm, ha⟩ := List.mem_filter.mp hf
  obtain ⟨ty, hname, hty⟩ := hT.columns f hfm
  have hplain : ¬ (f.isAutoinc && T.type != .mysql) = true := by
    simp only [Bool.not_eq_true'] at ha
    simp [ha]
  rw [declared, if_neg hplain] at hname
  rw [memberTrip_iff_passes hty, hfits r hr f hf ty hname]

/-! ## Declarations -/

/-- The number in "VARCHAR(n)". -/
def varcharLength (name : Text) : Option ℕ :=
  if "VARCHAR(".toList.isPrefixOf name ∧ name.getLast? = some ')' then
    Sql.digits ((name.drop 8).dropLast)
  else none

/-- The type that a declaration stands for, by the names without a length. -/
def typeOfName (names : List (Text × Ty)) (ofLength : ℕ → Ty) (name : Text) : Option Ty :=
  match names.lookup name with
  | some ty => some ty
  | none => (varcharLength name).map ofLength

theorem varcharLength_varchar (size : ℕ) :
    varcharLength (varchar size) = some (varcharSize size) := by
  have hdrop : (varchar size).drop 8 = (toString (varcharSize size)).toList ++ [')'] := rfl
  have hdec : (toString (varcharSize size)).toList = Nat.toDigits 10 (varcharSize size) := by simp
  have hdigits : Sql.digits (((varchar size).drop 8).dropLast) = some (varcharSize size) := by
    rw [hdrop, List.dropLast_concat, hdec, Sql.digits_toDigits]
  rw [varcharLength, if_pos ⟨rfl, List.getLast?_concat⟩, hdigits]

theorem typeOfName_varchar {names : List (Text × Ty)} {ofLength : ℕ → Ty}
    (hnames : ∀ p ∈ names, p.1.head? ≠ some 'V') (size : ℕ) :
    typeOfName names ofLength (varchar size) = some (ofLength (varcharSize size)) := by
  have hother : names.lookup (varchar size) = none := by
    rw [List.lookup_eq_none_iff]
    intro p hp
    rw [bne_iff_ne]
    intro heq
    exact hnames p hp (by rw [← heq]; rfl)
  rw [typeOfName, hother, varcharLength_varchar]
  rfl

/-- The encoding of a server: the characters of a text, with the bytes of each; `none` when the bytes
are no text. -/
structure Encoding where
  chars : Text → Option (List Text)
  flatten_chars : ∀ s cs, chars s = some cs → cs.flatten = s
  chars_ne : ∀ s cs, chars s = some cs → [] ∉ cs

/-- One byte for each character. -/
def singleByte : Encoding where
  chars s := some (s.map fun c => [c])
  flatten_chars s cs h := by
    obtain rfl := Option.some.inj h
    rw [← List.flatMap_def]
    exact List.flatMap_singleton' s
  chars_ne s cs h := by
    obtain rfl := Option.some.inj h
    simp

/-- What a column with a length stores of characters. Those that are too many are refused, unless
only blanks are cut off. -/
def fitTo (length : ℕ) (cs : List Text) : Option Text :=
  if cs.length ≤ length then some cs.flatten
  else if (cs.drop length).all (· = [' ']) then some (cs.take length).flatten else none

/-- What a VARCHAR column stores of a text. -/
def Encoding.assignVarchar (E : Encoding) (length : ℕ) (s : Text) : Option Text :=
  (E.chars s).bind (fitTo length)

/-- A text of the encoding that has at most so many characters. -/
def Encoding.Fits (E : Encoding) (length : ℕ) (s : Text) : Prop :=
  ∃ cs, E.chars s = some cs ∧ cs.length ≤ length

theorem notMem_assignVarchar {E : Encoding} {c : Char} {length : ℕ} {s s' : Text} (hs : c ∉ s)
    (h : E.assignVarchar length s = some s') : c ∉ s' := by
  obtain ⟨cs, hcs, hfit⟩ := Option.bind_eq_some_iff.mp h
  rw [← E.flatten_chars s cs hcs] at hs
  unfold fitTo at hfit
  split_ifs at hfit <;> obtain rfl := Option.some.inj hfit
  · exact hs
  · intro hc
    obtain ⟨l, hl, hcl⟩ := List.mem_flatten.mp hc
    exact hs (List.mem_flatten.mpr ⟨l, List.mem_of_mem_take hl, hcl⟩)

theorem length_take_flatten_lt {cs : List Text} {n : ℕ} (hne : [] ∉ cs) (h : n < cs.length) :
    (cs.take n).flatten.length < cs.flatten.length := by
  have hsplit : cs.flatten = (cs.take n).flatten ++ (cs.drop n).flatten := by
    rw [← List.flatten_append, List.take_append_drop]
  have hdrop : 0 < (cs.drop n).flatten.length := by
    rw [List.drop_eq_getElem_cons h, List.flatten_cons, List.length_append]
    have hpos : cs[n] ≠ [] := fun hnil => hne (hnil ▸ List.getElem_mem h)
    have := List.length_pos_iff.mpr hpos
    omega
  rw [hsplit, List.length_append]
  omega

/-- **A string comes back** when it has not more characters than its column. -/
theorem varchar_trip_iff (E : Encoding) {size : ℕ} {x : Buffer Char size} (hx : nul ∈ x.1) :
    (∃ s y, E.assignVarchar (varcharSize size) (cstr x.1) = some s ∧
      memberSet size .string (zeroMember size .string) (.s (some s)) = some y ∧
      SameMember size .string x y) ↔ E.Fits (varcharSize size) (cstr x.1) := by
  have hlt : (cstr x.1).length < size := by
    have hlt := cstr_length_lt hx
    rwa [x.2] at hlt
  have hset (s : Text) : memberSet size .string (zeroMember size .string) (.s (some s)) =
    some (copyString size (zeroMember size .string) s) := rfl
  constructor
  · rintro ⟨s, y, hs, hy, hsame⟩
    have hnot := notMem_assignVarchar (notMem_cstr x.1) hs
    obtain ⟨cs, hcs, hfit⟩ := Option.bind_eq_some_iff.mp hs
    refine ⟨cs, hcs, ?_⟩
    by_contra hlong
    unfold fitTo at hfit
    rw [if_neg hlong] at hfit
    split_ifs at hfit with hblank
    obtain rfl := Option.some.inj hfit
    have hshort := length_take_flatten_lt (E.chars_ne _ cs hcs) (Nat.lt_of_not_le hlong)
    rw [E.flatten_chars _ cs hcs] at hshort
    rw [hset] at hy
    obtain rfl := Option.some.inj hy
    have hcut : cstr x.1 = _ := hsame.trans (cstr_copyString hnot (hshort.trans hlt) _)
    rw [← hcut] at hshort
    exact absurd hshort (lt_irrefl _)
  · rintro ⟨cs, hcs, hle⟩
    have hstored : E.assignVarchar (varcharSize size) (cstr x.1) = some (cstr x.1) := by
      rw [Encoding.assignVarchar, hcs, Option.bind_some, fitTo, if_pos hle,
        E.flatten_chars _ cs hcs]
    exact ⟨_, _, hstored, hset _, (cstr_copyString (notMem_cstr _) hlt _).symm⟩

theorem memberSet_empty (size : ℕ) (old : Buffer UInt8 size) :
    memberSet size .blob old (.blob (some [])) = memberSet size .blob old (.blob none) := by
  have hfits : ([] : List UInt8).length ≤ size := Nat.zero_le _
  show some (copyBlob size old []) = some old
  rw [copyBlob, dif_pos hfits]
  rfl

theorem int64_in_range {n : Int64} : -2 ^ 63 ≤ n.toInt ∧ n.toInt < 2 ^ 63 :=
  ⟨n.le_toInt, n.toInt_lt⟩

theorem int32_in_range {n : Int32} : -2 ^ 31 ≤ n.toInt64.toInt ∧ n.toInt64.toInt < 2 ^ 31 := by
  rw [Int32.toInt_toInt64]
  exact ⟨n.le_toInt, n.toInt_lt⟩

end Corm
