import Corm.Batch.Insert
import Corm.Create
import Corm.SoftDelete.Binding

/-!
# A create of many records

* `createBatch`: `corm_create_batch`;
* `Sends`, `createBatchLoop_sends`: the records that a run of its loop sends, and in which chunks;
* **`createBatch_one_by_one`**: its statements insert what `corm_create` inserts for each record.
-/

namespace Corm

open Sql (lex)

/-! ## The loop -/

section

variable {σ ρ : Type} (b : Backend σ ρ)

/-- The size of a chunk, 100 where none is given. -/
def chunkSize (batchSize : ℤ) : { size : ℕ // 0 < size } :=
  if h : batchSize ≤ 0 then ⟨100, by decide⟩ else ⟨batchSize.toNat, by omega⟩

/-- The loop of `corm_create_batch` from the record with the index `i` on; no index leaves `int`. -/
def createBatchLoop (m : Model) (records : List Record) (size : { size : ℕ // 0 < size }) (s : σ)
    (i : ℕ) (total : ℤ) : Err × ℤ × σ :=
  if i < records.length then
    let current := if i + size.1 > records.length then records.length - i else size.1
    let stmt := insertBatch b.type m ((records.drop i).take current)
    match b.exec s stmt.1 stmt.2 with
    | (.ok, s) => createBatchLoop m records size s (i + size.1) (total + current)
    | (err, s) => (err, total, s)
  else (.ok, total, s)
termination_by records.length - i
decreasing_by
  have := size.2
  omega

/-- `corm_create_batch`: its result, the inserted count, and the state of the database. -/
def createBatch (s : σ) (m : Model) (records : List Record) (batchSize : ℤ) : Err × ℤ × σ :=
  if records = [] then (.null, 0, s)
  else if insertFields m = [] then (.mismatch, 0, s)
  else createBatchLoop b m records (chunkSize batchSize) s 0 0

end

/-! ## Its statements -/

/-- A backend that keeps the statements it is given; the result of the `n`-th is `results n`. -/
def scripted (type : BackendType) (results : ℕ → Err) : Backend (List (Text × List Value)) Unit :=
  { recorder type with
    exec := fun log sql params => (results log.length, log ++ [(sql, params)]) }

variable {bt : BackendType} {m : Model} {records : List Record} {size : { size : ℕ // 0 < size }}
  {results : ℕ → Err} {rec : Record}

/-- What a run sends, from the statement `n` on: chunks of the records, one after the other; all of
them when it succeeds, and otherwise up to the chunk whose statement fails. -/
structure Sends (size : ℕ) (results : ℕ → Err) (n : ℕ) (records : List Record)
    (chunks : List (List Record)) (err : Err) (count : ℕ) : Prop where
  sizes : ∀ c ∈ chunks, 0 < c.length ∧ c.length ≤ size
  full : ∀ c ∈ chunks.dropLast, c.length = size
  sent : chunks.flatten <+: records
  ok : err = .ok → chunks.flatten = records ∧ count = records.length ∧
    ∀ k < chunks.length, results (n + k) = .ok
  failed : err ≠ .ok → ∃ done last, chunks = done ++ [last] ∧ count = done.flatten.length ∧
    (∀ k < done.length, results (n + k) = .ok) ∧ results (n + done.length) = err

theorem sends_nil (size : ℕ) (results : ℕ → Err) (n : ℕ) : Sends size results n [] [] .ok 0 where
  sizes := by simp
  full := by simp
  sent := List.prefix_rfl
  ok _ := by simp
  failed h := absurd rfl h

theorem sends_failed {n : ℕ} {err : Err} {rest c : List Record} (herr : results n = err)
    (hne : err ≠ .ok) (hc : 0 < c.length ∧ c.length ≤ size.1) :
    Sends size.1 results n (c ++ rest) [c] err 0 where
  sizes := by simpa using hc
  full := by simp
  sent := by simp
  ok h := absurd h hne
  failed _ := ⟨[], c, rfl, rfl, by simp, herr⟩

theorem all_ok_succ {n len : ℕ} (hok : results n = .ok)
    (hres : ∀ k < len, results (n + 1 + k) = .ok) : ∀ k < len + 1, results (n + k) = .ok := by
  intro k hk
  cases k with
  | zero => exact hok
  | succ k =>
    have hres' := hres k (by omega)
    rwa [Nat.add_right_comm] at hres'

theorem Sends.cons {n count : ℕ} {err : Err} {rest c : List Record} {chunks : List (List Record)}
    (h : Sends size.1 results (n + 1) rest chunks err count) (hok : results n = .ok)
    (hc : 0 < c.length ∧ c.length ≤ size.1) (hfull : rest ≠ [] → c.length = size.1) :
    Sends size.1 results n (c ++ rest) (c :: chunks) err (c.length + count) where
  sizes := by
    intro d hd
    rcases List.mem_cons.mp hd with rfl | hd
    · exact hc
    · exact h.sizes d hd
  full := by
    cases chunks with
    | nil => simp
    | cons d chunks =>
      have hrest : rest ≠ [] := by
        rintro rfl
        have hd := (h.sizes d List.mem_cons_self).1
        have hnil := List.prefix_nil.mp h.sent
        rw [List.flatten_cons, List.append_eq_nil_iff] at hnil
        rw [hnil.1] at hd
        exact Nat.lt_irrefl 0 hd
      intro e he
      rw [List.dropLast_cons_cons] at he
      rcases List.mem_cons.mp he with rfl | he
      · exact hfull hrest
      · exact h.full e he
  sent := by
    rw [List.flatten_cons]
    exact (List.prefix_append_right_inj c).mpr h.sent
  ok herr := by
    obtain ⟨hflat, hcount, hres⟩ := h.ok herr
    exact ⟨by rw [List.flatten_cons, hflat], by rw [List.length_append, hcount],
      all_ok_succ hok hres⟩
  failed herr := by
    obtain ⟨done, last, rfl, rfl, hres, hlast⟩ := h.failed herr
    refine ⟨c :: done, last, rfl, by simp, all_ok_succ hok hres, ?_⟩
    rw [List.length_cons, ← Nat.add_assoc, Nat.add_right_comm]
    exact hlast

theorem chunk_spec {i current : ℕ} (hi : i < records.length)
    (hcur : current = if i + size.1 > records.length then records.length - i else size.1) :
    ((records.drop i).take current).length = current ∧ 0 < current ∧ current ≤ size.1 ∧
      (records.drop i).take current ++ records.drop (i + size.1) = records.drop i ∧
      (records.drop (i + size.1) ≠ [] → current = size.1) := by
  have hsize := size.2
  have hlen : ((records.drop i).take current).length = current := by
    rw [List.length_take, List.length_drop]
    split_ifs at hcur <;> omega
  refine ⟨hlen, ?_, ?_, ?_, ?_⟩
  · split_ifs at hcur <;> omega
  · split_ifs at hcur <;> omega
  · have hrest : records.drop (i + size.1) = (records.drop i).drop current := by
      rw [List.drop_drop]
      split_ifs at hcur with hbig
      · rw [List.drop_of_length_le (by omega), List.drop_of_length_le (by omega)]
      · rw [hcur]
    rw [hrest, List.take_append_drop]
  · intro hne
    rw [Ne, List.drop_eq_nil_iff] at hne
    rw [hcur, if_neg (by omega)]

/-- **The run of the loop.** -/
theorem createBatchLoop_sends (bt : BackendType) (m : Model) (records : List Record)
    (size : { size : ℕ // 0 < size }) (results : ℕ → Err) (log : List (Text × List Value)) (i : ℕ)
    (total : ℤ) :
    ∃ (chunks : List (List Record)) (err : Err) (count : ℕ),
      createBatchLoop (scripted bt results) m records size log i total =
        (err, total + count, log ++ chunks.map (insertBatch bt m)) ∧
      Sends size.1 results log.length (records.drop i) chunks err count := by
  induction hn : records.length - i using Nat.strongRecOn generalizing log i total with
  | ind n ih =>
    subst hn
    rw [createBatchLoop]
    by_cases hi : i < records.length
    · rw [if_pos hi]
      obtain ⟨current, hcur⟩ : ∃ current, current =
          if i + size.1 > records.length then records.length - i else size.1 := ⟨_, rfl⟩
      obtain ⟨hlen, hpos, hle, hcat, hfull⟩ := chunk_spec hi hcur
      simp only [← hcur]
      generalize (records.drop i).take current = chunk at hlen hcat ⊢
      have hexec : (scripted bt results).exec log (insertBatch bt m chunk).1
          (insertBatch bt m chunk).2 = (results log.length, log ++ [insertBatch bt m chunk]) := rfl
      rw [show (scripted bt results).type = bt from rfl, hexec, ← hcat]
      cases herr : results log.length with
      | ok =>
        obtain ⟨chunks, err, count, hrun, hsends⟩ := ih (records.length - (i + size.1)) (by omega)
          (log ++ [insertBatch bt m chunk]) (i + size.1) (total + current) rfl
        rw [List.length_append, List.length_singleton] at hsends
        refine ⟨chunk :: chunks, err, chunk.length + count, ?_, ?_⟩
        · show createBatchLoop _ _ _ _ _ _ _ = _
          rw [hrun]
          refine Prod.ext rfl (Prod.ext ?_ ?_)
          · show total + current + count = total + ((chunk.length + count : ℕ) : ℤ)
            omega
          · simp
        · exact hsends.cons herr (by omega) fun hne => by rw [hlen, hfull hne]
      | _ =>
        refine ⟨[chunk], results log.length, 0, by simp [herr], ?_⟩
        exact sends_failed rfl (by simp [herr]) (by omega)
    · rw [if_neg hi]
      refine ⟨[], .ok, 0, by simp, ?_⟩
      rw [List.drop_of_length_le (Nat.le_of_not_lt hi)]
      exact sends_nil _ _ _

/-! ## One by one -/

/-- The statement that `corm_create` executes for a record on a new query. -/
def created (bt : BackendType) (m : Model) (rec : Record) : List (Option (Sql.Stmt Value)) :=
  (create (recorder bt) [] (queryNew bt m) rec).state.map fun e => Sql.readStmt bt.dialect e.1 e.2

theorem created_eq (bt : BackendType) (hm : Validated m) (hne : insertFields m ≠ [])
    (hhook : m.beforeCreate = none) (rec : Record) :
    created bt m rec = [some (.insert m.table (insertNames m) (rowOf m rec))] := by
  have hbind : bindRecord (queryOp (queryNew bt m) .insert) (some rec) =
      { queryOp (queryNew bt m) .insert with params := rowOf m rec } := foldl_queryBind _ _ _
  have hrun : runHook (queryNew bt m).model.beforeCreate (some rec) = (.ok, some rec) := by
    show runHook m.beforeCreate _ = _
    rw [hhook]
    rfl
  have hlen : (insertNames m).length = (rowOf m rec).length := by
    rw [length_rowOf]
    exact List.length_map _
  have hread : Sql.readStmt bt.dialect (buildInsert (queryNew bt m)) (rowOf m rec) = _ :=
    readStmt_insert hm.table (fun f hf => hm.ident_nm hf) (ident_returningCol bt hm) hne hlen
  unfold created create execWithHooks
  rw [hrun]
  simp only
  rw [hbind]
  exact congrArg (fun stmt => [stmt]) hread

/-- The statements of `corm_create_batch` are `corm_create`'s, put together in `parts`: the same
columns and values for each record in turn, with placeholders for exactly the parameters, in order.
A run that succeeds reaches the last record; one that fails stops at the statement that does. -/
structure OneByOne (bt : BackendType) (m : Model) (records : List Record) (size : ℕ)
    (results : ℕ → Err) (out : Err × ℤ × List (Text × List Value))
    (parts : List (List (Sql.Stmt Value))) : Prop where
  reads : (out.2.2.mapM fun e => Sql.readInserts bt.dialect e.1 e.2) = some parts
  placeholders : ∀ e ∈ out.2.2,
    (lex bt.dialect e.1).map (Sql.slots 0) = some ((List.range e.2.length).map some)
  sizes : ∀ part ∈ parts, 0 < part.length ∧ part.length ≤ size
  full : ∀ part ∈ parts.dropLast, part.length = size
  creates : parts.flatten.map some =
    (records.take parts.flatten.length).flatMap (created bt m)
  ok : out.1 = .ok → parts.flatten.length = records.length ∧ out.2.1 = records.length ∧
    ∀ k < parts.length, results k = .ok
  failed : out.1 ≠ .ok → ∃ done last, parts = done ++ [last] ∧ out.2.1 = done.flatten.length ∧
    (∀ k < done.length, results k = .ok) ∧ results done.length = out.1

/-- **A create of many records is a create of each of them.** -/
theorem createBatch_one_by_one (bt : BackendType) (hm : validateModel m = .ok)
    (hne : insertFields m ≠ []) (hhook : m.beforeCreate = none) (hrecs : records ≠ [])
    (batchSize : ℤ) (results : ℕ → Err) :
    ∃ parts, OneByOne bt m records (chunkSize batchSize).1 results
      (createBatch (scripted bt results) [] m records batchSize) parts := by
  have hv := validated_of_ok hm
  obtain ⟨chunks, err, count, hrun, hsends⟩ :=
    createBatchLoop_sends bt m records (chunkSize batchSize) results [] 0 0
  obtain ⟨hsizes, hfull, hsent, hok, hfailed⟩ := hsends
  rw [List.drop_zero] at hsent hok
  have hchunk : ∀ c ∈ chunks, c ≠ [] := by
    rintro c hc rfl
    exact Nat.lt_irrefl 0 (hsizes _ hc).1
  have hout : createBatch (scripted bt results) [] m records batchSize =
      (err, (count : ℤ), chunks.map (insertBatch bt m)) := by
    rw [createBatch, if_neg hrecs, if_neg hne, hrun, Int.zero_add, List.nil_append]
  obtain ⟨stmt, hstmt⟩ : ∃ stmt : Record → Sql.Stmt Value,
      stmt = fun rec => .insert m.table (insertNames m) (rowOf m rec) := ⟨_, rfl⟩
  have hlen (cs : List (List Record)) :
      (cs.map (List.map stmt)).flatten.length = cs.flatten.length := by
    rw [← List.map_flatten, List.length_map]
  refine ⟨chunks.map (List.map stmt), ?_⟩
  rw [hout]
  constructor
  · rw [List.mapM_map, Sql.mapM_eq_some_iff, List.map_map]
    refine List.map_congr_left fun c hc => ?_
    rw [hstmt]
    exact readInserts_insertBatch hv hne (hchunk c hc)
  · intro e he
    obtain ⟨c, -, rfl⟩ := List.mem_map.mp he
    exact slots_insertBatch hv c
  · intro part hpart
    obtain ⟨c, hc, rfl⟩ := List.mem_map.mp hpart
    rw [List.length_map]
    exact hsizes c hc
  · intro part hpart
    rw [← List.map_dropLast] at hpart
    obtain ⟨c, hc, rfl⟩ := List.mem_map.mp hpart
    rw [List.length_map]
    exact hfull c hc
  · rw [hlen, ← List.prefix_iff_eq_take.mp hsent, ← List.map_flatten, List.map_map,
      List.map_eq_flatMap]
    refine List.flatMap_congr fun rec _ => ?_
    rw [created_eq bt hv hne hhook, hstmt]
    rfl
  · intro herr
    obtain ⟨hflat, hcount, hres⟩ := hok herr
    refine ⟨by rw [hlen, hflat], by rw [hcount], fun k hk => ?_⟩
    rw [List.length_map] at hk
    have hk' := hres k hk
    rwa [List.length_nil, Nat.zero_add] at hk'
  · intro herr
    obtain ⟨done, last, rfl, rfl, hres, hlast⟩ := hfailed herr
    rw [List.length_nil] at hres hlast
    simp only [Nat.zero_add] at hres hlast
    refine ⟨done.map (List.map stmt), last.map stmt, by simp, ?_, ?_, ?_⟩
    · rw [hlen]
    · simpa using hres
    · simpa using hlast

/-- Three users in two statements, the second of which fails. -/
theorem createBatch_one_by_one_threeUsers :
    ∃ parts, OneByOne .postgres softUserModel [zeroRecord, zeroRecord, zeroRecord]
      (chunkSize 2).1 (fun k => if k = 0 then .ok else .backend)
      (createBatch (scripted .postgres fun k => if k = 0 then .ok else .backend) [] softUserModel
        [zeroRecord, zeroRecord, zeroRecord] 2) parts :=
  createBatch_one_by_one .postgres (by decide +kernel) (by decide +kernel) (by decide +kernel)
    (by simp) 2 _

end Corm
