import Corm.Create
import Corm.Reuse.Steps
import Corm.Dbms
import Corm.Placeholders.Update

/-!
# One query for several records

`corm_create` appends the values of its record to the parameters of the query, and the next
`corm_create` on the query hands all of them to the backend.

* `createReusing`, `createEach`: the records created on one query, and each on a query of its own;
* `createReusing_logged`: the statements, with the parameters that pile up;
* `EachOwn`: every statement is given the values of its own record;
* **`creates_own_iff`**: they are for one record.
-/

namespace Corm

variable {σ ρ : Type} {m : Model} {recs : List Record}

/-- `corm_create` for each record, on the same query. -/
def createReusing (b : Backend σ ρ) (s : σ) (q : Query) : List Record → Query × σ
  | [] => (q, s)
  | r :: rs => createReusing b (create b s q r).state (create b s q r).query rs

/-- `corm_create_one` for each record. -/
def createEach (b : Backend σ ρ) (s : σ) (m : Model) (recs : List Record) : σ :=
  recs.foldl (fun s r => (createOne b s m r).state) s

/-- The record that is read: the before hook has changed it. -/
def hookedRecord (m : Model) (r : Record) : Record := (runHook m.beforeCreate (some r)).2.getD r

/-- The values of its fields without `CORM_FLAG_AUTOINC`. -/
def insertValues (m : Model) (r : Record) : List Value :=
  (insertFields m).map (fieldGetValue (hookedRecord m r))

/-- The INSERT of a model. -/
def insertText (bt : BackendType) (m : Model) : Text := buildInsert (queryNew bt m)

/-- Every statement is an INSERT with the values of its own record, and the database is what it is
after a create of each record alone. -/
structure EachOwn (b : Backend σ ρ) (s : σ) (m : Model) (recs : List Record) : Prop where
  statements : (createReusing b.logged (s, []) (queryNew b.type m) recs).2.2 =
    recs.map fun r => (insertText b.type m, insertValues m r)
  state : (createReusing b.logged (s, []) (queryNew b.type m) recs).2.1 = createEach b s m recs

/-! ## What is sent -/

/-- A query of a model that only `corm_create` was called on. -/
def usedQuery (bt : BackendType) (m : Model) (op : QueryOp) (params : List Value) : Query :=
  { queryNew bt m with op, params }

theorem hooked_create {r : Record} (hveto : (runHook m.beforeCreate (some r)).1 = .ok)
    (bt : BackendType) (op : QueryOp) (params : List Value) :
    hooked m.beforeCreate bindRecord .insert (usedQuery bt m op params) (some r) =
      ([(insertText bt m, params ++ insertValues m r)],
        usedQuery bt m .insert (params ++ insertValues m r)) := by
  have hrun : ∃ r', runHook m.beforeCreate (some r) = (.ok, some r') := by
    unfold runHook at hveto ⊢
    cases hh : m.beforeCreate with
    | none => exact ⟨r, rfl⟩
    | some h =>
      rw [hh] at hveto
      exact ⟨(h.onRecord r).2, Prod.ext hveto rfl⟩
  obtain ⟨r', hrun⟩ := hrun
  have hvals : insertValues m r = (insertFields m).map (fieldGetValue r') := by
    rw [insertValues, hookedRecord, hrun, Option.getD_some]
  have hbind : bindRecord (queryOp (usedQuery bt m op params) .insert) (some r') =
      usedQuery bt m .insert (params ++ insertValues m r) := by
    rw [hvals]
    exact foldl_queryBind _ _ _
  unfold hooked
  rw [hrun]
  simp only
  rw [hbind]
  rfl

variable (b : Backend σ ρ)

theorem create_logged {r : Record} (hveto : (runHook m.beforeCreate (some r)).1 = .ok)
    (s : σ × List (Text × List Value)) (op : QueryOp) (params : List Value) :
    (create b.logged s (usedQuery b.type m op params) r).query =
        usedQuery b.type m .insert (params ++ insertValues m r) ∧
      (create b.logged s (usedQuery b.type m op params) r).state.2 =
        s.2 ++ [(insertText b.type m, params ++ insertValues m r)] := by
  have h := logs_hooks b m.beforeCreate m.afterCreate b.logged.lastInsertId bindRecord .insert s
    (usedQuery b.type m op params) (some r)
  rw [hooked_create hveto] at h
  exact h

/-- The statements of the creates, after the parameters `params`. -/
def pile (bt : BackendType) (m : Model) (params : List Value) :
    List Record → List (Text × List Value)
  | [] => []
  | r :: rs =>
    (insertText bt m, params ++ insertValues m r) :: pile bt m (params ++ insertValues m r) rs

/-- **The parameters pile up.** -/
theorem createReusing_logged (hveto : ∀ r ∈ recs, (runHook m.beforeCreate (some r)).1 = .ok)
    (s : σ × List (Text × List Value)) (op : QueryOp) (params : List Value) :
    (createReusing b.logged s (usedQuery b.type m op params) recs).2.2 =
      s.2 ++ pile b.type m params recs := by
  induction recs generalizing s op params with
  | nil => exact (List.append_nil _).symm
  | cons r rs ih =>
    obtain ⟨hr, hrs⟩ := List.forall_mem_cons.mp hveto
    obtain ⟨hquery, hlog⟩ := create_logged b hr s op params
    rw [createReusing, hquery, ih hrs, hlog, List.append_assoc, List.singleton_append]
    rfl

/-! ## When each statement has its own values -/

theorem insertValues_eq_nil_iff (r : Record) : insertValues m r = [] ↔ insertFields m = [] :=
  List.map_eq_nil_iff

theorem pile_own_iff (bt : BackendType) (params : List Value) :
    pile bt m params recs = recs.map (fun r => (insertText bt m, insertValues m r)) ↔
      recs = [] ∨ params = [] ∧ (recs.length ≤ 1 ∨ insertFields m = []) := by
  induction recs generalizing params with
  | nil => simp [pile]
  | cons r rs ih =>
    have hself : params ++ insertValues m r = insertValues m r ↔ params = [] := by
      simp
    have hlen : (r :: rs).length ≤ 1 ↔ rs = [] := by
      cases rs <;> simp
    rw [pile, List.map_cons, List.cons.injEq, Prod.mk.injEq, hself, ih, List.append_eq_nil_iff,
      insertValues_eq_nil_iff, hlen]
    constructor
    · rintro ⟨⟨-, hp⟩, hrs | ⟨⟨-, hf⟩, -⟩⟩
      · exact Or.inr ⟨hp, Or.inl hrs⟩
      · exact Or.inr ⟨hp, Or.inr hf⟩
    · rintro (hnil | ⟨hp, hrs | hf⟩)
      · cases hnil
      · exact ⟨⟨rfl, hp⟩, Or.inl hrs⟩
      · exact ⟨⟨rfl, hp⟩, Or.inr ⟨⟨hp, hf⟩, Or.inr hf⟩⟩

theorem state_logged (before after : Option Hook) (bind : Query → Option Record → Query)
    (op : QueryOp) (s : σ × List (Text × List Value)) (q : Query) (record : Option Record) :
    (execWithHooks b.logged before after b.logged.lastInsertId bind op s q record).state.1 =
      (execWithHooks b before after b.lastInsertId bind op s.1 q record).state := by
  unfold execWithHooks
  rcases runHook before record with ⟨err, record'⟩
  cases err with
  | ok =>
    simp only [Backend.logged]
    rcases b.exec s.1 (buildSql (queryOp q op)) (bind (queryOp q op) record').params with ⟨err, s'⟩
    cases err <;> rfl
  | _ => rfl

theorem create_usedQuery (s : σ × List (Text × List Value)) (op : QueryOp) (r : Record) :
    (create b.logged s (usedQuery b.type m op []) r).state.1 = (createOne b s.1 m r).state := by
  refine (state_logged b m.beforeCreate m.afterCreate bindRecord .insert s _ (some r)).trans ?_
  unfold createOne create execWithHooks
  have hq : queryOp (usedQuery b.type m op []) .insert = queryOp (queryNew b.type m) .insert := rfl
  have hb : (queryNew b.type m).model.beforeCreate = m.beforeCreate := rfl
  rw [hq, hb]
  rcases runHook m.beforeCreate (some r) with ⟨err, record'⟩
  cases err with
  | ok =>
    simp only
    rcases b.exec s.1 (buildSql (queryOp (queryNew b.type m) .insert))
      (bindRecord (queryOp (queryNew b.type m) .insert) record').params with ⟨err, s'⟩
    cases err <;> rfl
  | _ => rfl

theorem createReusing_state (hveto : ∀ r ∈ recs, (runHook m.beforeCreate (some r)).1 = .ok)
    (hf : insertFields m = []) (s : σ × List (Text × List Value)) (op : QueryOp) :
    (createReusing b.logged s (usedQuery b.type m op []) recs).2.1 = createEach b s.1 m recs := by
  induction recs generalizing s op with
  | nil => rfl
  | cons r rs ih =>
    obtain ⟨hr, hrs⟩ := List.forall_mem_cons.mp hveto
    obtain ⟨hquery, -⟩ := create_logged b hr s op []
    rw [(insertValues_eq_nil_iff r).mpr hf, List.append_nil] at hquery
    rw [createReusing, hquery, ih hrs, create_usedQuery]
    rfl

/-- **The creates of several records on one query** have each its own values exactly when there is
one record at most, or nothing to insert. -/
theorem creates_own_iff (b : Backend σ ρ) (s : σ)
    (hveto : ∀ r ∈ recs, (runHook m.beforeCreate (some r)).1 = .ok) :
    EachOwn b s m recs ↔ recs.length ≤ 1 ∨ insertFields m = [] := by
  have hlog := createReusing_logged b hveto (s, []) .select []
  constructor
  · intro h
    have hpile := hlog.symm.trans h.statements
    rw [List.nil_append] at hpile
    rcases (pile_own_iff b.type []).mp hpile with rfl | ⟨-, hone⟩
    · exact Or.inl (Nat.zero_le _)
    · exact hone
  · intro h
    refine ⟨hlog.trans ((pile_own_iff b.type []).mpr (Or.inr ⟨rfl, h⟩)), ?_⟩
    rcases h with hone | hf
    · match recs, hone with
      | [], _ => rfl
      | [r], _ => exact create_usedQuery b (s, []) .select r
    · exact createReusing_state b hveto hf (s, []) .select

/-! ## Two users -/

/-- A user of an age. -/
def agedUser (age : Int32) : Record := Function.update zeroRecord ⟨some "age".toList, .int, 4, 0⟩ age

/-- **Two creates on one query store the first user twice**: the second INSERT is handed four
values for its two placeholders. -/
theorem creates_repeat_firstUser :
    ¬ EachOwn (sqlBackend .sqlite textDbms) (oneTable "test_users".toList []) testUserModel
      [agedUser 30, agedUser 41] ∧
    ((createReusing (sqlBackend .sqlite textDbms) (oneTable "test_users".toList [])
        (queryNew .sqlite testUserModel) [agedUser 30, agedUser 41]).2.db "test_users".toList).map
      (fun row => row "age".toList) = [some "30".toList, some "30".toList] := by
  refine ⟨fun h => ?_, by decide +kernel⟩
  have hne : (createReusing (sqlBackend .sqlite textDbms).logged (oneTable "test_users".toList [], [])
      (queryNew .sqlite testUserModel) [agedUser 30, agedUser 41]).2.2 ≠
      [agedUser 30, agedUser 41].map fun r =>
        (insertText .sqlite testUserModel, insertValues testUserModel r) := by
    decide +kernel
  exact hne h.statements

theorem creates_own_iff_agedUsers :
    EachOwn (sqlBackend .sqlite textDbms) (oneTable "test_users".toList []) testUserModel
        [agedUser 30, agedUser 41] ↔
      [agedUser 30, agedUser 41].length ≤ 1 ∨ insertFields testUserModel = [] :=
  creates_own_iff (sqlBackend .sqlite textDbms) (oneTable "test_users".toList [])
    (List.forall_mem_cons.mpr ⟨rfl, List.forall_mem_cons.mpr ⟨rfl, nofun⟩⟩)

end Corm
