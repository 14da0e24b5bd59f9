import Corm.Create
import Corm.SoftDelete.Binding
import Corm.Sql.Touch

/-!
# The life of a row under soft deletes

* `History`: the states of the database after creates and deletes that succeed, with the rows that
  are live in them;
* `Remains`: the table holds the live rows, and rows between them that are marked as deleted;
* **`find_live_iff`**: a scoped find returns the live rows exactly when INSERT leaves NULL in the
  soft-delete column of each of them.
-/

namespace Corm

open Sql (Tok Item Row Engine lex bare)

variable {V : Type} {bt : BackendType} {D : Dbms V} {m : Model} {f : Field} {s : Store V}
  {c : Text} {ts : List Tok} {rows live : List (Row V)}

/-! ## Histories -/

/-- A condition without placeholders, in which nothing is rewritten. -/
structure Literal (bt : BackendType) (c : Text) : Prop where
  plain : ∀ ts, lex bt.dialect c = some ts → Sql.Plain ts
  unmarked : bt = .postgres → '?' ∉ c

/-- The rows that a literal condition matches; an empty one matches all of them. -/
def matchedBy (bt : BackendType) (D : Dbms V) (c : Text) : Option (Row V → Bool) :=
  if c = [] then some fun _ => true
  else (lex bt.dialect c).bind fun ts => D.engine.selects (some (ts.map .tok))

/-- A delete with a literal condition. -/
def deleteWhere (bt : BackendType) (D : Dbms V) (s : Store V) (m : Model) (c : Text) :
    Done (Store V) :=
  delete (sqlBackend bt D) s (queryWhere (queryNew bt m) c)

/-- The states after creates and deletes that succeed, from an empty table on, with the rows that
were created and not matched by a later delete. The soft-delete member of each record is zeroed when
it is inserted. -/
inductive History (bt : BackendType) (D : Dbms V) (m : Model) (f : Field) :
    Store V → List (Row V) → Prop
  | empty {s : Store V} (h : s.db m.table = []) : History bt D m f s []
  | create {s : Store V} {live : List (Row V)} {record r : Record} {row : Row V}
      (h : History bt D m f s live)
      (hok : (createOne (sqlBackend bt D) s m record).err = .ok)
      (hr : (runHook m.beforeCreate (some record)).2 = some r)
      (hzero : r f = zeroMember f.size f.type)
      (hrow : createdRow D m (s.db m.table) r = some row) :
      History bt D m f (createOne (sqlBackend bt D) s m record).state (live ++ [row])
  | delete {s : Store V} {live : List (Row V)} {c : Text} {p : Row V → Bool}
      (h : History bt D m f s live) (hc : Literal bt c)
      (hok : (deleteWhere bt D s m c).err = .ok) (hp : matchedBy bt D c = some p) :
      History bt D m f (deleteWhere bt D s m c).state (live.filter fun r => !p r)

/-! ## A soft delete -/

theorem read_softDelete (hm : Validated m) (hf : softDeleteField m = some f) (hc : Literal bt c) :
    D.read bt.dialect (buildUpdate (softDeleteQuery (queryWhere (queryNew bt m) c) f)) [tombstone] =
      (D.bind tombstone).bind fun v =>
        if c = [] then some (.update m.table [(f.nm, v)] none)
        else (lex bt.dialect c).map fun ts => .update m.table [(f.nm, v)] (some (ts.map .tok)) := by
  have hns : ∀ s ∈ [f.nm], Ident s := by
    intro s hs
    rw [List.mem_singleton.mp hs]
    exact hm.ident_nm (softDeleteField_mem hf)
  have hq : (queryWhere (queryNew bt m) c).where_ = c := rfl
  unfold Dbms.read
  rw [List.mapM_cons, List.mapM_nil]
  cases hv : D.bind tombstone with
  | none => rfl
  | some v =>
    have hfill : Sql.fill [v] 0 (setToks bt 0 [f.nm]) =
        some (Sql.assignItems (quoteOf bt) [(f.nm, v)]) := fill_setOne (Or.inr rfl) rfl f.nm
    have hr := readStmt_update (δ := bt.dialect)
      (q := softDeleteQuery (queryWhere (queryNew bt m) c) f) (k := 0)
      hm.table hns rfl (List.cons_ne_nil _ _) (List.cons_ne_nil _ _) hfill
    show Sql.readStmt bt.dialect _ [v] = _
    rw [hr, Option.bind_some]
    unfold readWhere
    have htoks : whereTokens bt.dialect (softDeleteQuery (queryWhere (queryNew bt m) c) f) 0 =
        if c = [] then some none else (lex bt.dialect c).map some := by
      show (if c = [] then _ else (lex bt.dialect (appendWithPlaceholders bt 0 c)).map some) = _
      rw [appendWithPlaceholders_id hc.unmarked]
    rw [htoks]
    split_ifs with hnil
    · rfl
    · cases hlex : lex bt.dialect c with
      | none => rfl
      | some ts =>
        simp only [Option.map_some, Option.bind_some, Sql.fill_plain (hc.plain ts hlex)]
        rfl

/-- What a soft delete does to the rows. -/
def markRows (f : Field) (v : V) (p : Row V → Bool) (rows : List (Row V)) : List (Row V) :=
  rows.map fun r => if p r then Engine.assign [(f.nm, v)] r else r

/-- **A soft delete that succeeds** writes the tombstone in the rows it matches. -/
theorem deleteWhere_ok (hm : Validated m) (hf : softDeleteField m = some f) (hc : Literal bt c)
    (hok : (deleteWhere bt D s m c).err = .ok) :
    ∃ v p, D.bind tombstone = some v ∧ matchedBy bt D c = some p ∧
      (deleteWhere bt D s m c).state =
        { s with db := Function.update s.db m.table (markRows f v p (s.db m.table)) } := by
  have hread := read_softDelete (D := D) hm hf hc
  have hdel : deleteWhere bt D s m c =
      updateInternal (sqlBackend bt D) s (softDeleteQuery (queryWhere (queryNew bt m) c) f) none :=
    delete_soft (sqlBackend bt D) s hm hf rfl
  rw [hdel] at hok ⊢
  obtain ⟨_, db, -, hrun, hstate⟩ := execWithHooks_ok hok
  have hrun' : (D.read bt.dialect (buildUpdate (softDeleteQuery (queryWhere (queryNew bt m) c) f))
      [tombstone]).bind (D.engine.execute D.omitted s.db) = some db := hrun
  rw [hread] at hrun'
  obtain ⟨stmt, hstmt, hdb⟩ := Option.bind_eq_some_iff.mp hrun'
  obtain ⟨v, hv, hstmt⟩ := Option.bind_eq_some_iff.mp hstmt
  have hp : ∃ p, matchedBy bt D c = some p ∧
      Function.update s.db m.table (markRows f v p (s.db m.table)) = db := by
    unfold matchedBy
    split_ifs at hstmt ⊢ with hnil
    · cases hstmt
      exact ⟨_, rfl, Option.some.inj hdb⟩
    · obtain ⟨ts, hts, rfl⟩ := Option.map_eq_some_iff.mp hstmt
      obtain ⟨p, hp, hpd⟩ := Option.map_eq_some_iff.mp hdb
      exact ⟨p, by rw [hts]; exact hp, hpd⟩
  obtain ⟨p, hp, rfl⟩ := hp
  exact ⟨v, p, hv, hp, hstate⟩

/-! ## The rows that remain -/

/-- The table holds the live rows in order, and between them rows that are not NULL in a column. -/
inductive Remains (c : Text) (null : V) : List (Row V) → List (Row V) → Prop
  | nil : Remains c null [] []
  | live (r : Row V) {rows live : List (Row V)} (h : Remains c null rows live) :
      Remains c null (r :: rows) (r :: live)
  | dead {r : Row V} {rows live : List (Row V)} (hr : r c ≠ null) (h : Remains c null rows live) :
      Remains c null (r :: rows) live

variable {null : V}

theorem Remains.append_live (h : Remains c null rows live) (r : Row V) :
    Remains c null (rows ++ [r]) (live ++ [r]) := by
  induction h with
  | nil => exact .live r .nil
  | live r' _ ih => exact .live r' ih
  | dead hr _ ih => exact .dead hr ih

theorem Remains.mark {v : V} (h : Remains f.nm null rows live) (hv : v ≠ null)
    (p : Row V → Bool) :
    Remains f.nm null (markRows f v p rows) (live.filter fun r => !p r) := by
  have hset (r : Row V) : Engine.assign [(f.nm, v)] r f.nm ≠ null := by
    rw [Sql.assign_single]
    exact hv
  unfold markRows
  induction h with
  | nil => exact .nil
  | live r _ ih =>
    rw [List.map_cons, List.filter_cons]
    by_cases hp : p r = true
    · simp only [hp]
      exact .dead (hset r) ih
    · simp only [hp]
      exact .live r ih
  | @dead r _ _ hr _ ih =>
    rw [List.map_cons]
    by_cases hp : p r = true
    · rw [if_pos hp]
      exact .dead (hset r) ih
    · rw [if_neg hp]
      exact .dead hr ih

theorem Remains.filter (h : Remains c null rows live) {p : Row V → Bool}
    (hp : ∀ r, r c ≠ null → p r = false) : rows.filter p = live.filter p := by
  induction h with
  | nil => rfl
  | live r _ ih => rw [List.filter_cons, List.filter_cons, ih]
  | dead hr _ ih => rw [List.filter_cons, hp _ hr, ih]; rfl

/-! ## What INSERT leaves in the soft-delete column -/

theorem memberPayload_zero_text {size : ℕ} {t : FieldType} (h : t = .text) :
    memberPayload size t (zeroMember size t) = .s none := by
  subst h
  rfl

theorem memberPayload_zero_string {size : ℕ} {t : FieldType} (h : t = .string) :
    ∃ s, memberPayload size t (zeroMember size t) = .s (some s) := by
  subst h
  exact ⟨_, rfl⟩

/-- **The soft-delete column of a created row** is NULL exactly for a field of type TEXT: a zeroed
pointer is NULL, and a zeroed array is the empty string. -/
theorem createdRow_isNull_iff (hm : Validated m) (hD : D.StoresStrings) (hf : f ∈ m.fields)
    (ht : f.type = .string ∨ f.type = .text) (ha : f.isAutoinc = false) {r : Record}
    (hzero : r f = zeroMember f.size f.type) {row : Row V}
    (hrow : createdRow D m rows r = some row) :
    row f.nm = D.engine.null ↔ f.type = .text := by
  have hbind := createdRow_field hm hrow hf ha
  rw [fieldGetValue, hzero] at hbind
  rcases ht with ht | ht
  · obtain ⟨s, hs⟩ := @memberPayload_zero_string f.size _ ht
    rw [hs] at hbind
    rw [hD _ _ _ (Or.inl ht) hbind, ht]
    simp
  · rw [memberPayload_zero_text ht] at hbind
    rw [hD _ _ _ (Or.inr ht) hbind, ht]
    simp

/-- **What a history keeps.** -/
theorem history_remains (hm : Validated m) (hf : softDeleteField m = some f)
    (ht : f.type = .string ∨ f.type = .text) (hD : D.StoresStrings)
    (h : History bt D m f s live) :
    Remains f.nm D.engine.null (s.db m.table) live ∧
      (f.isAutoinc = false → ∀ r ∈ live, (r f.nm = D.engine.null ↔ f.type = .text)) := by
  induction h with
  | empty h =>
    rw [h]
    exact ⟨.nil, by simp⟩
  | create _ hok hr hzero hrow ih =>
    obtain ⟨r', row', hr', -, hrow', hstate⟩ := createOne_ok hm hok
    rw [hr'] at hr
    obtain rfl := Option.some.inj hr
    obtain rfl := Option.some.inj (hrow'.symm.trans hrow)
    refine ⟨?_, fun ha r hmem => ?_⟩
    · rw [hstate]
      simp only [Function.update_self]
      exact ih.1.append_live _
    · rcases List.mem_append.mp hmem with hmem | hmem
      · exact ih.2 ha r hmem
      · rw [List.mem_singleton.mp hmem]
        exact createdRow_isNull_iff hm hD (softDeleteField_mem hf) ht ha hzero hrow'
  | delete _ hc hok hp ih =>
    obtain ⟨v, p', hv, hp', hstate⟩ := deleteWhere_ok hm hf hc hok
    obtain rfl := Option.some.inj (hp'.symm.trans hp)
    have hne : v ≠ D.engine.null := by
      intro h0
      exact absurd ((hD _ _ _ (Or.inl rfl) hv).mp h0) (by simp)
    refine ⟨?_, fun ha r hmem => ih.2 ha r (List.mem_of_mem_filter hmem)⟩
    rw [hstate]
    simp only [Function.update_self]
    exact ih.1.mark hne _

/-! ## The find -/

theorem find_all_rows (hm : Validated m) (hf : softDeleteField m = some f)
    (hc : D.engine.ReadsNull f.nm) :
    (find (sqlBackend bt D) s (queryNew bt m)).2.1 =
      some ((s.db m.table).filter (D.engine.holds (scopeGroups f.nm []))) := by
  rw [find_rows hm hf (chainInv_queryNew bt m) hc]
  rfl

theorem holds_filter_iff (hc : D.engine.ReadsNull c) (r : Row V) :
    D.engine.holds (scopeGroups c []) r = true ↔ r c = D.engine.null := by
  rw [← hc.test r]
  simp [scopeGroups, Engine.holds, Engine.meets]

/-- **The soft-delete lifecycle**, after any history: a scoped find returns the rows that are live,
all of them and no others, if and only if INSERT leaves NULL in the soft-delete column of each:
because there is none, because the field is a TEXT, or because it is left out of INSERT and the
database puts NULL there. -/
theorem find_live_iff (hm : validateModel m = .ok) (hf : softDeleteField m = some f)
    (ht : f.type = .string ∨ f.type = .text) (hD : D.StoresStrings)
    (hc : D.engine.ReadsNull f.nm) (h : History bt D m f s live) :
    (find (sqlBackend bt D) s (queryNew bt m)).2.1 = some live ↔
      live = [] ∨ (f.isAutoinc = false ∧ f.type = .text) ∨
        (f.isAutoinc = true ∧ ∀ r ∈ live, r f.nm = D.engine.null) := by
  have hv := validated_of_ok hm
  obtain ⟨hrem, hnull⟩ := history_remains hv hf ht hD h
  have hdead : ∀ r : Row V, r f.nm ≠ D.engine.null →
      D.engine.holds (scopeGroups f.nm []) r = false := by
    intro r hr
    exact Bool.eq_false_iff.mpr fun hh => hr ((holds_filter_iff hc r).mp hh)
  rw [find_all_rows hv hf hc, hrem.filter hdead, Option.some.injEq, List.filter_eq_self]
  simp only [holds_filter_iff hc]
  by_cases ha : f.isAutoinc = true
  · simp only [ha, true_and, Bool.true_eq_false, false_and, false_or]
    constructor
    · exact Or.inr
    · rintro (rfl | hall)
      · simp
      · exact hall
  · have ha' : f.isAutoinc = false := Bool.eq_false_iff.mpr ha
    simp only [ha', true_and, Bool.false_eq_true, false_and, or_false]
    constructor
    · intro hall
      rcases List.eq_nil_or_concat live with hnil | ⟨l, r, hl⟩
      · exact Or.inl hnil
      · have hmem : r ∈ live := by simp [hl]
        exact Or.inr ((hnull ha' r hmem).mp (hall r hmem))
    · rintro (rfl | htext) r hr
      · cases hr
      · exact (hnull ha' r hr).mpr htext

/-! ## A live row that is hidden -/

/-- The row of a user whose members are all zero. -/
def zeroUser : Row (Option Text) :=
  Engine.newRow ["name".toList, "deleted_at".toList] [some [], some []]
    (textDbms.omitted "soft_users".toList [])

/-- The database after that user was created. -/
def zeroUserStore : Store (Option Text) :=
  (createOne (sqlBackend .sqlite textDbms) (oneTable "soft_users".toList []) softUserModel
    zeroRecord).state

theorem history_zeroUser :
    History .sqlite textDbms softUserModel softUserDeletedAt zeroUserStore [zeroUser] :=
  .create (.empty rfl) (by decide +kernel) rfl rfl rfl

/-- The user is live, and a scoped find does not return it. -/
theorem find_hides_zeroUser :
    validateModel softUserModel = .ok ∧ softDeleteField softUserModel = some softUserDeletedAt ∧
    textDbms.StoresStrings ∧ textDbms.engine.ReadsNull softUserDeletedAt.nm ∧
    History .sqlite textDbms softUserModel softUserDeletedAt zeroUserStore [zeroUser] ∧
    (find (sqlBackend .sqlite textDbms) zeroUserStore (queryNew .sqlite softUserModel)).2.1 ≠
      some [zeroUser] := by
  refine ⟨by decide +kernel, by decide +kernel, textDbms_storesStrings,
    Sql.texts_readsNull (by decide +kernel), history_zeroUser, fun h => ?_⟩
  have hlen : (find (sqlBackend .sqlite textDbms) zeroUserStore
      (queryNew .sqlite softUserModel)).2.1.map List.length = some 0 := by
    decide +kernel
  rw [h] at hlen
  cases hlen

theorem find_live_iff_zeroUser :
    (find (sqlBackend .sqlite textDbms) zeroUserStore (queryNew .sqlite softUserModel)).2.1 =
      some [zeroUser] ↔
    [zeroUser] = [] ∨
      (softUserDeletedAt.isAutoinc = false ∧ softUserDeletedAt.type = .text) ∨
      (softUserDeletedAt.isAutoinc = true ∧
        ∀ r ∈ [zeroUser], r softUserDeletedAt.nm = textDbms.engine.null) :=
  find_live_iff (by decide +kernel) (by decide +kernel) (Or.inl rfl) textDbms_storesStrings
    (Sql.texts_readsNull (by decide +kernel)) history_zeroUser

end Corm
