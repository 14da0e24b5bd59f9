import Corm.Fetch
import Corm.Reuse.Steps

/-!
# One record for several rows

`corm_field_set_value` leaves a `char` array as it is when the column is NULL, and the end of a byte
array that is longer than the value. What was loaded into the record before is still there.

* `Carries`: a cell that is NULL or has the type of its field;
* `setMember`, `filled`, `fillRecord_filled`: what a row leaves in a record, by what was there;
* `Same`, `same_setMember_iff`: the members that do not depend on what was there;
* `Fills`: a column that leaves nothing of the old member;
* **`loads_forget_iff`**: `corm_first` and `corm_find_all` leave records that depend on the rows only
  exactly when every column of them does.
-/

namespace Corm

/-! ## Cells -/

/-- The payload is of the type of a field; a `bool` is read from an integer, too. -/
def CarriesType (size : ℕ) : FieldType → Payload → Prop
  | .int, v | .int64, v => ∃ n, v = .i n
  | .float, v | .double, v => ∃ bits, v = .f bits
  | .string, v | .text, v => ∃ s, v = .s (some s)
  | .bool, v => v.readB.isSome
  | .blob, v => ∃ data, v = .blob data ∧ (data.getD []).length ≤ size

/-- The cell is NULL, with a zeroed union, or has the type of the field; a `CORM_BLOB` is not longer
than the field. -/
def Carries (size : ℕ) (t : FieldType) (val : Value) : Prop :=
  val.isNull = true ∧ val.v = .zero ∨ val.isNull = false ∧ CarriesType size t val.v

/-- The bytes of a `CORM_BLOB` cell; none if it is NULL. -/
def blobBytes (v : Payload) : List UInt8 := (v.readBlob.getD none).getD []

/-- The column leaves nothing of the old member: a string is not NULL, and a blob has all the bytes
of the field. -/
structure Fills (size : ℕ) (t : FieldType) (val : Value) : Prop where
  string : t = .string → 0 < size → val.isNull = false
  blob : t = .blob → (blobBytes val.v).length = size

/-! ## Members -/

/-- What `corm_field_set_value` leaves in a member. -/
def setMember (size : ℕ) (t : FieldType) (old : Member size t) (v : Payload) : Member size t :=
  (memberSet size t old v).getD old

/-- Two members have the same value: for a `char` array, up to the NUL. -/
def Same (size : ℕ) : (t : FieldType) → Member size t → Member size t → Prop
  | .string, (x : Buffer Char size), (y : Buffer Char size) => cstr x.1 = cstr y.1
  | _, x, y => x = y

theorem same_refl (size : ℕ) (t : FieldType) (x : Member size t) : Same size t x x := by
  cases t <;> rfl

variable {size : ℕ} {t : FieldType} {val : Value}

theorem memberSet_eq (h : Carries size t val) (old : Member size t) :
    memberSet size t old val.v = some (setMember size t old val.v) := by
  have hsome : (memberSet size t old val.v).isSome := by
    rcases h with ⟨-, hv⟩ | ⟨-, hv⟩
    · rw [hv]
      cases t <;> rfl
    · cases t with
      | bool => exact hv
      | blob =>
        obtain ⟨data, hv, -⟩ := hv
        rw [hv]
        rfl
      | _ =>
        obtain ⟨x, hv⟩ := hv
        rw [hv]
        rfl
  rw [setMember]
  exact (Option.some_get hsome).symm.trans (by rw [Option.get_eq_getD])

theorem setMember_null_string (hv : val.v = .zero) (old : Member size .string) :
    setMember size .string old val.v = old := by
  rw [hv]
  rfl

theorem setMember_string {s : Text} (hv : val.v = .s (some s)) (old : Member size .string) :
    setMember size .string old val.v = (copyString size old s : Buffer Char size) := by
  rw [hv]
  rfl

theorem setMember_blob (h : Carries size .blob val) (old : Buffer UInt8 size) :
    (blobBytes val.v).length ≤ size ∧ Subtype.val (setMember size .blob old val.v) =
      blobBytes val.v ++ old.1.drop (blobBytes val.v).length := by
  rcases h with ⟨-, hv⟩ | ⟨-, ⟨_ | data, hv, hle⟩⟩
  · rw [hv]
    exact ⟨Nat.zero_le _, rfl⟩
  · rw [hv]
    exact ⟨Nat.zero_le _, rfl⟩
  · rw [hv]
    have hset : setMember size .blob old (.blob (some data)) = copyBlob size old data := rfl
    refine ⟨hle, ?_⟩
    rw [hset, copyBlob, dif_pos (show data.length ≤ size from hle)]
    rfl

theorem copyString_of_pos (h : 0 < size) (x y : Buffer Char size) (s : Text) :
    copyString size x s = copyString size y s := by
  rw [copyString, copyString, dif_pos h, dif_pos h]

/-- Of the types other than the arrays, every cell leaves the same in all members. -/
theorem setMember_const (hs : t ≠ .string) (hb : t ≠ .blob) (h : Carries size t val)
    (x y : Member size t) : setMember size t x val.v = setMember size t y val.v := by
  have hx := memberSet_eq h x
  have hy := memberSet_eq h y
  have hxy : memberSet size t x val.v = memberSet size t y val.v := by
    cases t with
    | string => exact absurd rfl hs
    | blob => exact absurd rfl hb
    | _ => rfl
  exact Option.some.inj (hx.symm.trans (hxy.trans hy))

theorem buffer_zero {α : Type} (x y : Buffer α 0) : x = y :=
  Subtype.ext ((List.length_eq_zero_iff.mp x.2).trans (List.length_eq_zero_iff.mp y.2).symm)

theorem copyString_const (x y : Buffer Char size) (s : Text) :
    copyString size x s = copyString size y s := by
  rcases Nat.eq_zero_or_pos size with rfl | hpos
  · exact buffer_zero _ _
  · exact copyString_of_pos hpos x y s

theorem setMember_twice (h : Carries size t val) (old : Member size t) :
    setMember size t (setMember size t old val.v) val.v = setMember size t old val.v := by
  by_cases hs : t = .string
  · subst hs
    rcases h with ⟨-, hv⟩ | ⟨-, ⟨s, hv⟩⟩
    · exact setMember_null_string hv _
    · rw [setMember_string hv, setMember_string hv]
      exact copyString_const _ _ s
  by_cases hb : t = .blob
  · subst hb
    obtain ⟨-, h1⟩ := setMember_blob h old
    obtain ⟨-, h2⟩ := setMember_blob h (setMember size .blob old val.v)
    refine Subtype.ext (h2.trans ?_)
    rw [h1, List.drop_left]
  exact setMember_const hs hb h _ _

theorem same_string_iff (h : Carries size .string val) :
    (∀ x y, Same size .string (setMember size .string x val.v) (setMember size .string y val.v)) ↔
      (0 < size → val.isNull = false) := by
  rcases h with ⟨hnull, hv⟩ | ⟨hnull, ⟨s, hv⟩⟩
  · constructor
    · intro hsame hpos
      have hall (x y : Member size .string) : Same size .string x y := by
        have hxy := hsame x y
        rwa [setMember_null_string hv x, setMember_null_string hv y] at hxy
      have h1 := hall ⟨List.replicate size nul, List.length_replicate⟩
        ⟨List.replicate size 'a', List.length_replicate⟩
      obtain ⟨n, rfl⟩ := Nat.exists_eq_succ_of_ne_zero hpos.ne'
      change cstr (List.replicate (n + 1) nul) = cstr (List.replicate (n + 1) 'a') at h1
      rw [List.replicate_succ, List.replicate_succ] at h1
      cases h1
    · intro hfills x y
      rcases Nat.eq_zero_or_pos size with rfl | hpos
      · rw [buffer_zero x y]
        rfl
      · rw [hnull] at hfills
        cases hfills hpos
  · refine iff_of_true (fun x y => ?_) fun _ => hnull
    rw [setMember_string hv, setMember_string hv, copyString_const x y s]
    rfl

theorem same_blob_iff (h : Carries size .blob val) :
    (∀ x y, Same size .blob (setMember size .blob x val.v) (setMember size .blob y val.v)) ↔
      (blobBytes val.v).length = size := by
  constructor
  · intro hsame
    obtain ⟨hle, h1⟩ := setMember_blob h ⟨List.replicate size 0, List.length_replicate⟩
    obtain ⟨-, h2⟩ := setMember_blob h ⟨List.replicate size 1, List.length_replicate⟩
    have heq := h1.symm.trans ((congrArg Subtype.val (hsame _ _)).trans h2)
    rw [List.append_cancel_left_eq, List.drop_replicate, List.drop_replicate] at heq
    by_contra hne
    obtain ⟨n, hn⟩ := Nat.exists_eq_succ_of_ne_zero (show size - (blobBytes val.v).length ≠ 0 by omega)
    rw [hn, List.replicate_succ, List.replicate_succ] at heq
    cases heq
  · intro hlen x y
    obtain ⟨-, h1⟩ := setMember_blob h x
    obtain ⟨-, h2⟩ := setMember_blob h y
    rw [hlen, List.drop_of_length_le x.2.le] at h1
    rw [hlen, List.drop_of_length_le y.2.le] at h2
    exact Subtype.ext (h1.trans h2.symm)

/-- **What a column leaves does not depend on what was there** exactly when it fills the member. -/
theorem same_setMember_iff (h : Carries size t val) :
    (∀ x y, Same size t (setMember size t x val.v) (setMember size t y val.v)) ↔
      Fills size t val := by
  by_cases hs : t = .string
  · subst hs
    rw [same_string_iff h]
    exact ⟨fun hn => ⟨fun _ => hn, nofun⟩, fun hf => hf.string rfl⟩
  by_cases hb : t = .blob
  · subst hb
    rw [same_blob_iff h]
    exact ⟨fun hn => ⟨nofun, fun _ => hn⟩, fun hf => hf.blob rfl⟩
  refine iff_of_true (fun x y => ?_) ⟨fun e => absurd e hs, fun e => absurd e hb⟩
  rw [setMember_const hs hb h x y]
  exact same_refl size t _

/-! ## Records -/

section Rows

variable {res : Result} {row : Fin res.columnCount → Value} {fs : List Field} {m : Model}

variable (res row fs) in
/-- What the loop over the fields leaves in a record. -/
def filled (record : Record) : Record := fun f =>
  if f ∈ fs then
    match res.value row f.nm with
    | some val => setMember f.size f.type (record f) val.v
    | none => record f
  else record f

/-- The cells of the columns of some fields carry the types of the fields. -/
def Typed (res : Result) (row : Fin res.columnCount → Value) (fs : List Field) : Prop :=
  ∀ f ∈ fs, ∀ val ∈ res.value row f.nm, Carries f.size f.type val

theorem filled_of_mem {f : Field} {val : Value} (hf : f ∈ fs) (hval : res.value row f.nm = some val)
    (record : Record) :
    filled res row fs record f = setMember f.size f.type (record f) val.v := by
  rw [filled, if_pos hf, hval]

theorem filled_cons_absent {f : Field} (hval : res.value row f.nm = none) (record : Record) :
    filled res row (f :: fs) record = filled res row fs record := by
  funext g
  unfold filled
  by_cases hg : g = f
  · subst hg
    simp only [hval, ite_self]
  · simp only [List.mem_cons, hg, false_or]

theorem filled_cons_present {f : Field} {val : Value} (hval : res.value row f.nm = some val)
    (hc : Carries f.size f.type val) (record : Record) :
    filled res row (f :: fs) record =
      filled res row fs (Function.update record f (setMember f.size f.type (record f) val.v)) := by
  funext g
  by_cases hg : g = f
  · subst hg
    rw [filled_of_mem List.mem_cons_self hval]
    by_cases hmem : g ∈ fs
    · rw [filled_of_mem hmem hval, Function.update_self, setMember_twice hc]
    · rw [filled, if_neg hmem, Function.update_self]
  · simp only [filled, List.mem_cons, hg, false_or, Function.update_of_ne hg]

/-- **What the loop over the fields leaves**, also where a field is listed twice. -/
theorem fillRecord_filled (h : Typed res row fs) (record : Record) :
    fillRecord res row fs record = some (filled res row fs record) := by
  induction fs generalizing record with
  | nil => rfl
  | cons f fs ih =>
    have hfs : Typed res row fs := fun g hg => h g (List.mem_cons_of_mem f hg)
    rw [fillRecord]
    cases hval : res.value row f.nm with
    | none =>
      simp only
      rw [ih hfs, filled_cons_absent hval]
    | some val =>
      have hc := h f List.mem_cons_self val hval
      simp only [fieldSetValue, memberSet_eq hc, Option.map_some, Option.bind_some]
      rw [ih hfs, filled_cons_present hval hc]

/-- Two records have the same values in the fields whose columns are in the result. -/
def SameFields (m : Model) (res : Result) (row : Fin res.columnCount → Value) (r₁ r₂ : Record) : Prop :=
  ∀ f ∈ m.fields, (res.value row f.nm).isSome → Same f.size f.type (r₁ f) (r₂ f)

/-- Every column of a row fills the member of its field. -/
def RowFills (m : Model) (res : Result) (row : Fin res.columnCount → Value) : Prop :=
  ∀ f ∈ m.fields, ∀ val ∈ res.value row f.nm, Fills f.size f.type val

/-- **A record depends on the row only** exactly when the row fills it. -/
theorem sameFields_filled_iff (h : Typed res row m.fields) :
    (∀ r₁ r₂, SameFields m res row (filled res row m.fields r₁) (filled res row m.fields r₂)) ↔
      RowFills m res row := by
  constructor
  · intro hagree f hf val hval
    refine (same_setMember_iff (h f hf val hval)).mp fun x y => ?_
    have hxy := hagree (Function.update zeroRecord f x) (Function.update zeroRecord f y) f hf
      (by rw [hval]; rfl)
    rw [filled_of_mem hf hval, filled_of_mem hf hval, Function.update_self,
      Function.update_self] at hxy
    exact hxy
  · intro hfills r₁ r₂ f hf hsome
    obtain ⟨val, hval⟩ := Option.isSome_iff_exists.mp hsome
    rw [filled_of_mem hf hval, filled_of_mem hf hval]
    exact (same_setMember_iff (h f hf val hval)).mpr (hfills f hf val hval) _ _

/-! ## The two functions -/

/-- A call that loads rows into records. -/
inductive LoadCall
  | first (q : Query)
  | all (m : Model) (where_ : Option Text) (count : Option ℤ)

namespace LoadCall

/-- The model of the call. -/
def model : LoadCall → Model
  | first q => q.model
  | all m _ _ => m

/-- The query that it hands to `corm_find`. -/
def query (bt : BackendType) : LoadCall → Query
  | first q => { q with limit := 1, offset := 0 }
  | all m (some w) _ => queryWhere (queryNew bt m) w
  | all m none _ => queryNew bt m

/-- The rows that it loads, each into a record of its own. -/
def rows (res : Result) : LoadCall → List (Fin res.columnCount → Value)
  | first _ => res.rows.take 1
  | all _ _ count => res.rows.take (copyCount count res.rows.length)

variable {σ : Type} (b : Backend σ Result) (s : σ)

/-- It succeeds, and leaves the records `out` where `rs` were. -/
def Leaves (rs out : List Record) : LoadCall → Prop
  | first q => List.Forall₂ (fun r r' => (Corm.first b s q r).1 = some (.ok, r')) rs out
  | all m where_ count =>
    ∃ count' s', findAll b s m where_ (some rs) count = some (.ok, some out, count', s')

/-- The record after the after-find hook. -/
def afterFind (m : Model) (record : Record) : Record :=
  (runHook m.afterFind (some record)).2.getD record

/-- It loads the rows into `rs`: the loops over the fields leave `rs'`, and each of these is handed
to the hook. -/
def Loads (res : Result) (call : LoadCall) (rs rs' : List Record) : Prop :=
  List.Forall₂ (fun p r' => fillRecord res p.1 call.model.fields p.2 = some r')
      ((call.rows res).zip rs) rs' ∧
    call.Leaves b s rs (rs'.map (afterFind call.model))

end LoadCall

variable {σ : Type} {b : Backend σ Result} {s s' : σ} {q q' : Query}

theorem model_find (b : Backend σ Result) (s : σ) (q : Query) :
    (find b s q).2.2.1.model = q.model := by
  obtain ⟨w, hw⟩ := findScope_where q
  show (queryOp (findScope q) .select).model = q.model
  rw [hw]
  rfl

theorem first_found {rest : List (Fin res.columnCount → Value)}
    (hfind : find b s { q with limit := 1, offset := 0 } = (.ok, some res, q', s'))
    (hrows : res.rows = row :: rest) (r : Record) :
    (first b s q r).1 = (fillRecord res row q.model.fields r).map fun r' =>
      (.ok, LoadCall.afterFind q.model r') := by
  have hmodel : q'.model = q.model := by
    have := model_find b s { q with limit := 1, offset := 0 }
    rwa [hfind] at this
  unfold first
  rw [hfind]
  simp only
  rw [hrows]
  simp only
  rw [hmodel]
  rfl

theorem first_filled {rest : List (Fin res.columnCount → Value)}
    (hfind : find b s { q with limit := 1, offset := 0 } = (.ok, some res, q', s'))
    (hrows : res.rows = row :: rest) (h : Typed res row q.model.fields) (r : Record) :
    (first b s q r).1 =
      some (.ok, LoadCall.afterFind q.model (filled res row q.model.fields r)) := by
  rw [first_found hfind hrows, fillRecord_filled h r]
  rfl

/-- The records after the loops over the fields. -/
def filledAll (m : Model) (res : Result) (rows : List (Fin res.columnCount → Value))
    (rs : List Record) : List Record :=
  List.zipWith (fun row r => filled res row m.fields r) rows rs

theorem fillRecord_filledAll {rows : List (Fin res.columnCount → Value)}
    (h : ∀ row ∈ rows, Typed res row m.fields) (rs : List Record) :
    List.Forall₂ (fun p r' => fillRecord res p.1 m.fields p.2 = some r') (rows.zip rs)
      (filledAll m res rows rs) := by
  induction rows generalizing rs with
  | nil => exact .nil
  | cons row rows ih =>
    obtain ⟨hrow, hrows⟩ := List.forall_mem_cons.mp h
    cases rs with
    | nil => exact .nil
    | cons r rs => exact .cons (fillRecord_filled hrow r) (ih hrows rs)

theorem copyRows_filledAll {rows : List (Fin res.columnCount → Value)}
    (h : ∀ row ∈ rows, Typed res row m.fields) {rs : List Record} (hlen : rs.length = rows.length) :
    copyRows m res rows rs = some ((filledAll m res rows rs).map (LoadCall.afterFind m)) := by
  induction rows generalizing rs with
  | nil =>
    obtain rfl := List.length_eq_zero_iff.mp hlen
    rfl
  | cons row rows ih =>
    obtain ⟨r, rs, rfl⟩ := List.exists_cons_of_length_eq_add_one hlen
    obtain ⟨hrow, hrows⟩ := List.forall_mem_cons.mp h
    rw [copyRows, fillRecord_filled hrow r, ih hrows (Nat.succ.inj hlen)]
    rfl

theorem findAll_found {where_ : Option Text} {count : Option ℤ}
    (hfind : find b s ((LoadCall.all m where_ count).query b.type) = (.ok, some res, q', s'))
    (rs : List Record) :
    findAll b s m where_ (some rs) count =
      (copyRows m res ((LoadCall.all m where_ count).rows res) rs).map fun rs' =>
        (.ok, some rs', count.map fun _ => (copyCount count res.rows.length : ℤ), s') := by
  unfold findAll LoadCall.rows
  cases where_ with
  | none =>
    have hfind' : find b s (queryNew b.type m) = _ := hfind
    simp only
    rw [hfind']
  | some w =>
    have hfind' : find b s (queryWhere (queryNew b.type m) w) = _ := hfind
    simp only
    rw [hfind']

theorem findAll_filledAll {where_ : Option Text} {count : Option ℤ}
    (hfind : find b s ((LoadCall.all m where_ count).query b.type) = (.ok, some res, q', s'))
    (h : ∀ row ∈ (LoadCall.all m where_ count).rows res, Typed res row m.fields) {rs : List Record}
    (hlen : rs.length = ((LoadCall.all m where_ count).rows res).length) :
    findAll b s m where_ (some rs) count =
      some (.ok, some ((filledAll m res ((LoadCall.all m where_ count).rows res) rs).map
        (LoadCall.afterFind m)), count.map fun _ => (copyCount count res.rows.length : ℤ), s') := by
  rw [findAll_found hfind, copyRows_filledAll h hlen]
  rfl

/-- **A call loads the rows** into any records. -/
theorem loads_filledAll (call : LoadCall)
    (hfind : find b s (call.query b.type) = (.ok, some res, q', s'))
    (h : ∀ row ∈ call.rows res, Typed res row call.model.fields) {rs : List Record}
    (hlen : rs.length = (call.rows res).length) :
    call.Loads b s res rs (filledAll call.model res (call.rows res) rs) := by
  refine ⟨fillRecord_filledAll h rs, ?_⟩
  cases call with
  | all m where_ count => exact ⟨_, _, findAll_filledAll hfind h hlen⟩
  | first q =>
    cases hrows : res.rows with
    | nil =>
      have htake : (LoadCall.first q).rows res = [] := by rw [LoadCall.rows, hrows, List.take_nil]
      rw [htake] at hlen
      obtain rfl := List.length_eq_zero_iff.mp hlen
      rw [htake]
      exact .nil
    | cons row rest =>
      have htake : (LoadCall.first q).rows res = [row] := by
        rw [LoadCall.rows, hrows, List.take_succ_cons, List.take_zero]
      rw [htake] at hlen h
      obtain ⟨r, rfl⟩ := List.length_eq_one_iff.mp hlen
      rw [htake]
      exact .cons (first_filled hfind hrows (h row List.mem_cons_self) r) .nil

/-! ## Two runs -/

theorem fillRecord_rightUnique (m : Model) (res : Result) :
    Relator.RightUnique fun (p : (Fin res.columnCount → Value) × Record) r' =>
      fillRecord res p.1 m.fields p.2 = some r' :=
  fun _ _ _ h₁ h₂ => Option.some.inj (h₁.symm.trans h₂)

theorem loads_unique {call : LoadCall}
    (h : ∀ row ∈ call.rows res, Typed res row call.model.fields) {rs rs' : List Record}
    (hloads : call.Loads b s res rs rs') : rs' = filledAll call.model res (call.rows res) rs :=
  List.right_unique_forall₂' (fillRecord_rightUnique call.model res) hloads.1
    (fillRecord_filledAll h rs)

theorem mem_zip_filledAll {rows : List (Fin res.columnCount → Value)} {rs₁ rs₂ : List Record}
    {p : (Fin res.columnCount → Value) × Record × Record}
    (hp : p ∈ rows.zip ((filledAll m res rows rs₁).zip (filledAll m res rows rs₂))) :
    p.1 ∈ rows ∧ ∃ r₁ r₂, p.2.1 = filled res p.1 m.fields r₁ ∧
      p.2.2 = filled res p.1 m.fields r₂ := by
  induction rows generalizing rs₁ rs₂ with
  | nil => cases hp
  | cons row rows ih =>
    cases rs₁ with
    | nil => cases hp
    | cons r₁ rs₁ =>
      cases rs₂ with
      | nil => cases hp
      | cons r₂ rs₂ =>
        rcases List.mem_cons.mp hp with rfl | hp
        · exact ⟨List.mem_cons_self, r₁, r₂, rfl, rfl⟩
        · exact ⟨List.mem_cons_of_mem row (ih hp).1, (ih hp).2⟩

theorem filledAll_replicate (rows : List (Fin res.columnCount → Value)) (r : Record) :
    filledAll m res rows (List.replicate rows.length r) =
      rows.map fun row => filled res row m.fields r := by
  induction rows with
  | nil => rfl
  | cons row rows ih =>
    rw [List.length_cons, List.replicate_succ, List.map_cons, ← ih]
    rfl

theorem mem_zip_filledAll_replicate {rows : List (Fin res.columnCount → Value)} (hrow : row ∈ rows)
    (r₁ r₂ : Record) :
    (row, filled res row m.fields r₁, filled res row m.fields r₂) ∈
      rows.zip ((filledAll m res rows (List.replicate rows.length r₁)).zip
        (filledAll m res rows (List.replicate rows.length r₂))) := by
  rw [filledAll_replicate, filledAll_replicate, List.zip_map', ← List.map_prod_left_eq_zip]
  exact List.mem_map.mpr ⟨row, hrow, rfl⟩

/-- **The records depend on the rows only** exactly when every row fills the members of its
columns. -/
theorem loads_forget_iff (call : LoadCall)
    (hfind : find b s (call.query b.type) = (.ok, some res, q', s'))
    (h : ∀ row ∈ call.rows res, Typed res row call.model.fields) :
    (∀ rs₁ rs₂ : List Record, rs₁.length = (call.rows res).length →
      rs₂.length = (call.rows res).length →
      ∃ rs₁' rs₂', call.Loads b s res rs₁ rs₁' ∧ call.Loads b s res rs₂ rs₂' ∧
        ∀ p ∈ (call.rows res).zip (rs₁'.zip rs₂'), SameFields call.model res p.1 p.2.1 p.2.2) ↔
      ∀ row ∈ call.rows res, RowFills call.model res row := by
  constructor
  · intro hforget row hrow
    refine (sameFields_filled_iff (h row hrow)).mp fun r₁ r₂ => ?_
    obtain ⟨rs₁', rs₂', hloads₁, hloads₂, hagree⟩ :=
      hforget (List.replicate (call.rows res).length r₁) (List.replicate (call.rows res).length r₂)
        List.length_replicate List.length_replicate
    rw [loads_unique h hloads₁, loads_unique h hloads₂] at hagree
    exact hagree _ (mem_zip_filledAll_replicate hrow r₁ r₂)
  · intro hfills rs₁ rs₂ hlen₁ hlen₂
    refine ⟨_, _, loads_filledAll call hfind h hlen₁, loads_filledAll call hfind h hlen₂,
      fun p hp => ?_⟩
    obtain ⟨hrow, r₁, r₂, h₁, h₂⟩ := mem_zip_filledAll hp
    rw [h₁, h₂]
    exact (sameFields_filled_iff (h p.1 hrow)).mpr (hfills p.1 hrow) r₁ r₂

end Rows

/-! ## A name and no name -/

/-- A `char` array of eight bytes. -/
def nameField : Field := ⟨some "name".toList, .string, 8, 0⟩

/-- A model with the one field. -/
def nameModel : Model where
  tableName := some "names".toList
  structSize := 8
  fields := [nameField]
  primaryKey := none
  primaryKey_mem := nofun
  beforeCreate := none
  afterCreate := none
  beforeUpdate := none
  afterUpdate := none
  beforeDelete := none
  afterDelete := none
  afterFind := none

/-- The row whose name is NULL. -/
def noName : Result where
  columnCount := 1
  columnNames := fun _ => "name".toList
  columnTypes := fun _ => .text
  rows := [fun _ => ⟨.text, true, .zero⟩]

/-- A database that finds this row. -/
def noNameBackend : Backend Unit Result where
  type := .sqlite
  exec := fun s _ _ => (.ok, s)
  query := fun s _ _ => (.ok, some noName, s)
  begin_ := fun s => (.ok, s)
  commit := fun s => (.ok, s)
  rollback := fun s => (.ok, s)
  lastInsertId := fun _ => 0
  rowsAffected := fun _ => 0

/-- `corm_first` on a new query. -/
def firstName : LoadCall := .first (queryNew .sqlite nameModel)

/-- The record into which `Ada` was loaded. -/
def ada : Record :=
  Function.update zeroRecord nameField (⟨strncpy "Ada".toList 8, strncpy_length _ _⟩ : Buffer Char 8)

theorem noName_typed : ∀ row ∈ firstName.rows noName, Typed noName row firstName.model.fields := by
  intro row hrow f hf val hval
  obtain rfl := List.mem_singleton.mp hrow
  obtain rfl := List.mem_singleton.mp hf
  obtain rfl := Option.some.inj (show some _ = some val from hval)
  exact Or.inl ⟨rfl, rfl⟩

/-- **The name that was loaded before stays** where a row without a name is loaded. -/
theorem loads_remember_ada :
    ¬ ∀ rs₁ rs₂ : List Record, rs₁.length = (firstName.rows noName).length →
      rs₂.length = (firstName.rows noName).length →
      ∃ rs₁' rs₂', firstName.Loads noNameBackend () noName rs₁ rs₁' ∧
        firstName.Loads noNameBackend () noName rs₂ rs₂' ∧
        ∀ p ∈ (firstName.rows noName).zip (rs₁'.zip rs₂'),
          SameFields firstName.model noName p.1 p.2.1 p.2.2 := by
  intro hforget
  obtain ⟨rs₁', rs₂', hloads₁, hloads₂, hagree⟩ := hforget [zeroRecord] [ada] rfl rfl
  rw [loads_unique noName_typed hloads₁, loads_unique noName_typed hloads₂] at hagree
  have hsame := hagree _ List.mem_cons_self nameField List.mem_cons_self rfl
  have hne : cstr (List.replicate 8 nul) ≠ cstr (strncpy "Ada".toList 8) := by decide
  exact hne hsame

theorem loads_forget_iff_firstName :
    (∀ rs₁ rs₂ : List Record, rs₁.length = (firstName.rows noName).length →
      rs₂.length = (firstName.rows noName).length →
      ∃ rs₁' rs₂', firstName.Loads noNameBackend () noName rs₁ rs₁' ∧
        firstName.Loads noNameBackend () noName rs₂ rs₂' ∧
        ∀ p ∈ (firstName.rows noName).zip (rs₁'.zip rs₂'),
          SameFields firstName.model noName p.1 p.2.1 p.2.2) ↔
      ∀ row ∈ firstName.rows noName, RowFills firstName.model noName row :=
  loads_forget_iff firstName rfl noName_typed

end Corm
