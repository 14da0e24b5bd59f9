import Corm.Calls
import Corm.Lib.Handle
import Corm.Lib.Run

/-!
# Who owns the parameters

The parameters of a query with their pointers. Each pointer is tagged by who allocated its block, and
the caller may change what is behind its own pointers between two calls.

* `Held`, `PValue`: `corm_value_t`, down to the pointer; `PValue.value`: what is read through it;
* `paramDeepCopy`, `paramFree`: copying and freeing one value;
* `Call`, `Call.apply`: the calls that bind values, and `corm_query_reset`;
* `Owns`: the pointers of the parameters are copies, and they are the blocks that are allocated;
* `inv_bind`, `not_owns_taken`: a value that is copied, and an empty blob, which is not;
* **`params_owned_iff`**: a query owns its parameters throughout a run exactly when no call binds an
  empty blob.
-/

namespace Corm.Owned

open Handle

/-! ## Values with pointers -/

/-- A pointer, tagged by who allocated its block. -/
inductive Ptr
  | caller (k : ℕ)
  | query (k : ℕ)
  deriving DecidableEq

/-- What is behind pointers: the characters up to a NUL, and the bytes. -/
structure Heap (P : Type) where
  chars : P → Text
  bytes : P → ℕ → UInt8

/-- The heap of the caller and the query. -/
def Heap.both (caller own : Heap ℕ) : Heap Ptr where
  chars
    | .caller k => caller.chars k
    | .query k => own.chars k
  bytes
    | .caller k => caller.bytes k
    | .query k => own.bytes k

/-- The member of `corm_value_t.v` that a field type selects; a blob is `data` and `len`. -/
def Held (P : Type) : FieldType → Type
  | .int | .int64 => Int64
  | .float | .double => UInt64
  | .string | .text => Option P
  | .blob => Option P × ℕ
  | .bool => Bool

/-- `corm_value_t`. -/
structure PValue (P : Type) where
  type : FieldType
  isNull : Bool
  v : Held P type

namespace PValue

variable {P Q : Type}

/-- The value that is read through the pointer. -/
def value (heap : Heap P) : PValue P → Value
  | ⟨.int, isNull, n⟩ => ⟨.int, isNull, .i n⟩
  | ⟨.int64, isNull, n⟩ => ⟨.int64, isNull, .i n⟩
  | ⟨.float, isNull, bits⟩ => ⟨.float, isNull, .f bits⟩
  | ⟨.double, isNull, bits⟩ => ⟨.double, isNull, .f bits⟩
  | ⟨.string, isNull, s⟩ => ⟨.string, isNull, .s (s.map heap.chars)⟩
  | ⟨.text, isNull, s⟩ => ⟨.text, isNull, .s (s.map heap.chars)⟩
  | ⟨.blob, isNull, (data, len)⟩ =>
    ⟨.blob, isNull, .blob (data.map fun p => (List.range len).map (heap.bytes p))⟩
  | ⟨.bool, isNull, b⟩ => ⟨.bool, isNull, .b b⟩

/-- The string or blob pointer. -/
def ptr : PValue P → Option P
  | ⟨.string, _, s⟩ | ⟨.text, _, s⟩ => s
  | ⟨.blob, _, (data, _)⟩ => data
  | _ => none

/-- The value with its pointer renamed. -/
def mapPtr (f : P → Q) : PValue P → PValue Q
  | ⟨.int, isNull, n⟩ => ⟨.int, isNull, n⟩
  | ⟨.int64, isNull, n⟩ => ⟨.int64, isNull, n⟩
  | ⟨.float, isNull, bits⟩ => ⟨.float, isNull, bits⟩
  | ⟨.double, isNull, bits⟩ => ⟨.double, isNull, bits⟩
  | ⟨.string, isNull, s⟩ => ⟨.string, isNull, Option.map f s⟩
  | ⟨.text, isNull, s⟩ => ⟨.text, isNull, Option.map f s⟩
  | ⟨.blob, isNull, (data, len)⟩ => ⟨.blob, isNull, (Option.map f data, len)⟩
  | ⟨.bool, isNull, b⟩ => ⟨.bool, isNull, b⟩

/-- A `CORM_BLOB` without bytes whose pointer is not null. -/
def isEmptyBlob : PValue P → Bool
  | ⟨.blob, _, (some _, 0)⟩ => true
  | _ => false

end PValue

/-! ## The parameter array -/

/-- The parameters of a query, the blocks it has allocated so far, and when each was allocated and
freed. -/
structure ParamArray where
  params : List (PValue Ptr)
  heap : Heap ℕ
  allocs : ℕ
  log : List (Event Empty Ptr)

/-- The pointers of some parameters. -/
def pointers (params : List (PValue Ptr)) : List Ptr := params.filterMap PValue.ptr

/-- The parameters of `corm_query_new`. -/
def ParamArray.new : ParamArray := ⟨[], ⟨fun _ => [], fun _ _ => 0⟩, 0, []⟩

namespace ParamArray

variable (a : ParamArray)

/-- `strdup`. -/
def strdup (s : Text) : Ptr × ParamArray :=
  (.query a.allocs,
    { a with
      heap.chars := fun k => if k = a.allocs then s else a.heap.chars k
      allocs := a.allocs + 1
      log := .opened (.query a.allocs) :: a.log })

/-- `malloc(len)`, and `memcpy` of that many bytes. -/
def memdup (data : ℕ → UInt8) (len : ℕ) : Ptr × ParamArray :=
  (.query a.allocs,
    { a with
      heap.bytes := fun k i => if k = a.allocs ∧ i < len then data i else a.heap.bytes k i
      allocs := a.allocs + 1
      log := .opened (.query a.allocs) :: a.log })

end ParamArray

/-- `corm_param_deep_copy`, of a value of the caller. -/
def paramDeepCopy (caller : Heap ℕ) (a : ParamArray) : PValue ℕ → PValue Ptr × ParamArray
  | ⟨.text, isNull, some s⟩ =>
    let (p, a) := a.strdup (caller.chars s)
    (⟨.text, isNull, some p⟩, a)
  | ⟨.string, isNull, some s⟩ =>
    let (p, a) := a.strdup (caller.chars s)
    (⟨.string, isNull, some p⟩, a)
  | ⟨.blob, isNull, (some data, len)⟩ =>
    if 0 < len then
      let (p, a) := a.memdup (caller.bytes data) len
      (⟨.blob, isNull, (some p, len)⟩, a)
    else (⟨.blob, isNull, (some (.caller data), len)⟩, a)
  | val => (val.mapPtr .caller, a)

/-- `corm_param_free`: the value after it, and the log. -/
def paramFree (log : List (Event Empty Ptr)) : PValue Ptr → PValue Ptr × List (Event Empty Ptr)
  | ⟨.text, isNull, some p⟩ => (⟨.text, isNull, none⟩, .closed p :: log)
  | ⟨.string, isNull, some p⟩ => (⟨.string, isNull, none⟩, .closed p :: log)
  | ⟨.blob, isNull, (some p, len)⟩ => (⟨.blob, isNull, (none, len)⟩, .closed p :: log)
  | val => (val, log)

/-- `corm_param_free` for each parameter; no cell is read again after it. -/
def paramsFree : List (PValue Ptr) → List (Event Empty Ptr) → List (Event Empty Ptr)
  | [], log => log
  | val :: vals, log => paramsFree vals (paramFree log val).2

/-! ## Calls

What the calls of the builder do to the parameters; `Corm.queryWhereIn` and the others have the rest
of them. -/

section Calls

variable (caller : Heap ℕ) (a : ParamArray)

/-- `corm_query_bind`. -/
def queryBind (val : PValue ℕ) : ParamArray :=
  let (val, a) := paramDeepCopy caller a val
  { a with params := a.params ++ [val] }

/-- `corm_query_where_in`. -/
def queryWhereIn (field : Option Text) (vals : List (PValue ℕ)) : ParamArray :=
  if isValidIdentifier field && !vals.isEmpty then vals.foldl (queryBind caller) a else a

/-- `corm_query_where_between`. -/
def queryWhereBetween (field : Option Text) (minVal maxVal : PValue ℕ) : ParamArray :=
  if isValidIdentifier field then queryBind caller (queryBind caller a minVal) maxVal else a

/-- `corm_query_set`. -/
def querySet (field : Option Text) (val : PValue ℕ) : ParamArray :=
  if isValidIdentifier field then queryBind caller a val else a

/-- `corm_query_reset`. -/
def queryReset : ParamArray := { a with params := [], log := paramsFree a.params a.log }

/-- The log after `corm_query_free`. -/
def queryFree : List (Event Empty Ptr) := paramsFree a.params a.log

end Calls

/-- A call that binds or frees parameters. -/
inductive Call
  | bind (val : PValue ℕ)
  | whereIn (field : Option Text) (vals : List (PValue ℕ))
  | whereBetween (field : Option Text) (minVal maxVal : PValue ℕ)
  | set (field : Option Text) (val : PValue ℕ)
  | reset

namespace Call

/-- The parameters after the call, with what is behind the caller's pointers by then. -/
def apply (caller : Heap ℕ) (a : ParamArray) : Call → ParamArray
  | .bind val => queryBind caller a val
  | .whereIn field vals => queryWhereIn caller a field vals
  | .whereBetween field minVal maxVal => queryWhereBetween caller a field minVal maxVal
  | .set field val => querySet caller a field val
  | .reset => queryReset a

/-- The query after the call, as `Corm.Query` has it: with the values that the pointers lead to. -/
def plain (caller : Heap ℕ) (q : Query) : Call → Query
  | .bind val => Corm.queryBind q (val.value caller)
  | .whereIn field vals => Corm.queryWhereIn q field (vals.map (PValue.value caller))
  | .whereBetween field minVal maxVal =>
    Corm.queryWhereBetween q field (minVal.value caller) (maxVal.value caller)
  | .set field val => Corm.querySet q field (val.value caller)
  | .reset => Corm.queryReset q

/-- The values that the call binds. -/
def taken : Call → List (PValue ℕ)
  | .bind val => [val]
  | .whereIn field vals => if isValidIdentifier field then vals else []
  | .whereBetween field minVal maxVal => if isValidIdentifier field then [minVal, maxVal] else []
  | .set field val => if isValidIdentifier field then [val] else []
  | .reset => []

/-- The call binds no empty blob. -/
def Copied (c : Call) : Prop := ∀ val ∈ c.taken, val.isEmptyBlob = false

end Call

/-- A call on the parameters and on the query with their values. -/
def step (s : ParamArray × Query) (c : Heap ℕ × Call) : Option (ParamArray × Query) :=
  some (c.2.apply c.1 s.1, c.2.plain c.1 s.2)

/-! ## Ownership -/

/-- **The query owns its parameters**: their pointers are copies, which hold the values `given`
whatever the caller does with its own blocks, and they are the blocks allocated and not freed. -/
structure Owns (a : ParamArray) (given : List Value) : Prop where
  contents : ∀ caller : Heap ℕ, a.params.map (PValue.value (caller.both a.heap)) = given
  copies : ∀ p ∈ pointers a.params, ∃ k, p = .query k
  holds : Holds a.log (pointers a.params)

/-- Every copy was freed exactly once, while it was allocated, and nothing else was freed. -/
structure Released (log : List (Event Empty Ptr)) : Prop where
  clean : Clean log
  once : ∀ p, .opened p ∈ log → log.count (.closed p) = 1
  copies : ∀ p, .closed p ∈ log → ∃ k, p = .query k

/-- The query owns its parameters, and may be freed. -/
def Sound (s : ParamArray × Query) : Prop := Owns s.1 s.2.params ∧ Released (queryFree s.1)

variable {P Q : Type} {caller : Heap ℕ} {a a' : ParamArray} {given : List Value} {val : PValue ℕ}
  {vals : List (PValue ℕ)} {c : Call} {log : List (Event Empty Ptr)}

theorem pointers_concat (params : List (PValue Ptr)) (val : PValue Ptr) :
    pointers (params ++ [val]) = pointers params ++ val.ptr.toList := by
  rw [pointers, List.filterMap_append]
  cases h : val.ptr with
  | none => simp [pointers, h]
  | some p => simp [pointers, h]

/-! ## Copying a value -/

/-- A block was allocated. -/
structure Grown (a a' : ParamArray) : Prop where
  params : a'.params = a.params
  allocs : a'.allocs = a.allocs + 1
  log : a'.log = .opened (.query a.allocs) :: a.log
  chars : ∀ k < a.allocs, a'.heap.chars k = a.heap.chars k
  bytes : ∀ k < a.allocs, a'.heap.bytes k = a.heap.bytes k

theorem grown_strdup (a : ParamArray) (s : Text) : Grown a (a.strdup s).2 where
  params := rfl
  allocs := rfl
  log := rfl
  chars _ hk := if_neg (Nat.ne_of_lt hk)
  bytes _ _ := rfl

theorem grown_memdup (a : ParamArray) (data : ℕ → UInt8) (len : ℕ) :
    Grown a (a.memdup data len).2 where
  params := rfl
  allocs := rfl
  log := rfl
  chars _ _ := rfl
  bytes _ hk := funext fun _ => if_neg fun h => Nat.ne_of_lt hk h.1

theorem memdup_bytes (a : ParamArray) (data : ℕ → UInt8) (len : ℕ) :
    (List.range len).map ((a.memdup data len).2.heap.bytes a.allocs) =
      (List.range len).map data := by
  refine List.map_congr_left fun i hi => ?_
  exact if_pos ⟨rfl, List.mem_range.mp hi⟩

/-- **Copying a value**: it has no pointer, or a new block has what is behind it. -/
theorem paramDeepCopy_cases (caller : Heap ℕ) (a : ParamArray) (hval : val.isEmptyBlob = false) :
    ∃ copy a', paramDeepCopy caller a val = (copy, a') ∧
      (∀ now : Heap ℕ, copy.value (now.both a'.heap) = val.value caller) ∧
      (copy.ptr = none ∧ a' = a ∨ copy.ptr = some (.query a.allocs) ∧ Grown a a') := by
  obtain ⟨type, isNull, v⟩ := val
  cases type with
  | int | int64 | float | double | bool =>
    exact ⟨_, a, rfl, fun _ => rfl, Or.inl ⟨rfl, rfl⟩⟩
  | string | text =>
    rcases v with _ | s
    · exact ⟨_, a, rfl, fun _ => rfl, Or.inl ⟨rfl, rfl⟩⟩
    · refine ⟨_, _, rfl, fun now => ?_, Or.inr ⟨rfl, grown_strdup a (caller.chars s)⟩⟩
      simp [PValue.value, Heap.both]
  | blob =>
    obtain ⟨_ | data, len⟩ := v
    · exact ⟨_, a, rfl, fun _ => rfl, Or.inl ⟨rfl, rfl⟩⟩
    · have hlen : 0 < len := by
        rcases len with _ | len
        · cases hval
        · exact Nat.succ_pos len
      have hcopy : paramDeepCopy caller a ⟨.blob, isNull, (some data, len)⟩ =
          (⟨.blob, isNull, (some (.query a.allocs), len)⟩,
            (a.memdup (caller.bytes data) len).2) := if_pos hlen
      refine ⟨_, _, hcopy, fun now => ?_, Or.inr ⟨rfl, grown_memdup a (caller.bytes data) len⟩⟩
      have hbytes := memdup_bytes a (caller.bytes data) len
      simp only [PValue.value, Option.map_some]
      exact congrArg (fun b => Value.mk .blob isNull (.blob (some b))) hbytes

theorem paramDeepCopy_empty (caller : Heap ℕ) (a : ParamArray) (hval : val.isEmptyBlob = true) :
    ∃ k copy, paramDeepCopy caller a val = (copy, a) ∧ copy.ptr = some (.caller k) := by
  obtain ⟨type, isNull, v⟩ := val
  cases type with
  | blob =>
    obtain ⟨_ | data, _ | len⟩ := v
    case some.zero => exact ⟨data, _, rfl, rfl⟩
    all_goals cases hval
  | _ => cases hval

theorem value_congr {heap heap' : Heap P} (v : PValue P)
    (hchars : ∀ p ∈ v.ptr, heap'.chars p = heap.chars p)
    (hbytes : ∀ p ∈ v.ptr, heap'.bytes p = heap.bytes p) : v.value heap' = v.value heap := by
  obtain ⟨type, isNull, v⟩ := v
  cases type with
  | int | int64 | float | double | bool => rfl
  | string | text =>
    rcases v with _ | p
    · rfl
    · simp only [PValue.value, Option.map_some, hchars p rfl]
  | blob =>
    obtain ⟨_ | p, len⟩ := v
    · rfl
    · simp only [PValue.value, Option.map_some, hbytes p rfl]

/-! ## Freeing the values -/

theorem paramFree_log (log : List (Event Empty Ptr)) (v : PValue Ptr) :
    (paramFree log v).2 = closeAll v.ptr.toList log := by
  obtain ⟨type, isNull, v⟩ := v
  cases type with
  | int | int64 | float | double | bool => rfl
  | string | text => rcases v with _ | p <;> rfl
  | blob => obtain ⟨_ | p, len⟩ := v <;> rfl

/-- **Freeing the parameters** frees their pointers. -/
theorem paramsFree_eq (params : List (PValue Ptr)) (log : List (Event Empty Ptr)) :
    paramsFree params log = closeAll (pointers params) log := by
  induction params generalizing log with
  | nil => rfl
  | cons v params ih =>
    rw [paramsFree, ih, paramFree_log]
    cases h : v.ptr with
    | none => simp [pointers, h, closeAll]
    | some p => simp [pointers, h, closeAll]

/-! ## The invariant -/

/-- The query owns its parameters, and has the blocks that it allocated. -/
structure Inv (a : ParamArray) (given : List Value) : Prop extends Owns a given where
  opened : ∀ p, .opened p ∈ a.log → ∃ k < a.allocs, p = .query k

theorem inv_new : Inv ParamArray.new [] where
  contents _ := rfl
  copies p hp := by cases hp
  holds := Holds.nil
  opened p hp := by cases hp

theorem inv_bind (h : Inv a given) (caller : Heap ℕ) (hval : val.isEmptyBlob = false) :
    Inv (queryBind caller a val) (given ++ [val.value caller]) := by
  obtain ⟨copy, a', hcopy, hvalue, hptr⟩ := paramDeepCopy_cases caller a hval
  have hbind : queryBind caller a val = { a' with params := a'.params ++ [copy] } := by
    rw [queryBind, hcopy]
  rw [hbind]
  obtain ⟨hnone, rfl⟩ | ⟨hsome, hgrown⟩ := hptr
  · have hpointers : pointers (a'.params ++ [copy]) = pointers a'.params := by
      rw [pointers_concat, hnone]
      exact List.append_nil _
    refine ⟨⟨fun now => ?_, ?_, ?_⟩, h.opened⟩
    · rw [List.map_append, h.contents now, List.map_singleton, hvalue]
    · exact hpointers ▸ h.copies
    · exact hpointers ▸ h.holds
  · have hpointers : pointers (a'.params ++ [copy]) =
        pointers a.params ++ [Ptr.query a.allocs] := by
      rw [pointers_concat, hsome, hgrown.params]
      rfl
    have hnew : .opened (.query a.allocs) ∉ a.log := fun hm => by
      obtain ⟨k, hk, heq⟩ := h.opened _ hm
      cases heq
      exact Nat.lt_irrefl _ hk
    refine ⟨⟨fun now => ?_, fun p hp => ?_, ?_⟩, fun p hp => ?_⟩
    · rw [List.map_append, List.map_singleton, hvalue, hgrown.params, ← h.contents now]
      refine congrArg (· ++ _) (List.map_congr_left fun v hv => ?_)
      have hold (p : Ptr) (hp : p ∈ v.ptr) : ∃ k < a.allocs, p = .query k := by
        have hmem : p ∈ pointers a.params := List.mem_filterMap.mpr ⟨v, hv, hp⟩
        exact h.opened p ((h.holds.live p).mpr hmem).1
      refine value_congr v (fun p hp => ?_) fun p hp => ?_
      · obtain ⟨k, hk, rfl⟩ := hold p hp
        exact hgrown.chars k hk
      · obtain ⟨k, hk, rfl⟩ := hold p hp
        exact hgrown.bytes k hk
    · rw [hpointers] at hp
      rcases List.mem_append.mp hp with hp | hp
      · exact h.copies p hp
      · exact ⟨a.allocs, List.mem_singleton.mp hp⟩
    · rw [hpointers]
      have hopened := h.holds.opened hnew
      rw [← hgrown.log] at hopened
      exact hopened.perm List.perm_append_comm
    · have hp : .opened p ∈ a'.log := hp
      rw [hgrown.log] at hp
      rw [show a'.allocs = a.allocs + 1 from hgrown.allocs]
      rcases List.mem_cons.mp hp with heq | hp
      · cases heq
        exact ⟨a.allocs, Nat.lt_succ_self _, rfl⟩
      · obtain ⟨k, hk, rfl⟩ := h.opened p hp
        exact ⟨k, Nat.lt_succ_of_lt hk, rfl⟩

theorem inv_bindAll (h : Inv a given) (caller : Heap ℕ)
    (hvals : ∀ val ∈ vals, val.isEmptyBlob = false) :
    Inv (vals.foldl (queryBind caller) a) (given ++ vals.map (PValue.value caller)) := by
  induction vals generalizing a given with
  | nil => rwa [List.map_nil, List.append_nil]
  | cons val vals ih =>
    have hbind := inv_bind h caller (hvals val List.mem_cons_self)
    have hrest := ih hbind fun val hm => hvals val (List.mem_cons_of_mem _ hm)
    rwa [List.append_assoc] at hrest

theorem inv_reset (h : Inv a given) : Inv (queryReset a) [] := by
  refine ⟨⟨fun _ => rfl, fun p hp => (by cases hp), ?_⟩, fun p hp => ?_⟩
  · show Holds (paramsFree a.params a.log) []
    rw [paramsFree_eq]
    exact Holds.closeAll (by rw [List.append_nil]; exact h.holds)
  · have hp : .opened p ∈ paramsFree a.params a.log := hp
    rw [paramsFree_eq] at hp
    exact h.opened p (mem_closeAll_opened.mp hp)

theorem Inv.released (h : Inv a given) : Released (queryFree a) := by
  have hreset := inv_reset h
  have hholds : Holds (queryFree a) [] := hreset.holds
  refine ⟨hholds.clean, hholds.count_closed, fun p hp => ?_⟩
  obtain ⟨k, -, hk⟩ := hreset.opened p (hholds.clean.opened_of_closed p hp)
  exact ⟨k, hk⟩

/-! ## Calls -/

theorem apply_eq (hc : c ≠ .reset) (caller : Heap ℕ) (a : ParamArray) :
    c.apply caller a = c.taken.foldl (queryBind caller) a := by
  cases c with
  | bind val => rfl
  | whereIn field vals =>
    simp only [Call.apply, queryWhereIn, Call.taken]
    cases isValidIdentifier field <;> cases vals <;> rfl
  | whereBetween field minVal maxVal =>
    simp only [Call.apply, queryWhereBetween, Call.taken]
    cases isValidIdentifier field <;> rfl
  | set field val =>
    simp only [Call.apply, querySet, Call.taken]
    cases isValidIdentifier field <;> rfl
  | reset => exact absurd rfl hc

theorem plain_params (hc : c ≠ .reset) (caller : Heap ℕ) (q : Query) :
    (c.plain caller q).params = q.params ++ c.taken.map (PValue.value caller) := by
  cases c with
  | bind val => rfl
  | whereIn field vals =>
    have h := (field_params (.whereIn field (vals.map (PValue.value caller))) q).2.2
    refine Eq.trans h (congrArg (q.params ++ ·) ?_)
    by_cases hv : isValidIdentifier field = true
    · cases vals <;> simp [FieldCall.accepted, FieldCall.field, FieldCall.vals, Call.taken, hv]
    · simp [FieldCall.accepted, FieldCall.field, Call.taken, hv]
  | whereBetween field minVal maxVal =>
    have h := (field_params (.whereBetween field (minVal.value caller) (maxVal.value caller)) q).2.2
    refine Eq.trans h (congrArg (q.params ++ ·) ?_)
    by_cases hv : isValidIdentifier field = true <;>
      simp [FieldCall.accepted, FieldCall.field, FieldCall.vals, Call.taken, hv]
  | set field val =>
    have h := (field_params (.set field (val.value caller)) q).2.2
    refine Eq.trans h (congrArg (q.params ++ ·) ?_)
    by_cases hv : isValidIdentifier field = true <;>
      simp [FieldCall.accepted, FieldCall.field, FieldCall.vals, Call.taken, hv]
  | reset => exact absurd rfl hc

/-- **A call that binds no empty blob** keeps the invariant. -/
theorem inv_call {q : Query} (h : Inv a q.params) (caller : Heap ℕ) (hc : c.Copied) :
    Inv (c.apply caller a) (c.plain caller q).params := by
  by_cases hreset : c = .reset
  · subst hreset
    exact inv_reset h
  · rw [apply_eq hreset, plain_params hreset]
    exact inv_bindAll h caller hc

theorem params_bindAll (caller : Heap ℕ) (a : ParamArray) (vals : List (PValue ℕ)) :
    a.params ⊆ (vals.foldl (queryBind caller) a).params := by
  induction vals generalizing a with
  | nil => exact List.Subset.refl _
  | cons val vals ih =>
    refine List.Subset.trans (fun v hv => ?_) (ih (queryBind caller a val))
    cases hval : val.isEmptyBlob with
    | false =>
      obtain ⟨copy, a', hcopy, -, ⟨-, rfl⟩ | ⟨-, hgrown⟩⟩ := paramDeepCopy_cases caller a hval
      · rw [queryBind, hcopy]
        exact List.mem_append_left _ hv
      · rw [queryBind, hcopy]
        exact List.mem_append_left _ (hgrown.params ▸ hv)
    | true =>
      obtain ⟨k, copy, hcopy, -⟩ := paramDeepCopy_empty caller a hval
      rw [queryBind, hcopy]
      exact List.mem_append_left _ hv

/-- **An empty blob** leaves a pointer of the caller among the parameters. -/
theorem caller_bindAll (caller : Heap ℕ) (a : ParamArray) (hm : val ∈ vals)
    (hval : val.isEmptyBlob = true) :
    ∃ k, .caller k ∈ pointers (vals.foldl (queryBind caller) a).params := by
  induction vals generalizing a with
  | nil => cases hm
  | cons first vals ih =>
    rcases List.mem_cons.mp hm with rfl | hm
    · obtain ⟨k, copy, hcopy, hptr⟩ := paramDeepCopy_empty caller a hval
      have hstored : copy ∈ (queryBind caller a val).params := by
        rw [queryBind, hcopy]
        exact List.mem_append_right _ List.mem_cons_self
      exact ⟨k, List.mem_filterMap.mpr
        ⟨copy, params_bindAll caller (queryBind caller a val) vals hstored, hptr⟩⟩
    · exact ih (queryBind caller a first) hm

theorem not_owns_taken (caller : Heap ℕ) (a : ParamArray) (hc : ¬ c.Copied) (given : List Value) :
    ¬ Owns (c.apply caller a) given := by
  simp only [Call.Copied, not_forall, Bool.not_eq_false] at hc
  obtain ⟨val, hm, hval⟩ := hc
  have hreset : c ≠ .reset := by
    rintro rfl
    cases hm
  obtain ⟨k, hk⟩ := caller_bindAll caller a hm hval
  rw [← apply_eq hreset] at hk
  intro howns
  obtain ⟨k', heq⟩ := howns.copies _ hk
  cases heq

/-- **A query owns its parameters** throughout any sequence of calls, whatever the caller does with
its own blocks between them, exactly when no call binds a `CORM_BLOB` with a pointer and no bytes. -/
theorem params_owned_iff (bt : BackendType) (m : Model) (calls : List (Heap ℕ × Call)) :
    Run.Throughout step Sound (ParamArray.new, queryNew bt m) calls ↔ ∀ c ∈ calls, c.2.Copied := by
  have hsound (s : ParamArray × Query) (h : Inv s.1 s.2.params) : Sound s := ⟨h.toOwns, h.released⟩
  refine (Run.throughout_iff (Q := fun _ c => c.2.Copied) hsound (fun s c h hc =>
    ⟨_, rfl, inv_call h c.1 hc⟩) (fun s c _ hc =>
      ⟨_, rfl, fun h => not_owns_taken c.1 s.1 hc _ h.1⟩) inv_new calls).trans ?_
  generalize (ParamArray.new, queryNew bt m) = s
  induction calls generalizing s with
  | nil => exact ⟨fun _ _ hm => (by cases hm), fun _ => trivial⟩
  | cons c calls ih =>
    rw [List.forall_mem_cons]
    constructor
    · rintro ⟨hc, s', -, hrest⟩
      exact ⟨hc, (ih s').mp hrest⟩
    · rintro ⟨hc, hrest⟩
      exact ⟨hc, _, rfl, (ih _).mpr hrest⟩

/-- `corm_query_bind` of a blob without bytes at a pointer of the caller. -/
def bindEmptyBlob : List (Heap ℕ × Call) :=
  [(⟨fun _ => [], fun _ _ => 0⟩, .bind ⟨.blob, false, (some 0, 0)⟩)]

/-- **A query frees a pointer of its caller**: `corm_query_bind` stores the pointer, and
`corm_query_free` frees it. -/
theorem empty_blob_freed :
    ¬ Run.Throughout step Sound (ParamArray.new, queryNew .sqlite testUserModel) bindEmptyBlob ∧
    (Run.exec step (ParamArray.new, queryNew .sqlite testUserModel) bindEmptyBlob).map
      (fun s => queryFree s.1) = some [.closed (.caller 0)] := by
  refine ⟨?_, rfl⟩
  rintro ⟨-, s', hs, hrest⟩
  obtain rfl := Option.some.inj hs
  obtain ⟨k, heq⟩ := hrest.1.copies (.caller 0) List.mem_cons_self
  cases heq

end Corm.Owned
