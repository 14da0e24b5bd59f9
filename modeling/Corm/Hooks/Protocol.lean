import Corm.Batch.Atomic
import Corm.Update.Order

/-!
# Hooks around statements

`corm_create`, `corm_update`, `corm_delete` and the records of `corm_delete_batch` call hooks before
and after their statement; a soft delete calls those of an update.

* `Event`, `observe`: a call with what can be seen of it, **`run_done`**: it is the call;
* `HookProtocol`: the before hook, the statement and the after hook of an operation, as far as the
  results allow;
* `hookProtocol_observe`: the shared part of the functions keeps the protocol of its hooks;
* **`hookProtocol_iff`**: when a call keeps the protocol of its own kind of operation.
-/

namespace Corm

/-! ## What can be seen of a call -/

/-- A hook for a kind of operation, or a statement with its parameters. -/
inductive Event
  | before (kind : QueryOp)
  | statement (sql : Text) (params : List Value)
  | after (kind : QueryOp)
  deriving DecidableEq

/-- The hook before an operation. -/
def Model.before (m : Model) : QueryOp → Option Hook
  | .select => none
  | .insert => m.beforeCreate
  | .update => m.beforeUpdate
  | .delete => m.beforeDelete

/-- The hook after an operation; a SELECT has one, but not in these functions. -/
def Model.after (m : Model) : QueryOp → Option Hook
  | .select => none
  | .insert => m.afterCreate
  | .update => m.afterUpdate
  | .delete => m.afterDelete

/-- The call of a hook, if there is one. -/
def seen (hook : Option Hook) (e : Event) : List Event := if hook.isSome then [e] else []

variable {σ ρ : Type} (b : Backend σ ρ)

/-- `execWithHooks` for a kind of operation, with what can be seen of it. -/
def observe (kind : QueryOp) (count : σ → ℤ) (bind : Query → Option Record → Query) (s : σ)
    (q : Query) (record : Option Record) : Done σ × List Event :=
  let before := q.model.before kind
  let after := q.model.after kind
  match runHook before record with
  | (.ok, record) =>
    let q := queryOp q kind
    let sql := buildSql q
    let q := bind q record
    match b.exec s sql q.params with
    | (.ok, s) =>
      (⟨.ok, q, (runHook after record).2, some (count s), s⟩,
        seen before (.before kind) ++ [Event.statement sql q.params] ++ seen after (.after kind))
    | (err, s) => (⟨err, q, record, none, s⟩,
        seen before (.before kind) ++ [Event.statement sql q.params])
  | (err, record) => (⟨err, q, record, none, s⟩, seen before (.before kind))

/-- A call that one hook may veto and another one follows. -/
inductive HookCall
  | create (q : Query) (record : Record)
  | update (q : Query)
  | delete (q : Query)
  | deleteRecord (m : Model) (pk : Field) (rec : Record)

namespace HookCall

/-- The call: a record of `corm_delete_batch` is one round of its loop. -/
def done (s : σ) : HookCall → Done σ
  | .create q record => Corm.create b s q record
  | .update q => Corm.update b s q
  | .delete q => Corm.delete b s q
  | .deleteRecord m pk rec => deleteBatchOne b m s (deleteBatchQuery b.type m pk rec) rec

/-- `corm_update_internal`, with what can be seen of it. -/
def runUpdate (s : σ) (q : Query) (record : Option Record) : Done σ × List Event :=
  observe b .update b.rowsAffected (fun q _ => q) s q record

/-- `corm_delete_internal`, with what can be seen of it. -/
def runDelete (s : σ) (q : Query) (record : Option Record) : Done σ × List Event :=
  match softDeleteField q.model with
  | some f => runUpdate b s (querySet q f.name tombstone) record
  | none => observe b .delete b.rowsAffected (fun q _ => q) s q record

/-- The call, with what can be seen of it. -/
def run (s : σ) : HookCall → Done σ × List Event
  | .create q record => observe b .insert b.lastInsertId bindRecord s q (some record)
  | .update q => runUpdate b s q none
  | .delete q => runDelete b s q none
  | .deleteRecord m pk rec =>
    let q := deleteBatchQuery b.type m pk rec
    match softDeleteField m with
    | some _ => runUpdate b s q (some rec)
    | none => runDelete b s q (some rec)

/-- The kind of operation that the call is. -/
def kind : HookCall → QueryOp
  | .create _ _ => .insert
  | .update _ => .update
  | .delete _ | .deleteRecord _ _ _ => .delete

/-- The model of the call. -/
def model : HookCall → Model
  | .create q _ | .update q | .delete q => q.model
  | .deleteRecord m _ _ => m

/-- The record that the hooks are given. -/
def record : HookCall → Option Record
  | .create _ record => some record
  | .update _ | .delete _ => none
  | .deleteRecord _ _ rec => some rec

/-- The query of the UPDATE that a soft delete makes. -/
def softDelete (bt : BackendType) : HookCall → Option Query
  | .create _ _ | .update _ => none
  | .delete q => (softDeleteField q.model).map fun f => querySet q f.name tombstone
  | .deleteRecord m pk rec => (softDeleteField m).map fun _ => deleteBatchQuery bt m pk rec

end HookCall

/-- The trace of an operation: its before hook alone, with the error of the hook and nothing
changed; the before hook and a statement that fails; or the before hook, a statement that succeeds
and the after hook. -/
def HookProtocol (s : σ) (kind : QueryOp) (m : Model) (record : Option Record)
    (out : Done σ × List Event) : Prop :=
  let veto := (runHook (m.before kind) record).1
  let first := seen (m.before kind) (.before kind)
  let last := seen (m.after kind) (.after kind)
  (veto ≠ .ok ∧ out.1.err = veto ∧ out.1.state = s ∧ out.2 = first) ∨
  (veto = .ok ∧ ∃ sql params, (b.exec s sql params).1 ≠ .ok ∧
    out.1.err = (b.exec s sql params).1 ∧ out.2 = first ++ [Event.statement sql params]) ∨
  (veto = .ok ∧ ∃ sql params, (b.exec s sql params).1 = .ok ∧
    out.1.err = .ok ∧ out.2 = first ++ [Event.statement sql params] ++ last)

/-! ## The call itself -/

theorem observe_done (kind : QueryOp) (count : σ → ℤ) (bind : Query → Option Record → Query) (s : σ)
    (q : Query) (record : Option Record) :
    (observe b kind count bind s q record).1 =
      execWithHooks b (q.model.before kind) (q.model.after kind) count bind kind s q record := by
  unfold observe execWithHooks
  simp only
  rcases runHook (q.model.before kind) record with ⟨err, record'⟩
  cases err with
  | ok =>
    simp only
    rcases b.exec s (buildSql (queryOp q kind)) (bind (queryOp q kind) record').params with ⟨err, s'⟩
    cases err <;> rfl
  | _ => rfl

theorem runUpdate_done (s : σ) (q : Query) (record : Option Record) :
    (HookCall.runUpdate b s q record).1 = updateInternal b s q record :=
  observe_done b .update b.rowsAffected (fun q _ => q) s q record

theorem runDelete_done (s : σ) (q : Query) (record : Option Record) :
    (HookCall.runDelete b s q record).1 = deleteInternal b s q record := by
  unfold HookCall.runDelete deleteInternal
  cases softDeleteField q.model with
  | some f => exact runUpdate_done b s _ record
  | none => exact observe_done b .delete b.rowsAffected (fun q _ => q) s q record

/-- **Seeing it changes nothing.** -/
theorem run_done (s : σ) (c : HookCall) : (c.run b s).1 = c.done b s := by
  cases c with
  | create q record => exact observe_done b .insert b.lastInsertId bindRecord s q (some record)
  | update q => exact runUpdate_done b s q none
  | delete q => exact runDelete_done b s q none
  | deleteRecord m pk rec =>
    unfold HookCall.run HookCall.done deleteBatchOne
    simp only
    cases softDeleteField m with
    | some f => exact runUpdate_done b s _ (some rec)
    | none => exact runDelete_done b s _ (some rec)

/-! ## The protocol -/

theorem hookProtocol_observe (kind : QueryOp) (count : σ → ℤ)
    (bind : Query → Option Record → Query) (s : σ) (q : Query) (record : Option Record) :
    HookProtocol b s kind q.model record (observe b kind count bind s q record) := by
  unfold HookProtocol observe
  simp only
  rcases runHook (q.model.before kind) record with ⟨err, record'⟩
  cases err with
  | ok =>
    simp only
    rcases hexec : b.exec s (buildSql (queryOp q kind)) (bind (queryOp q kind) record').params with
      ⟨err, s'⟩
    cases err with
    | ok => exact Or.inr (Or.inr ⟨trivial, _, _, by rw [hexec], rfl, rfl⟩)
    | _ => exact Or.inr (Or.inl ⟨trivial, _, _, by rw [hexec]; simp, by rw [hexec], rfl⟩)
  | _ => exact Or.inl ⟨by simp, rfl, rfl, rfl⟩

theorem mem_seen (hook : Option Hook) (e e' : Event) :
    e ∈ seen hook e' ↔ e = e' ∧ hook.isSome = true := by
  unfold seen
  split_ifs with h <;> simp [h]

variable {b}

theorem before_mem {s : σ} {kind : QueryOp} {m : Model} {record : Option Record}
    {out : Done σ × List Event} (h : HookProtocol b s kind m record out) (k : QueryOp) :
    .before k ∈ out.2 ↔ k = kind ∧ (m.before kind).isSome = true := by
  rcases h with ⟨-, -, -, htrace⟩ | ⟨-, sql, params, -, -, htrace⟩ | ⟨-, sql, params, -, -, htrace⟩ <;>
    simp [htrace, mem_seen]

theorem after_mem {s : σ} {kind : QueryOp} {m : Model} {record : Option Record}
    {out : Done σ × List Event} (h : HookProtocol b s kind m record out) (k : QueryOp) :
    .after k ∈ out.2 ↔ k = kind ∧ (m.after kind).isSome = true ∧ out.1.err = .ok := by
  rcases h with ⟨hveto, herr, -, htrace⟩ | ⟨-, sql, params, hfail, herr, htrace⟩ |
    ⟨-, sql, params, -, herr, htrace⟩
  · have hne : out.1.err ≠ .ok := by rwa [herr]
    simp [htrace, mem_seen, hne]
  · have hne : out.1.err ≠ .ok := by rwa [herr]
    simp [htrace, mem_seen, hne]
  · simp [htrace, mem_seen, herr]

variable (b)

theorem runUpdate_unguarded (s : σ) (q : Query) (record : Option Record)
    (hu : q.model.beforeUpdate = none) :
    let e := Event.statement (buildSql (queryOp q .update)) q.params
    let err := (b.exec s (buildSql (queryOp q .update)) q.params).1
    (HookCall.runUpdate b s q record).1.err = err ∧
    (HookCall.runUpdate b s q record).2 =
      if err = .ok then e :: seen q.model.afterUpdate (.after .update) else [e] := by
  unfold HookCall.runUpdate observe
  simp only [Model.before, hu, runHook]
  rcases hexec : b.exec s (buildSql (queryOp q .update)) q.params with ⟨err, s'⟩
  have hparams : (queryOp q .update).params = q.params := rfl
  rw [hparams, hexec]
  cases err <;> exact ⟨rfl, rfl⟩

/-- The hooks of an update around the statement: a soft delete has the trace of a delete only when
there are no hooks that tell it from an update. -/
theorem hookProtocol_softDelete {m : Model} (s : σ) (q : Query) (record : Option Record)
    (hm : q.model = m) :
    HookProtocol b s .delete m record (HookCall.runUpdate b s q record) ↔
      m.beforeUpdate = none ∧ m.beforeDelete = none ∧
        ((b.exec s (buildSql (queryOp q .update)) q.params).1 = .ok →
          m.afterUpdate = none ∧ m.afterDelete = none) := by
  subst hm
  have hupdate : HookProtocol b s .update q.model record (HookCall.runUpdate b s q record) :=
    hookProtocol_observe b .update b.rowsAffected (fun q _ => q) s q record
  constructor
  · intro h
    have hu : q.model.beforeUpdate = none := by
      have hmem := (before_mem hupdate .update).symm.trans (before_mem h .update)
      simpa [Model.before] using hmem
    have hd : q.model.beforeDelete = none := by
      have hmem := (before_mem hupdate .delete).symm.trans (before_mem h .delete)
      simpa [Model.before] using hmem
    refine ⟨hu, hd, fun hok => ?_⟩
    have herr : (HookCall.runUpdate b s q record).1.err = .ok :=
      (runUpdate_unguarded b s q record hu).1.trans hok
    have hau := (after_mem hupdate .update).symm.trans (after_mem h .update)
    have had := (after_mem hupdate .delete).symm.trans (after_mem h .delete)
    constructor
    · simpa [Model.after, herr] using hau
    · simpa [Model.after, herr] using had
  · rintro ⟨hu, hd, hafter⟩
    obtain ⟨herr, htrace⟩ := runUpdate_unguarded b s q record hu
    have hveto : (runHook (q.model.before .delete) record).1 = .ok := by rw [Model.before, hd]; rfl
    have hfirst : seen (q.model.before .delete) (.before .delete) = [] := by
      rw [Model.before, hd]
      rfl
    unfold HookProtocol
    simp only [hveto, hfirst, List.nil_append]
    by_cases hok : (b.exec s (buildSql (queryOp q .update)) q.params).1 = .ok
    · obtain ⟨hau, had⟩ := hafter hok
      rw [if_pos hok, hau] at htrace
      have hlast : seen (q.model.after .delete) (.after .delete) = [] := by
        rw [Model.after, had]
        rfl
      refine Or.inr (Or.inr ⟨trivial, _, _, hok, herr.trans hok, ?_⟩)
      rw [htrace, hlast]
      rfl
    · rw [if_neg hok] at htrace
      exact Or.inr (Or.inl ⟨trivial, _, _, hok, herr, htrace⟩)

/-- **When a call keeps the protocol of its own kind**: always, unless it is a soft delete; and for
a soft delete, when the model has no hooks that tell it from an update. -/
theorem hookProtocol_iff (s : σ) (c : HookCall) :
    HookProtocol b s c.kind c.model c.record (c.run b s) ↔
      ∀ q ∈ c.softDelete b.type, c.model.beforeUpdate = none ∧ c.model.beforeDelete = none ∧
        ((b.exec s (buildSql (queryOp q .update)) q.params).1 = .ok →
          c.model.afterUpdate = none ∧ c.model.afterDelete = none) := by
  cases c with
  | create q record =>
    refine iff_of_true ?_ (by simp [HookCall.softDelete])
    exact hookProtocol_observe b .insert b.lastInsertId bindRecord s q (some record)
  | update q =>
    refine iff_of_true ?_ (by simp [HookCall.softDelete])
    exact hookProtocol_observe b .update b.rowsAffected (fun q _ => q) s q none
  | delete q =>
    unfold HookCall.run HookCall.runDelete HookCall.softDelete
    simp only
    cases softDeleteField q.model with
    | some f =>
      refine (hookProtocol_softDelete b s _ none (model_querySet q f.name tombstone)).trans ?_
      simp [HookCall.model]
    | none =>
      refine iff_of_true ?_ (by simp)
      exact hookProtocol_observe b .delete b.rowsAffected (fun q _ => q) s q none
  | deleteRecord m pk rec =>
    have hmodel : (deleteBatchQuery b.type m pk rec).model = m := model_query b.type m pk rec .delete
    unfold HookCall.run HookCall.softDelete
    simp only
    cases hf : softDeleteField m with
    | some f =>
      refine (hookProtocol_softDelete b s _ (some rec) hmodel).trans ?_
      simp [HookCall.model]
    | none =>
      have hrun : HookCall.runDelete b s (deleteBatchQuery b.type m pk rec) (some rec) =
          observe b .delete b.rowsAffected (fun q _ => q) s (deleteBatchQuery b.type m pk rec)
            (some rec) := by rw [HookCall.runDelete, hmodel, hf]
      have hdelete := hookProtocol_observe b .delete b.rowsAffected (fun q _ => q) s
        (deleteBatchQuery b.type m pk rec) (some rec)
      rw [hmodel, ← hrun] at hdelete
      exact iff_of_true hdelete (by simp)

/-! ## A veto that is not asked for -/

/-- A hook that vetoes everything. -/
def vetoHook : Hook := ⟨.generic, fun record => (.generic, record)⟩

/-- The model of `tests/test_soft_delete.c`, with rows that must not be deleted. -/
def keptUserModel : Model := { softUserModel with beforeDelete := some vetoHook }

/-- The query of `tests/test_soft_delete.c`. -/
def deleteKept : HookCall := .delete (queryWhere (queryNew .sqlite keptUserModel) "id = 1".toList)

/-- The row is deleted, and nobody asked the hook. -/
theorem softDelete_unasked :
    validateModel deleteKept.model = .ok ∧
    (runHook (deleteKept.model.before deleteKept.kind) deleteKept.record).1 = .generic ∧
    (deleteKept.done (recorder .sqlite) []).err = .ok ∧
    ¬ HookProtocol (recorder .sqlite) [] deleteKept.kind deleteKept.model deleteKept.record
      (deleteKept.run (recorder .sqlite) []) := by
  refine ⟨by decide +kernel, rfl, by decide +kernel, fun h => ?_⟩
  have hmem := (before_mem h .delete).mpr ⟨rfl, rfl⟩
  exact absurd hmem (by decide +kernel)

end Corm
