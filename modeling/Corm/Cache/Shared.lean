import Corm.Cache.Refine
import Corm.Lib.Run

/-!
# Clients of one statement cache

Each call of the cache is atomic, and the use that follows it is not.

* `Client`: what a client of the cache is about to do; `SharedCache`: a cache and its clients;
* `Turn`, `turnStep`: the next step of one client;
* `Unused`: no client uses a statement that was destroyed;
* `Spares`: a turn does not evict a statement that a client uses;
* `Shared`, `turnStep_cases`: what the turns keep, and what one turn does;
* **`unused_destroyed_iff`**: when a run destroys no statement in use.
-/

namespace Corm

open Dll

/-! ## Clients -/

/-- A client: it has ended its last use, has missed a text in the cache, or uses a statement. -/
inductive Client
  | idle
  | missed (sql : Text)
  | uses (stmt : ℕ)

/-- A cache, its clients, the number of statements prepared so far, which are numbered in order, and
those that `entry_destroy_fn` was called on. -/
structure SharedCache (ι : Type) where
  cache : StmtCache ℕ
  client : ι → Client
  prepared : ℕ
  destroyed : List ℕ

/-- A turn: the client that takes its next step, the text that it asks for if it is idle, and the
outcomes of the allocations if it puts a statement. -/
structure Turn (ι : Type) where
  who : ι
  sql : Text
  callocOk : Bool
  strdupOk : Bool

variable {ι : Type} [DecidableEq ι]

/-- A new cache and its clients. -/
def SharedCache.start (ι : Type) (capacity : ℕ) (fn : Bool) : Except Err (SharedCache ι) :=
  (stmtCacheCreate ℕ capacity).map fun c =>
    ⟨stmtCacheSetDestroyFn c fn, fun _ => .idle, 0, []⟩

/-- The next step of a client: a get, or after a miss a put of its own statement, or the end of its
use. -/
def turnStep (s : SharedCache ι) (t : Turn ι) : Option (SharedCache ι) :=
  match s.client t.who with
  | .idle => do
    let (stmt, cache) ← stmtCacheGet s.cache (some t.sql)
    let client := match stmt with
      | some stmt => .uses stmt
      | none => .missed t.sql
    some { s with cache, client := Function.update s.client t.who client }
  | .missed sql => do
    let (_, destroyed, cache) ← stmtCachePut t.callocOk t.strdupOk s.cache (some sql)
      (some s.prepared)
    some
      { cache
        client := Function.update s.client t.who (.uses s.prepared)
        prepared := s.prepared + 1
        destroyed := s.destroyed ++ destroyed }
  | .uses _ => some { s with client := Function.update s.client t.who .idle }

/-- No client uses a statement that was destroyed. -/
def Unused (s : SharedCache ι) : Prop := ∀ i stmt, s.client i = .uses stmt → stmt ∉ s.destroyed

/-- The entry at the tail of the cache. -/
def tailStmt (c : StmtCache ℕ) : Option ℕ :=
  c.tail.bind fun p => (c.heap p).map fun e => e.val.2

/-- The turn is no put of an absent text into a full cache whose last statement a client uses. -/
def Spares (s : SharedCache ι) (t : Turn ι) : Prop :=
  ∀ sql, s.client t.who = .missed sql → s.cache.hasDestroyFn = true →
    s.cache.locate sql = some none → s.cache.capacity ≤ s.cache.size →
      ∀ i stmt, s.client i = .uses stmt → tailStmt s.cache ≠ some stmt

/-! ## What the turns keep -/

/-- The cache holds the association list `m`, whose statements are prepared, distinct and not
destroyed; nor are those that clients use. -/
structure Shared (cap : ℕ) (fn : Bool) (s : SharedCache ι) (m : List (Text × ℕ)) : Prop where
  refines : Refines cap fn s.cache m
  nodup : (m.map Prod.snd).Nodup
  cached : ∀ stmt ∈ m.map Prod.snd, stmt < s.prepared ∧ stmt ∉ s.destroyed
  gone : ∀ stmt ∈ s.destroyed, stmt < s.prepared
  used : ∀ i stmt, s.client i = .uses stmt → stmt < s.prepared
  unused : Unused s

variable {cap : ℕ} {fn : Bool} {s : SharedCache ι} {m : List (Text × ℕ)} {t : Turn ι} {c : StmtCache ℕ}

theorem Refines.locate_iff (h : Refines cap fn c m) (sql : Text) :
    c.locate sql = some none ↔ Lru.find m sql = none := by
  obtain ⟨⟨l, hr, rfl⟩, -⟩ := h
  cases hf : Lru.find (entries l) sql with
  | none => exact ⟨fun _ => rfl, fun _ => hr.locate_none hf⟩
  | some stmt =>
    obtain ⟨a, p, b, -, hloc⟩ := hr.locate_some hf
    rw [hloc]
    constructor <;> intro h <;> cases h

theorem Refines.tailStmt (h : Refines cap fn c m) : tailStmt c = m.getLast?.map Prod.snd := by
  obtain ⟨⟨l, hr, rfl⟩, -⟩ := h
  unfold Corm.tailStmt
  rw [hr.tail]
  rcases List.eq_nil_or_concat l with rfl | ⟨a, x, rfl⟩
  · rfl
  · rw [List.concat_eq_append] at hr ⊢
    rw [last_concat, Option.bind_some, hr.chain.cell, entries_append]
    simp

theorem Refines.size_eq (h : Refines cap fn c m) : c.size = m.length ∧ c.capacity = cap ∧
    c.hasDestroyFn = fn := by
  obtain ⟨⟨l, hr, rfl⟩, hcap, hfn, -⟩ := h
  exact ⟨by rw [hr.size, List.length_map], hcap, hfn⟩

omit [DecidableEq ι] in
theorem shared_start (h : SharedCache.start ι cap fn = .ok s) : Shared cap fn s [] := by
  unfold SharedCache.start at h
  cases hc : stmtCacheCreate ℕ cap with
  | error e =>
    rw [hc] at h
    cases h
  | ok c =>
    rw [hc] at h
    cases h
    exact ⟨refines_create fn hc, List.nodup_nil, by simp, by simp, by simp, by simp [Unused]⟩

/-! ## One turn -/

theorem mem_destroyed_lruPut {ok : Bool} {sql : Text} {stmt d : ℕ} :
    d ∈ destroyed fn (lruPut cap ok m sql stmt).2.1 ↔
      fn = true ∧ Lru.find m sql = none ∧ cap ≤ m.length ∧ m.getLast?.map Prod.snd = some d := by
  have hevict : (lruPut cap ok m sql stmt).2.1 =
      if Lru.find m sql = none then (Lru.evict cap m).1 else [] := by
    unfold lruPut
    cases hf : Lru.find m sql with
    | some v =>
      rw [Lru.get_some hf]
      rfl
    | none =>
      rw [Lru.get_none hf]
      cases ok <;> rfl
  rw [hevict]
  unfold destroyed Lru.evict
  cases fn with
  | false => simp
  | true =>
    by_cases hf : Lru.find m sql = none
    · by_cases hfull : cap ≤ m.length
      · simp [hf, hfull]
      · simp [hf, hfull]
    · simp [hf]

omit [DecidableEq ι] in
/-- A put spares the statements in use exactly when it destroys none of them. -/
theorem spares_iff (h : Shared cap fn s m) {sql : Text} (ht : s.client t.who = .missed sql)
    (ok : Bool) : Spares s t ↔ ∀ i stmt, s.client i = .uses stmt →
      stmt ∉ destroyed fn (lruPut cap ok m sql s.prepared).2.1 := by
  obtain ⟨hsize, hcap, hfn⟩ := h.refines.size_eq
  have htail := h.refines.tailStmt
  unfold Spares
  simp only [mem_destroyed_lruPut, hfn, hcap, hsize, htail, ht, Client.missed.injEq]
  constructor
  · rintro hs i stmt hi ⟨rfl, hf, hfull, hlast⟩
    exact hs sql rfl rfl ((h.refines.locate_iff sql).mpr hf) hfull i stmt hi hlast
  · rintro hs sql' rfl rfl hf hfull i stmt hi hlast
    exact hs i stmt hi ⟨rfl, (h.refines.locate_iff sql).mp hf, hfull, hlast⟩

theorem Shared.turn (h : Shared cap fn s m) (i : ι) {c : Client}
    (hc : ∀ stmt, c = .uses stmt → stmt < s.prepared ∧ stmt ∉ s.destroyed) :
    Shared cap fn { s with client := Function.update s.client i c } m := by
  have hother {j : ι} {stmt : ℕ} (hj : Function.update s.client i c j = .uses stmt) :
      c = .uses stmt ∨ s.client j = .uses stmt := by
    by_cases hw : j = i
    · rw [hw, Function.update_self] at hj
      exact Or.inl hj
    · rw [Function.update_of_ne hw] at hj
      exact Or.inr hj
  refine ⟨h.refines, h.nodup, h.cached, h.gone, fun j stmt hj => ?_, fun j stmt hj => ?_⟩
  · rcases hother hj with hj | hj
    · exact (hc stmt hj).1
    · exact h.used j stmt hj
  · rcases hother hj with hj | hj
    · exact (hc stmt hj).2
    · exact h.unused j stmt hj

omit [DecidableEq ι] in
theorem Shared.put (h : Shared cap fn s m) {ok : Bool} {sql : Text}
    (hr : Refines cap fn c (lruPut cap ok m sql s.prepared).2.2)
    (hspare : ∀ i stmt, s.client i = .uses stmt →
      stmt ∉ destroyed fn (lruPut cap ok m sql s.prepared).2.1) :
    Shared cap fn
      { s with
        cache := c
        prepared := s.prepared + 1
        destroyed := s.destroyed ++ destroyed fn (lruPut cap ok m sql s.prepared).2.1 }
      (lruPut cap ok m sql s.prepared).2.2 ∧
    s.prepared ∉ s.destroyed ++ destroyed fn (lruPut cap ok m sql s.prepared).2.1 := by
  have hlt {stmt : ℕ} (hs : stmt ∈ m.map Prod.snd) : stmt < s.prepared := (h.cached stmt hs).1
  obtain ⟨hnodup, hmem, hdrop⟩ := lruPut_distinct cap h.refines.2.2.2.2.nodup h.nodup ok sql
    fun hs => Nat.lt_irrefl _ (hlt hs)
  have hgone {stmt : ℕ} (hd : stmt ∈ destroyed fn (lruPut cap ok m sql s.prepared).2.1) :
      stmt < s.prepared ∧ stmt ∉ (lruPut cap ok m sql s.prepared).2.2.map Prod.snd :=
    ⟨hlt (hdrop stmt (subset_destroyed hd)).1, (hdrop stmt (subset_destroyed hd)).2⟩
  have hnew : s.prepared ∉ s.destroyed ++ destroyed fn (lruPut cap ok m sql s.prepared).2.1 := by
    intro hd
    rcases List.mem_append.mp hd with hd | hd
    · exact Nat.lt_irrefl _ (h.gone _ hd)
    · exact Nat.lt_irrefl _ (hgone hd).1
  refine ⟨⟨hr, hnodup, fun stmt hs => ?_, fun stmt hd => ?_, fun i stmt hi => ?_,
    fun i stmt hi hd => ?_⟩, hnew⟩
  · obtain ⟨e, he, rfl⟩ := List.mem_map.mp hs
    rcases hmem e he with rfl | hm
    · exact ⟨Nat.lt_succ_self _, hnew⟩
    · obtain ⟨hlt', hnot⟩ := h.cached e.2 (List.mem_map_of_mem hm)
      refine ⟨Nat.lt_succ_of_lt hlt', fun hd => ?_⟩
      rcases List.mem_append.mp hd with hd | hd
      · exact hnot hd
      · exact (hgone hd).2 hs
  · rcases List.mem_append.mp hd with hd | hd
    · exact Nat.lt_succ_of_lt (h.gone stmt hd)
    · exact Nat.lt_succ_of_lt (hgone hd).1
  · exact Nat.lt_succ_of_lt (h.used i stmt hi)
  · rcases List.mem_append.mp hd with hd | hd
    · exact h.unused i stmt hi hd
    · exact hspare i stmt hi hd

/-- **One turn**: it keeps the statements in use, or it is a put that does not spare them. -/
theorem turnStep_cases (h : Shared cap fn s m) (t : Turn ι) :
    ∃ s', turnStep s t = some s' ∧
      (Spares s t ∧ (∃ m', Shared cap fn s' m') ∨ ¬ Spares s t ∧ ¬ Unused s') := by
  unfold turnStep
  cases ht : s.client t.who with
  | idle =>
    obtain ⟨c', e, hr⟩ := h.refines.get t.sql
    have hmap := (Lru.perm_get (k := t.sql) h.refines.2.2.2.2.nodup).map Prod.snd
    have hspare : Spares s t := fun sql hm => by simp [ht] at hm
    have hget : Shared cap fn { s with cache := c' } (Lru.get m t.sql).2 :=
      ⟨hr, hmap.nodup_iff.mpr h.nodup, fun stmt hs => h.cached stmt (hmap.mem_iff.mp hs),
        h.gone, h.used, h.unused⟩
    simp only [e, Option.bind_eq_bind, Option.bind_some]
    refine ⟨_, rfl, Or.inl ⟨hspare, _, hget.turn t.who fun stmt hc => ?_⟩⟩
    rw [Lru.get_fst] at hc
    cases hf : Lru.find m t.sql with
    | none =>
      rw [hf] at hc
      cases hc
    | some stmt' =>
      rw [hf] at hc
      cases hc
      exact h.cached stmt (List.mem_map_of_mem (Lru.mem_of_find hf))
  | uses stmt =>
    have hspare : Spares s t := fun sql hm => by simp [ht] at hm
    exact ⟨_, rfl, Or.inl ⟨hspare, m, h.turn t.who fun stmt hc => by cases hc⟩⟩
  | missed sql =>
    obtain ⟨c', e, hr⟩ := h.refines.put t.callocOk t.strdupOk sql s.prepared
    have hiff := spares_iff h ht (t.callocOk && t.strdupOk)
    simp only [e, Option.bind_eq_bind, Option.bind_some]
    refine ⟨_, rfl, ?_⟩
    by_cases hs : Spares s t
    · obtain ⟨hput, hnew⟩ := h.put hr (hiff.mp hs)
      refine Or.inl ⟨hs, _, hput.turn t.who fun stmt hc => ?_⟩
      cases hc
      exact ⟨Nat.lt_succ_self _, hnew⟩
    · refine Or.inr ⟨hs, fun hu => hs (hiff.mpr fun i stmt hi hd => ?_)⟩
      have hw : i ≠ t.who := by
        rintro rfl
        rw [ht] at hi
        cases hi
      exact hu i stmt ((Function.update_of_ne hw _ _).trans hi) (List.mem_append_right _ hd)

/-- **No statement in use is destroyed**, in a run of the clients of a new cache, exactly when each
put of the run spares the statements in use. -/
theorem unused_destroyed_iff {s₀ : SharedCache ι} (h₀ : SharedCache.start ι cap fn = .ok s₀)
    (turns : List (Turn ι)) :
    Run.Throughout turnStep Unused s₀ turns ↔ Run.EachStep turnStep Spares s₀ turns := by
  have hinv : ∀ s : SharedCache ι, (∃ m, Shared cap fn s m) → Unused s := by
    rintro s ⟨m, h⟩
    exact h.unused
  refine Run.throughout_iff hinv ?_ ?_ ⟨[], shared_start h₀⟩ turns
  · rintro s t ⟨m, h⟩ hs
    obtain ⟨s', e, ⟨-, h'⟩ | ⟨hnot, -⟩⟩ := turnStep_cases h t
    · exact ⟨s', e, h'⟩
    · exact absurd hs hnot
  · rintro s t ⟨m, h⟩ hs
    obtain ⟨s', e, ⟨hspare, -⟩ | ⟨-, h'⟩⟩ := turnStep_cases h t
    · exact absurd hspare hs
    · exact ⟨s', e, h'⟩

/-- Two clients on a cache of one statement: while the first uses its own, the second puts another
one. -/
def crossingTurns : List (Turn Bool) :=
  [⟨false, ['a'], true, true⟩, ⟨false, ['a'], true, true⟩, ⟨true, ['b'], true, true⟩,
    ⟨true, ['b'], true, true⟩]

/-- The statement of the first client is destroyed. -/
theorem used_destroyed_crossingTurns :
    ∃ s₀, SharedCache.start Bool 1 true = .ok s₀ ∧
      ¬ Run.Throughout turnStep Unused s₀ crossingTurns := by
  refine ⟨_, rfl, ?_⟩
  rintro ⟨-, s₁, e₁, -, s₂, e₂, -, s₃, e₃, -, s₄, e₄, hs⟩
  cases e₁
  cases e₂
  cases e₃
  cases e₄
  exact hs false 0 rfl (by decide)

theorem unused_destroyed_iff_crossingTurns :
    ∃ s₀, SharedCache.start Bool 1 true = .ok s₀ ∧
      (Run.Throughout turnStep Unused s₀ crossingTurns ↔
        Run.EachStep turnStep Spares s₀ crossingTurns) :=
  ⟨_, rfl, @unused_destroyed_iff Bool _ 1 true _ rfl crossingTurns⟩

end Corm
