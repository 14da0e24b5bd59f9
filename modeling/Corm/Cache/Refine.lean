import Corm.Cache.Model
import Corm.Lib.Lru

/-!
# The statement cache is a least-recently-used map

* `Repr c l`: the entries of the cache are the cells `l`, from `head` to `tail`;
* `Refines cap fn c m`: the cache holds the association list `m`, most recently used first;
* `Refines.get`, `Refines.put`, `Refines.remove`, `Refines.destroy`: each operation is defined and
  does what the list does;
* **`stmtCache_refines_lru`**: so does every sequence of calls, and the list stays well formed.
-/

namespace Corm

open Dll

variable {S : Type}

/-- The `(sql, stmt)` of the cells `l`. -/
abbrev entries (l : List (Ptr × (Text × S))) : List (Text × S) := l.map Prod.snd

/-- The cells `l` are the entries of `c`, in order from `head` to `tail`. -/
structure Repr (c : StmtCache S) (l : List (Ptr × (Text × S))) : Prop where
  chain : Chain c.heap none l none
  head : c.head = first l none
  tail : c.tail = last none l
  size : c.size = l.length
  nodup : (ptrs l).Nodup
  fresh : ∀ p ∈ ptrs l, p < c.fresh

variable {c : StmtCache S} {l a b : List (Ptr × (Text × S))} {x : Ptr × (Text × S)}

theorem entries_append : entries (a ++ b) = entries a ++ entries b := List.map_append

theorem entries_middle : entries (a ++ x :: b) = entries a ++ x.2 :: entries b := by
  rw [entries_append]
  rfl

/-! ## The blocks of the operations -/

theorem Repr.locate (h : Repr c l) (sql : Text) :
    c.locate sql = some ((l.find? fun x => x.2.1 = sql).map Prod.fst) := by
  rw [StmtCache.locate, h.head, h.size]
  exact h.chain.search_eq _ (Nat.lt_succ_self _)

theorem Repr.locate_none (h : Repr c l) {sql : Text} (hf : Lru.find (entries l) sql = none) :
    c.locate sql = some none := by
  simp only [Lru.find, List.find?_map, Option.map_map, Option.map_eq_none_iff] at hf
  rw [h.locate]
  simpa [Function.comp_def] using hf

theorem Repr.locate_some (h : Repr c l) {sql : Text} {stmt : S}
    (hf : Lru.find (entries l) sql = some stmt) :
    ∃ a p b, l = a ++ (p, (sql, stmt)) :: b ∧ c.locate sql = some (some p) := by
  simp only [Lru.find, List.find?_map, Option.map_map, Option.map_eq_some_iff] at hf
  obtain ⟨⟨p, sql', stmt'⟩, hx, rfl⟩ := hf
  obtain ⟨hk, a, b, hl, -⟩ := List.find?_eq_some_iff_append.mp hx
  obtain rfl : sql' = sql := by simpa using hk
  refine ⟨a, p, b, hl, ?_⟩
  have hx' : (l.find? fun x => x.2.1 = sql') = some (p, sql', stmt') := hx
  rw [h.locate, hx']
  rfl

theorem notMem_of_nodup (hn : (ptrs (a ++ x :: b)).Nodup) :
    x.1 ∉ ptrs a ∧ x.1 ∉ ptrs b ∧ x.1 ∉ ptrs (a ++ b) ∧ (ptrs (x :: (a ++ b))).Nodup := by
  have hp : (ptrs (x :: (a ++ b))).Nodup := ((List.perm_middle.map Prod.fst).nodup_iff).mp hn
  have hx : x.1 ∉ ptrs (a ++ b) := (List.nodup_cons.mp hp).1
  simp only [ptrs, List.map_append, List.mem_append, not_or] at hx ⊢
  exact ⟨hx.1, hx.2, hx, by simpa [ptrs] using hp⟩

theorem Chain.relink {h : Heap (Text × S)} {p : Ptr} {e : Cell (Text × S)}
    (hc : Chain h none l none) (hp : h p = some e) (hpl : p ∉ ptrs l) (n : Option Ptr) :
    ∃ h', (do let h ← setNext h (some p) n; setPrev h (some p) none) = some h' ∧
      h' p = some ⟨e.val, none, n⟩ ∧ Chain h' none l none := by
  refine ⟨Function.update (Function.update h p (some ⟨e.val, e.prev, n⟩)) p
    (some ⟨e.val, none, n⟩), ?_, Function.update_self _ _ _, ?_⟩
  · rw [show setNext h (some p) n = _ from modify_of_eq _ hp]
    exact modify_of_eq _ (Function.update_self _ _ _)
  · refine hc.frame fun q hq => ?_
    have hne : q ≠ p := ne_of_mem_of_not_mem hq hpl
    rw [Function.update_of_ne hne, Function.update_of_ne hne]

theorem Repr.moveToHead (h : Repr c (a ++ x :: b)) (ha : a ≠ []) :
    ∃ c', c.moveToHead x.1 = some c' ∧ Repr c' (x :: (a ++ b)) ∧ c'.capacity = c.capacity ∧
      c'.hasDestroyFn = c.hasDestroyFn := by
  obtain ⟨hxa, hxb, hxab, hn⟩ := notMem_of_nodup h.nodup
  obtain ⟨h₁, h₂, e1, k1, e2, k2, hc, -⟩ := h.chain.unlink h.nodup
  have hx := h.chain.cell
  obtain ⟨h₃, e3, k3, hc3⟩ := Chain.relink hc (k2.trans hx) hxab (first (a ++ b) none)
  obtain ⟨h₄, e4, hc4, -⟩ := hc3.push hn k3
  have hhead : c.head = first (a ++ b) none := by
    rw [h.head, first_append, first_append]
    exact first_eq_of_ne ha _ _
  refine ⟨{ c with heap := h₄, head := some x.1, tail := last none (x :: (a ++ b)) }, ?_, ?_, rfl,
    rfl⟩
  · have htail : (if some x.1 = c.tail then last none a else c.tail) =
        last none (x :: (a ++ b)) := by
      rw [h.tail, last_unlink hxb, last_cons]
      exact last_eq_of_ne (by simp [ha]) _ _
    obtain ⟨h₅, e5, e6⟩ := Option.bind_eq_some_iff.mp e3
    simp only [StmtCache.moveToHead, Option.bind_eq_bind, hx, Option.bind_some, e1, k1, e2, k2,
      htail, hhead, e5, e6, e4]
  · refine ⟨hc4, rfl, rfl, ?_, hn, fun p hp => h.fresh p ?_⟩
    · simp only [h.size, List.length_append, List.length_cons]
      omega
    · exact (List.perm_middle.map Prod.fst).mem_iff.mpr hp

theorem Repr.unlinkEntry (h : Repr c (a ++ x :: b)) :
    ∃ c', c.unlinkEntry x.1 = some (some x.2.2, c') ∧ Repr c' (a ++ b) ∧
      c'.capacity = c.capacity ∧ c'.hasDestroyFn = c.hasDestroyFn := by
  obtain ⟨hxa, hxb, hxab, hn⟩ := notMem_of_nodup h.nodup
  obtain ⟨h₁, h₂, e1, k1, e2, k2, hc, -⟩ := h.chain.unlink h.nodup
  have hx := h.chain.cell
  have hhead : (if some x.1 = c.head then first b none else c.head) = first (a ++ b) none := by
    rw [h.head, first_unlink hxa]
  have htail : (if some x.1 = c.tail then last none a else c.tail) = last none (a ++ b) := by
    rw [h.tail, last_unlink hxb]
  refine ⟨{ c with
      heap := StmtCache.freeCell h₂ x.1, head := first (a ++ b) none, tail := last none (a ++ b),
      size := c.size - 1 }, ?_, ?_, rfl, rfl⟩
  · simp only [StmtCache.unlinkEntry, Option.bind_eq_bind, hx, Option.bind_some, e1, k1, e2, k2,
      hhead, htail]
  · refine ⟨hc.frame fun q hq => Function.update_of_ne (ne_of_mem_of_not_mem hq hxab) _ _, rfl, rfl,
      ?_, (List.nodup_cons.mp hn).2, fun p hp => h.fresh p ?_⟩
    · simp only [h.size, List.length_append, List.length_cons]
      omega
    · exact (List.perm_middle.map Prod.fst).mem_iff.mpr (List.mem_cons_of_mem _ hp)

theorem Repr.insertHead (h : Repr c l) (sql : Text) (stmt : S) :
    ∃ c', c.insertHead sql stmt = some c' ∧ Repr c' ((c.fresh, (sql, stmt)) :: l) ∧
      c'.capacity = c.capacity ∧ c'.hasDestroyFn = c.hasDestroyFn := by
  have hp : c.fresh ∉ ptrs l := fun hm => Nat.lt_irrefl _ (h.fresh _ hm)
  have hn : (ptrs ((c.fresh, (sql, stmt)) :: l)).Nodup := List.nodup_cons.mpr ⟨hp, h.nodup⟩
  let h₁ := Function.update (Function.update c.heap c.fresh (some ⟨(sql, stmt), none, none⟩))
    c.fresh (some ⟨(sql, stmt), none, first l none⟩)
  have e1 : setNext (Function.update c.heap c.fresh (some ⟨(sql, stmt), none, none⟩))
      (some c.fresh) (first l none) = some h₁ := modify_of_eq _ (Function.update_self _ _ _)
  have hc : Chain h₁ none l none := by
    refine h.chain.frame fun q hq => ?_
    have hne : q ≠ c.fresh := ne_of_mem_of_not_mem hq hp
    exact (Function.update_of_ne hne _ _).trans (Function.update_of_ne hne _ _)
  obtain ⟨h₂, e2, hc2, -⟩ := hc.push hn (Function.update_self _ _ _)
  have htail : (if c.tail = none then some c.fresh else c.tail) = last (some c.fresh) l := by
    rw [h.tail]
    by_cases hl : l = []
    · simp [hl]
    · rw [if_neg (by rwa [last_none_iff]), last_eq_of_ne hl]
  refine ⟨{ c with
      heap := h₂, head := some c.fresh, tail := last (some c.fresh) l, size := c.size + 1,
      fresh := c.fresh + 1 }, ?_, ⟨hc2, rfl, rfl, ?_, hn, fun p hm => ?_⟩, rfl, rfl⟩
  · simp only [StmtCache.insertHead, Option.bind_eq_bind, h.head, e1, Option.bind_some, e2, htail]
  · simp only [h.size, List.length_cons]
  · rcases List.mem_cons.mp hm with rfl | hm
    · exact Nat.lt_succ_self _
    · exact Nat.lt_succ_of_lt (h.fresh p hm)

theorem Repr.evictTail (h : Repr c (a ++ [x])) (hfull : c.capacity ≤ c.size) :
    ∃ c', c.evictTail = some (c.callDestroyFn x.2.2, c') ∧ Repr c' a ∧
      c'.capacity = c.capacity ∧ c'.hasDestroyFn = c.hasDestroyFn := by
  obtain ⟨hxa, hxb, hxab, hn⟩ := notMem_of_nodup h.nodup
  obtain ⟨h₁, h₂, e1, k1, e2, -, hc, -⟩ := h.chain.unlink h.nodup
  -- the tail has no successor, so the second write of the unlink does nothing
  obtain rfl : h₁ = h₂ := Option.some.inj e2
  rw [List.append_nil] at hc hxab hn
  have hx := h.chain.cell
  have htail : c.tail = some x.1 := by rw [h.tail, last_concat]
  have hhead : (if c.head = some x.1 then none else c.head) = first a none := by
    have hf := @first_unlink _ a [] none _ hxa
    rw [List.append_nil] at hf
    rw [h.head, ← hf]
    simp only [eq_comm, first_nil]
  refine ⟨{ c with
      heap := StmtCache.freeCell h₁ x.1, head := first a none, tail := last none a,
      size := c.size - 1 }, ?_, ?_, rfl, rfl⟩
  · rw [first_nil] at e1
    simp only [StmtCache.evictTail, htail, hfull, if_true, Option.bind_eq_bind, hx,
      Option.bind_some, e1, k1, hhead]
  · refine ⟨hc.frame fun q hq => Function.update_of_ne (ne_of_mem_of_not_mem hq hxab) _ _, rfl, rfl,
      ?_, (List.nodup_cons.mp hn).2, fun p hp => h.fresh p ?_⟩
    · simp only [h.size, List.length_append, List.length_singleton]
      omega
    · simp only [ptrs, List.map_append, List.mem_append]
      exact Or.inl hp

theorem Repr.destroyLoop {h : Heap (Text × S)} {prev : Option Ptr} (hc : Chain h prev l none)
    (hn : (ptrs l).Nodup) {n : ℕ} (hl : l.length < n) :
    c.destroyLoop n h (first l none) = some (l.flatMap fun x => c.callDestroyFn x.2.2) := by
  induction l generalizing h prev n with
  | nil =>
    obtain ⟨n, rfl⟩ : ∃ m, n = m + 1 := ⟨n - 1, by omega⟩
    rfl
  | cons x l ih =>
    obtain ⟨n, rfl⟩ : ∃ m, n = m + 1 := ⟨n - 1, by omega⟩
    obtain ⟨hx, hn⟩ := List.nodup_cons.mp hn
    have hc2 : Chain (StmtCache.freeCell h x.1) (some x.1) l none :=
      hc.2.frame fun q hq => Function.update_of_ne (ne_of_mem_of_not_mem hq hx) _ _
    have hlt : l.length < n := by
      rw [List.length_cons] at hl
      omega
    have hr := ih hc2 hn hlt
    simp only [first_cons, StmtCache.destroyLoop, hc.1, Option.bind_eq_bind, Option.bind_some, hr,
      List.flatMap_cons]

/-! ## The operations -/

/-- The cache `c` holds the association list `m`, most recently used first. -/
def Refines (cap : ℕ) (fn : Bool) (c : StmtCache S) (m : List (Text × S)) : Prop :=
  (∃ l, Repr c l ∧ entries l = m) ∧ c.capacity = cap ∧ c.hasDestroyFn = fn ∧ 0 < cap ∧ Lru.Ok cap m

/-- The statements handed to the destroy function when the entries `m` go. -/
def destroyed (fn : Bool) (m : List (Text × S)) : List S := if fn then m.map Prod.snd else []

/-- What `corm_stmt_cache_put` does to the association list; `allocOk` tells whether both
allocations succeed. -/
def lruPut (cap : ℕ) (allocOk : Bool) (m : List (Text × S)) (sql : Text) (stmt : S) :
    Err × List (Text × S) × List (Text × S) :=
  match Lru.get m sql with
  | (some _, m') => (.ok, [], m')
  | (none, _) =>
    if allocOk then (.ok, (Lru.evict cap m).1, (sql, stmt) :: (Lru.evict cap m).2)
    else (.nomem, Lru.evict cap m)

/-- With the allocations succeeding this is the `put` of least-recently-used maps. -/
theorem lruPut_true (cap : ℕ) (m : List (Text × S)) (sql : Text) (stmt : S) :
    lruPut cap true m sql stmt = (.ok, Lru.put cap m sql stmt) := by
  unfold lruPut Lru.put
  rcases Lru.get m sql with ⟨_ | v, m'⟩ <;> rfl

variable {cap : ℕ} {fn : Bool} {m : List (Text × S)}

theorem refines_create (fn : Bool) {c : StmtCache S} (h : stmtCacheCreate S cap = .ok c) :
    Refines cap fn (stmtCacheSetDestroyFn c fn) [] := by
  unfold stmtCacheCreate at h
  split at h
  · cases h
  · rename_i hcap
    cases h
    refine ⟨⟨[], ⟨trivial, rfl, rfl, rfl, List.nodup_nil, ?_⟩, rfl⟩, rfl, rfl, ?_, Lru.Ok.nil⟩
    · intro p hp
      cases hp
    · exact Nat.pos_of_ne_zero hcap

theorem Refines.getUnlocked (h : Refines cap fn c m) (sql : Text) :
    ∃ c', c.getUnlocked sql = some ((Lru.get m sql).1, c') ∧
      Refines cap fn c' (Lru.get m sql).2 := by
  obtain ⟨⟨l, hr, rfl⟩, hcap, hfn, hpos, hok⟩ := h
  have hok' := hok.get sql
  cases hf : Lru.find (entries l) sql with
  | none =>
    rw [Lru.get_none hf] at hok' ⊢
    refine ⟨c, ?_, ⟨l, hr, rfl⟩, hcap, hfn, hpos, hok'⟩
    simp only [StmtCache.getUnlocked, hr.locate_none hf, Option.bind_eq_bind, Option.bind_some]
  | some stmt =>
    obtain ⟨a, p, b, rfl, hloc⟩ := hr.locate_some hf
    have herase : Lru.erase (entries (a ++ (p, (sql, stmt)) :: b)) sql = entries (a ++ b) := by
      have hn := hok.nodup
      rw [entries_middle] at hn ⊢
      rw [entries_append]
      exact Lru.erase_middle hn
    rw [Lru.get_some hf, herase] at hok' ⊢
    simp only [StmtCache.getUnlocked, hloc, Option.bind_eq_bind, Option.bind_some]
    by_cases ha : a = []
    · subst ha
      have hhead : some p = c.head := hr.head.symm
      refine ⟨c, ?_, ⟨_, hr, rfl⟩, hcap, hfn, hpos, hok'⟩
      have hcell : c.heap p = some ⟨(sql, stmt), none, first b none⟩ := hr.chain.cell
      rw [if_pos hhead, hcell, Option.bind_some]
    · obtain ⟨c', e, hr', hc', hf'⟩ := hr.moveToHead ha
      have hhead : some p ≠ c.head := by
        obtain ⟨q, hq, he⟩ := @first_mem _ a (some p) ha
        rw [hr.head, first_append, first_cons, he]
        intro heq
        exact (notMem_of_nodup hr.nodup).1 (Option.some.inj heq ▸ hq)
      refine ⟨c', ?_, ⟨_, hr', rfl⟩, hc'.trans hcap, hf'.trans hfn, hpos, hok'⟩
      have hcell := @Chain.cell _ c'.heap [] (a ++ b) _ hr'.chain
      rw [if_neg hhead, e, Option.bind_some, hcell, Option.bind_some]

theorem Refines.get (h : Refines cap fn c m) (sql : Text) :
    ∃ c', stmtCacheGet c (some sql) = some ((Lru.get m sql).1, c') ∧
      Refines cap fn c' (Lru.get m sql).2 := h.getUnlocked sql

theorem Refines.evictTail (h : Refines cap fn c m) :
    ∃ c', c.evictTail = some (destroyed fn (Lru.evict cap m).1, c') ∧
      Refines cap fn c' (Lru.evict cap m).2 := by
  obtain ⟨⟨l, hr, rfl⟩, hcap, hfn, hpos, hok⟩ := h
  have hsub : (Lru.evict cap (entries l)).2.Sublist (entries l) := Lru.evict_sublist
  have hok' := hok.sublist hsub
  unfold Lru.evict at hok' ⊢
  have hlen : (entries l).length = c.size := by rw [hr.size, List.length_map]
  by_cases hfull : cap ≤ (entries l).length
  · rw [if_pos hfull] at hok' ⊢
    rcases List.eq_nil_or_concat l with rfl | ⟨a, x, rfl⟩
    · exact absurd hfull (Nat.not_le.mpr hpos)
    · rw [List.concat_eq_append] at hr hok' hlen hfull ⊢
      obtain ⟨c', e, hr', hc', hf'⟩ := hr.evictTail (by rw [hcap, ← hlen]; exact hfull)
      refine ⟨c', ?_, ⟨a, hr', ?_⟩, hc'.trans hcap, hf'.trans hfn, hpos, hok'⟩
      · rw [e, StmtCache.callDestroyFn, hfn]
        simp [destroyed, entries]
      · simp [entries]
  · rw [if_neg hfull] at hok' ⊢
    refine ⟨c, ?_, ⟨l, hr, rfl⟩, hcap, hfn, hpos, hok'⟩
    have hnot : ¬ c.capacity ≤ c.size := by rwa [hcap, ← hlen]
    have hnil : destroyed fn ([] : List (Text × S)) = [] := by
      unfold destroyed
      split <;> rfl
    unfold StmtCache.evictTail
    rw [hnil]
    split
    · rfl
    · rw [if_neg hnot]

theorem Refines.put (h : Refines cap fn c m) (callocOk strdupOk : Bool) (sql : Text) (stmt : S) :
    ∃ c', stmtCachePut callocOk strdupOk c (some sql) (some stmt) =
        some ((lruPut cap (callocOk && strdupOk) m sql stmt).1,
          destroyed fn (lruPut cap (callocOk && strdupOk) m sql stmt).2.1, c') ∧
      Refines cap fn c' (lruPut cap (callocOk && strdupOk) m sql stmt).2.2 := by
  obtain ⟨c₁, e1, h1⟩ := h.getUnlocked sql
  simp only [stmtCachePut, Option.bind_eq_bind, e1, Option.bind_some]
  cases hf : Lru.find m sql with
  | some stmt' =>
    rw [Lru.get_some hf] at h1
    simp only [lruPut, Lru.get_some hf, Option.isSome_some, if_true]
    refine ⟨c₁, ?_, h1⟩
    unfold destroyed
    split <;> rfl
  | none =>
    rw [Lru.get_none hf] at h1
    obtain ⟨c₂, e2, h2⟩ := h1.evictTail
    simp only [lruPut, Lru.get_none hf, Option.isSome_none, Bool.false_eq_true, if_false, e2,
      Option.bind_some]
    cases hb : callocOk && strdupOk with
    | false => exact ⟨c₂, rfl, h2⟩
    | true =>
      obtain ⟨⟨l, hr, hl⟩, hcap, hfn, hpos, hok⟩ := h2
      obtain ⟨c₃, e3, hr3, hc3, hf3⟩ := hr.insertHead sql stmt
      simp only [if_true, e3, Option.bind_some]
      refine ⟨c₃, rfl, ⟨_, hr3, by rw [entries, List.map_cons, ← hl]⟩, hc3.trans hcap,
        hf3.trans hfn, hpos, ?_⟩
      have hp := (h.2.2.2.2).put hpos sql stmt
      rwa [Lru.put_miss hf] at hp

/-- What a put does to the list: it drops some entries, and may add its own in front. -/
theorem lruPut_entries (cap : ℕ) (hn : (m.map Prod.fst).Nodup) (ok : Bool) (sql : Text) (stmt : S) :
    ∃ kept, (kept ++ (lruPut cap ok m sql stmt).2.1).Perm m ∧
      ((lruPut cap ok m sql stmt).2.2 = kept ∨
        (lruPut cap ok m sql stmt).2.2 = (sql, stmt) :: kept) := by
  unfold lruPut
  cases hf : Lru.find m sql with
  | some v =>
    have hp := Lru.perm_get (k := sql) hn
    rw [Lru.get_some hf] at hp ⊢
    exact ⟨_, by rwa [List.append_nil], Or.inl rfl⟩
  | none =>
    have hp : ((Lru.evict cap m).2 ++ (Lru.evict cap m).1).Perm m := .of_eq Lru.evict_append
    rw [Lru.get_none hf]
    cases ok with
    | true => exact ⟨_, hp, Or.inr rfl⟩
    | false => exact ⟨_, hp, Or.inl rfl⟩

/-- Where each statement of the list has one entry, a put keeps it so, and drops no statement that it
keeps. -/
theorem lruPut_distinct (cap : ℕ) (hn : (m.map Prod.fst).Nodup) (hv : (m.map Prod.snd).Nodup)
    (ok : Bool) (sql : Text) {stmt : S} (hstmt : stmt ∉ m.map Prod.snd) :
    ((lruPut cap ok m sql stmt).2.2.map Prod.snd).Nodup ∧
    (∀ e ∈ (lruPut cap ok m sql stmt).2.2, e = (sql, stmt) ∨ e ∈ m) ∧
    ∀ v ∈ (lruPut cap ok m sql stmt).2.1.map Prod.snd,
      v ∈ m.map Prod.snd ∧ v ∉ (lruPut cap ok m sql stmt).2.2.map Prod.snd := by
  obtain ⟨kept, hperm, hm⟩ := lruPut_entries cap hn ok sql stmt
  revert hperm hm
  generalize (lruPut cap ok m sql stmt).2.1 = dropped
  generalize (lruPut cap ok m sql stmt).2.2 = m'
  intro hperm hm
  have hmap := hperm.map Prod.snd
  rw [List.map_append] at hmap
  obtain ⟨hkept, -, hdisj⟩ := List.nodup_append.mp (hmap.nodup_iff.mpr hv)
  have hold {v : S} (h : v ∈ kept.map Prod.snd) : v ∈ m.map Prod.snd :=
    hmap.mem_iff.mp (List.mem_append_left _ h)
  have hgone {v : S} (h : v ∈ dropped.map Prod.snd) : v ∈ m.map Prod.snd :=
    hmap.mem_iff.mp (List.mem_append_right _ h)
  have hmem {e : Text × S} (h : e ∈ kept) : e ∈ m := hperm.mem_iff.mp (List.mem_append_left _ h)
  rcases hm with rfl | rfl
  · exact ⟨hkept, fun e he => Or.inr (hmem he), fun v h => ⟨hgone h, fun h' => hdisj v h' v h rfl⟩⟩
  · rw [List.map_cons]
    refine ⟨List.nodup_cons.mpr ⟨fun h => hstmt (hold h), hkept⟩, fun e he => ?_, fun v h => ?_⟩
    · exact (List.mem_cons.mp he).imp_right hmem
    · refine ⟨hgone h, fun h' => ?_⟩
      rcases List.mem_cons.mp h' with rfl | h'
      · exact hstmt (hgone h)
      · exact hdisj v h' v h rfl

theorem subset_destroyed {d : S} (h : d ∈ destroyed fn m) : d ∈ m.map Prod.snd := by
  unfold destroyed at h
  cases fn with
  | false => cases h
  | true => exact h

theorem Refines.remove (h : Refines cap fn c m) (sql : Text) :
    ∃ c', stmtCacheRemove c (some sql) = some ((Lru.remove m sql).1, c') ∧
      Refines cap fn c' (Lru.remove m sql).2 := by
  obtain ⟨⟨l, hr, rfl⟩, hcap, hfn, hpos, hok⟩ := h
  have hok' := hok.remove sql
  unfold Lru.remove at hok' ⊢
  cases hf : Lru.find (entries l) sql with
  | none =>
    rw [Lru.erase_of_notMem (Lru.find_eq_none.mp hf)] at hok' ⊢
    refine ⟨c, ?_, ⟨l, hr, rfl⟩, hcap, hfn, hpos, hok'⟩
    simp only [stmtCacheRemove, hr.locate_none hf, Option.bind_eq_bind, Option.bind_some]
  | some stmt =>
    obtain ⟨a, p, b, rfl, hloc⟩ := hr.locate_some hf
    obtain ⟨c', e, hr', hc', hf'⟩ := hr.unlinkEntry
    refine ⟨c', ?_, ⟨_, hr', ?_⟩, hc'.trans hcap, hf'.trans hfn, hpos, hok'⟩
    · simp only [stmtCacheRemove, hloc, Option.bind_eq_bind, Option.bind_some, e]
    · have hn := hok.nodup
      rw [entries_middle] at hn ⊢
      rw [entries_append]
      exact (Lru.erase_middle hn).symm

theorem Refines.destroy (h : Refines cap fn c m) :
    stmtCacheDestroy c = some (destroyed fn m) := by
  obtain ⟨⟨l, hr, rfl⟩, -, hfn, -, -⟩ := h
  rw [stmtCacheDestroy, hr.head, Repr.destroyLoop hr.chain hr.nodup (by rw [hr.size]; omega)]
  unfold destroyed
  simp only [StmtCache.callDestroyFn, hfn]
  cases fn with
  | false => simp
  | true =>
    simp only [if_true, entries, List.map_map]
    exact congrArg some List.map_eq_flatMap.symm

/-! ## Sequences of calls -/

/-- What a call does to the association list, and what it shows to its caller. -/
def lruStep (cap : ℕ) (fn : Bool) (m : List (Text × S)) :
    CacheOp S → CacheOut S × List (Text × S)
  | .get (some sql) => (.value (Lru.get m sql).1, (Lru.get m sql).2)
  | .put (some sql) (some stmt) =>
    (.status .ok (destroyed fn (Lru.put cap m sql stmt).1), (Lru.put cap m sql stmt).2)
  | .remove (some sql) => (.value (Lru.remove m sql).1, (Lru.remove m sql).2)
  | .get none | .remove none => (.value none, m)
  | .put _ _ => (.status .null [], m)

/-- What a sequence of calls does to the association list. -/
def lruRun (cap : ℕ) (fn : Bool) (m : List (Text × S)) :
    List (CacheOp S) → List (CacheOut S) × List (Text × S)
  | [] => ([], m)
  | op :: ops =>
    let (out, m) := lruStep cap fn m op
    let (outs, m) := lruRun cap fn m ops
    (out :: outs, m)

/-- The list of the entries is well formed: the walk along `next` from `head` is the walk along
`prev` from `tail` backwards, the ends have null links, `head` and `tail` are null together, the
keys are distinct, and `size` is the length. -/
structure WellFormed (c : StmtCache S) (ps : List Ptr) : Prop where
  forward : walkNext c.heap (c.size + 1) c.head = some ps
  backward : walkPrev c.heap (c.size + 1) c.tail = some ps.reverse
  head_prev : ∀ p e, c.head = some p → c.heap p = some e → e.prev = none
  tail_next : ∀ p e, c.tail = some p → c.heap p = some e → e.next = none
  ends : c.head = none ↔ c.tail = none
  keys : (ps.map fun p => (c.heap p).map fun e => e.val.1).Nodup
  size : c.size = ps.length
  size_le : c.size ≤ c.capacity

theorem Chain.heap_map {h : Heap (Text × S)} {prev : Option Ptr} (hc : Chain h prev l none) :
    ((ptrs l).map fun p => (h p).map Cell.val) = (entries l).map some := by
  induction l generalizing prev with
  | nil => rfl
  | cons x l ih =>
    simp only [ptrs, entries, List.map_cons] at ih ⊢
    rw [ih hc.2, hc.1]
    rfl

theorem Refines.wellFormed (h : Refines cap fn c m) :
    ∃ ps, WellFormed c ps ∧ (ps.map fun p => (c.heap p).map Cell.val) = m.map some := by
  obtain ⟨⟨l, hr, rfl⟩, hcap, -, -, hok⟩ := h
  have hlen : l.length < c.size + 1 := by rw [hr.size]; exact Nat.lt_succ_self _
  have hvals := Chain.heap_map hr.chain
  refine ⟨ptrs l, ⟨?_, ?_, ?_, ?_, ?_, ?_, ?_, ?_⟩, hvals⟩
  · rw [hr.head]
    exact hr.chain.walkNext_eq hlen
  · rw [hr.tail]
    exact hr.chain.walkPrev_eq hlen
  · intro p e hp he
    cases l with
    | nil => cases hr.head.symm.trans hp
    | cons x l =>
      obtain rfl : x.1 = p := Option.some.inj (hr.head.symm.trans hp)
      rw [hr.chain.1, Option.some.injEq] at he
      rw [← he]
  · intro p e hp he
    rcases List.eq_nil_or_concat l with rfl | ⟨a, x, rfl⟩
    · cases hr.tail.symm.trans hp
    · rw [List.concat_eq_append] at hr
      obtain rfl : x.1 = p := Option.some.inj ((last_concat none).symm.trans (hr.tail.symm.trans hp))
      rw [hr.chain.cell, Option.some.injEq] at he
      rw [← he]
      rfl
  · rw [hr.head, hr.tail, first_none_iff, last_none_iff]
  · have hkeys : ((ptrs l).map fun p => (c.heap p).map fun e => e.val.1) =
        ((entries l).map Prod.fst).map some := by
      have := congrArg (List.map (Option.map Prod.fst)) hvals
      simpa [Function.comp_def] using this
    rw [hkeys]
    exact hok.nodup.map fun _ _ => Option.some.inj
  · rw [hr.size, List.length_map]
  · rw [hr.size, hcap]
    simpa [entries] using hok.length_le

theorem Refines.step (h : Refines cap fn c m) (op : CacheOp S) :
    ∃ c', cacheStep c op = some ((lruStep cap fn m op).1, c') ∧
      Refines cap fn c' (lruStep cap fn m op).2 := by
  rcases op with (_ | sql) | ⟨_ | sql, _ | stmt⟩ | (_ | sql)
  case get.some =>
    obtain ⟨c', e, h'⟩ := h.get sql
    exact ⟨c', by rw [cacheStep, e]; rfl, h'⟩
  case put.some.some =>
    obtain ⟨c', e, h'⟩ := h.put true true sql stmt
    rw [Bool.and_self, lruPut_true] at e h'
    exact ⟨c', by rw [cacheStep, e]; rfl, h'⟩
  case remove.some =>
    obtain ⟨c', e, h'⟩ := h.remove sql
    exact ⟨c', by rw [cacheStep, e]; rfl, h'⟩
  all_goals exact ⟨c, rfl, h⟩

/-- A sequence of calls on the cache is the same sequence on the association list. -/
theorem Refines.run (h : Refines cap fn c m) (ops : List (CacheOp S)) :
    ∃ c', cacheRun c ops = some ((lruRun cap fn m ops).1, c') ∧
      Refines cap fn c' (lruRun cap fn m ops).2 := by
  induction ops generalizing c m with
  | nil => exact ⟨c, rfl, h⟩
  | cons op ops ih =>
    obtain ⟨c₁, e1, h1⟩ := h.step op
    obtain ⟨c₂, e2, h2⟩ := ih h1
    refine ⟨c₂, ?_, h2⟩
    simp only [cacheRun, e1, Option.bind_eq_bind, Option.bind_some, e2]
    rfl

/-- **The cache refines a least-recently-used map.** From a new cache, every sequence of calls is
defined, shows what the association list shows, and leaves a well-formed list with the entries of
the association list. -/
theorem stmtCache_refines_lru {c₀ : StmtCache S} (h₀ : stmtCacheCreate S cap = .ok c₀) (fn : Bool)
    (ops : List (CacheOp S)) :
    ∃ c ps, cacheRun (stmtCacheSetDestroyFn c₀ fn) ops = some ((lruRun cap fn [] ops).1, c) ∧
      WellFormed c ps ∧
      (ps.map fun p => (c.heap p).map Cell.val) = (lruRun cap fn [] ops).2.map some := by
  obtain ⟨c, e, h⟩ := (refines_create fn h₀).run ops
  obtain ⟨ps, hw, hv⟩ := h.wellFormed
  exact ⟨c, ps, e, hw, hv⟩

/-- With capacity 1, the second put destroys the first statement. -/
theorem stmtCache_refines_lru_capacityOne :
    ∃ c₀ c ps, stmtCacheCreate ℕ 1 = .ok c₀ ∧
      cacheRun (stmtCacheSetDestroyFn c₀ true)
          [.put (some ['a']) (some 7), .put (some ['b']) (some 8), .get (some ['a']),
            .get (some ['b']), .remove (some ['b'])] =
        some ([.status .ok [], .status .ok [7], .value none, .value (some 8), .value (some 8)], c) ∧
      WellFormed c ps := by
  obtain ⟨c, ps, e, hw, -⟩ := @stmtCache_refines_lru ℕ 1 _ rfl true
    [.put (some ['a']) (some 7), .put (some ['b']) (some 8), .get (some ['a']),
      .get (some ['b']), .remove (some ['b'])]
  exact ⟨_, c, ps, rfl, e, hw⟩

end Corm
