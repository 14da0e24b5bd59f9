import Corm.Sql.Where
import Mathlib.Logic.Function.Basic

/-!
# Definitions of tables

The statements CREATE TABLE IF NOT EXISTS, ALTER TABLE ADD COLUMN and CREATE INDEX IF NOT EXISTS, and
what they do to the schema of a database.

* `Ddl`, `readDdl`: a statement, and how its tokens are read;
* `Schema`, `Grows`: the tables with their columns, and the indexes; a schema that lost nothing;
* `DdlEngine.execute`: the meaning of a statement; the engine decides what it admits;
* `Session`, `exec`: statements one after the other, with a record of each;
* `Records`, **`Records.exec`**: what the record says about the columns of a schema.
-/

namespace Sql

/-! ## Statements -/

/-- A statement, up to the tokens `rest` whose meaning is left to the engine. -/
inductive Ddl
  | createTable (table : List Char) (rest : List Tok)
  | addColumn (table column : List Char) (rest : List Tok)
  | createIndex (index : List Char) (rest : List Tok)
  deriving DecidableEq

/-- Keywords, one after the other. -/
def keywords : List (List Char) → List Tok → Option (List Tok)
  | [], ts => some ts
  | k :: ks, .word w :: ts => if isKw k w then keywords ks ts else none
  | _ :: _, _ => none

/-- A name between quotes. -/
def quotedName : List Tok → Option (List Char × List Tok)
  | .quoted q s :: ts => if q = .single then none else some (s, ts)
  | _ => none

def readCreateTable (ts : List Tok) : Option Ddl := do
  let ts ← keywords ["CREATE".toList, "TABLE".toList, "IF".toList, "NOT".toList, "EXISTS".toList] ts
  let (t, ts) ← quotedName ts
  some (.createTable t ts)

def readAddColumn (ts : List Tok) : Option Ddl := do
  let ts ← keywords ["ALTER".toList, "TABLE".toList] ts
  let (t, ts) ← quotedName ts
  let ts ← keywords ["ADD".toList, "COLUMN".toList] ts
  let (c, ts) ← quotedName ts
  some (.addColumn t c ts)

def readCreateIndex (ts : List Tok) : Option Ddl := do
  let ts ← keywords ["CREATE".toList, "INDEX".toList, "IF".toList, "NOT".toList, "EXISTS".toList] ts
  let (i, ts) ← quotedName ts
  some (.createIndex i ts)

/-- Read a text. -/
def readDdl (δ : Dialect) (text : List Char) : Option Ddl := do
  let ts ← lex δ text
  readCreateTable ts <|> readAddColumn ts <|> readCreateIndex ts

/-- The names that the definitions of a table begin with, between parentheses `depth` deep; `start`
says that a definition begins here. A definition without a quoted name is a constraint. -/
def columnNamesFrom (depth : ℕ) (start : Bool) : List Tok → List (List Char)
  | [] => []
  | .sym c :: ts =>
    if c = '(' then columnNamesFrom (depth + 1) (depth == 0) ts
    else if c = ')' then columnNamesFrom (depth - 1) false ts
    else columnNamesFrom depth (c == ',' && depth == 1) ts
  | .quoted _ s :: ts => if start then s :: columnNamesFrom depth false ts
    else columnNamesFrom depth false ts
  | _ :: ts => columnNamesFrom depth false ts

/-- The columns of a table definition. -/
def columnNames (ts : List Tok) : List (List Char) := columnNamesFrom 0 false ts

/-! ## Schemas -/

/-- The columns of the tables, and the definitions of the indexes, under their names. -/
structure Schema where
  tables : List Char → Option (List (List Char))
  indexes : List Char → Option (List Tok)

namespace Schema

/-- The column stands in the table. -/
def Has (s : Schema) (table column : List Char) : Prop :=
  ∃ cols, s.tables table = some cols ∧ column ∈ cols

/-- Nothing was lost: tables may have more columns, and there may be more tables and indexes. -/
structure Grows (s s' : Schema) : Prop where
  tables : ∀ t cols, s.tables t = some cols → ∃ more, s'.tables t = some (cols ++ more)
  indexes : ∀ i d, s.indexes i = some d → s'.indexes i = some d

theorem Grows.refl (s : Schema) : Grows s s :=
  ⟨fun _ _ h => ⟨[], by rw [h, List.append_nil]⟩, fun _ _ h => h⟩

theorem Grows.trans {s s' s'' : Schema} (h : Grows s s') (h' : Grows s' s'') : Grows s s'' := by
  refine ⟨fun t cols ht => ?_, fun i d hi => h'.indexes i d (h.indexes i d hi)⟩
  obtain ⟨more, hmore⟩ := h.tables t cols ht
  obtain ⟨more', hmore'⟩ := h'.tables t _ hmore
  exact ⟨more ++ more', by rw [hmore', List.append_assoc]⟩

theorem Grows.has {s s' : Schema} (h : Grows s s') {t c : List Char} (hc : s.Has t c) :
    s'.Has t c := by
  obtain ⟨cols, ht, hmem⟩ := hc
  obtain ⟨more, hmore⟩ := h.tables t cols ht
  exact ⟨cols ++ more, hmore, List.mem_append_left _ hmem⟩

end Schema

/-! ## Meaning -/

/-- What databases do differently: the lexical rules, the name that a table or an index is kept under,
the columns that a table definition has, and which statements are executed. -/
structure DdlEngine where
  dialect : Dialect
  fold : List Char → List Char
  columns : List Tok → List (List Char)
  admits : Schema → Ddl → Bool

namespace DdlEngine

variable (E : DdlEngine)

/-- The schema after a statement; `none` when it is rejected. -/
def execute (s : Schema) : Ddl → Option Schema
  | .createTable t rest =>
    match s.tables (E.fold t) with
    | some _ => some s
    | none =>
      if E.admits s (.createTable t rest) then
        some { s with tables := Function.update s.tables (E.fold t) (some (E.columns rest)) }
      else none
  | .addColumn t c rest =>
    match s.tables (E.fold t) with
    | some cols =>
      if E.admits s (.addColumn t c rest) then
        some { s with tables := Function.update s.tables (E.fold t) (some (cols ++ [c])) }
      else none
    | none => none
  | .createIndex i rest =>
    match s.indexes (E.fold i) with
    | some _ => some s
    | none =>
      if E.admits s (.createIndex i rest) then
        some { s with indexes := Function.update s.indexes (E.fold i) (some rest) }
      else none

/-- The schema after a text; `none` when it cannot be read, or is rejected. -/
def run (s : Schema) (text : List Char) : Option Schema := (readDdl E.dialect text).bind (E.execute s)

variable {E} {s s' : Schema} {text : List Char}

theorem run_eq_some : E.run s text = some s' ↔
    ∃ d, readDdl E.dialect text = some d ∧ E.execute s d = some s' := by
  rw [run, Option.bind_eq_some_iff]

/-- A text that is read as `d`, with some tokens after it, is read as nothing else. -/
theorem eq_of_read {δ : Dialect} {d : List Tok → Ddl}
    (hread : ∃ rest : Option _, readDdl δ text = rest.map d) {e : Ddl}
    (h : readDdl δ text = some e) : ∃ rest, e = d rest := by
  obtain ⟨rest, hread⟩ := hread
  obtain ⟨us, -, hus⟩ := Option.map_eq_some_iff.mp (hread.symm.trans h)
  exact ⟨us, hus.symm⟩

theorem execute_of_run {d : List Tok → Ddl}
    (hread : ∃ rest : Option _, readDdl E.dialect text = rest.map d) (hrun : E.run s text = some s') :
    ∃ rest, readDdl E.dialect text = some (d rest) ∧ E.execute s (d rest) = some s' := by
  obtain ⟨e, he, hexec⟩ := run_eq_some.mp hrun
  obtain ⟨rest, rfl⟩ := eq_of_read hread he
  exact ⟨rest, he, hexec⟩

/-- **What a statement that is executed does**: nothing, or it adds a table, a column or an index. -/
theorem execute_cases {d : Ddl} (h : E.execute s d = some s') :
    (∃ t rest, d = .createTable t rest ∧ (∃ cols, s.tables (E.fold t) = some cols) ∧ s' = s) ∨
    (∃ t rest, d = .createTable t rest ∧ s.tables (E.fold t) = none ∧
      s' = { s with tables := Function.update s.tables (E.fold t) (some (E.columns rest)) }) ∨
    (∃ t c rest cols, d = .addColumn t c rest ∧ s.tables (E.fold t) = some cols ∧
      s' = { s with tables := Function.update s.tables (E.fold t) (some (cols ++ [c])) }) ∨
    (∃ i rest, d = .createIndex i rest ∧ (∃ e, s.indexes (E.fold i) = some e) ∧ s' = s) ∨
    (∃ i rest, d = .createIndex i rest ∧ s.indexes (E.fold i) = none ∧
      s' = { s with indexes := Function.update s.indexes (E.fold i) (some rest) }) := by
  cases d with
  | createTable t rest =>
    rw [execute] at h
    split at h
    · rename_i cols ht
      exact Or.inl ⟨t, rest, rfl, ⟨cols, ht⟩, (Option.some.inj h).symm⟩
    · rename_i ht
      split_ifs at h
      exact Or.inr (Or.inl ⟨t, rest, rfl, ht, (Option.some.inj h).symm⟩)
  | addColumn t c rest =>
    rw [execute] at h
    split at h
    · rename_i cols ht
      split_ifs at h
      exact Or.inr (Or.inr (Or.inl ⟨t, c, rest, cols, rfl, ht, (Option.some.inj h).symm⟩))
    · cases h
  | createIndex i rest =>
    rw [execute] at h
    split at h
    · rename_i e hi
      exact Or.inr (Or.inr (Or.inr (Or.inl ⟨i, rest, rfl, ⟨e, hi⟩, (Option.some.inj h).symm⟩)))
    · rename_i hi
      split_ifs at h
      exact Or.inr (Or.inr (Or.inr (Or.inr ⟨i, rest, rfl, hi, (Option.some.inj h).symm⟩)))

theorem execute_grows {d : Ddl} (h : E.execute s d = some s') : s.Grows s' := by
  obtain ⟨t, rest, -, -, rfl⟩ | ⟨t, rest, -, ht, rfl⟩ | ⟨t, c, rest, cols, -, ht, rfl⟩ |
    ⟨i, rest, -, -, rfl⟩ | ⟨i, rest, -, hi, rfl⟩ := execute_cases h
  · exact .refl _
  · refine ⟨fun u cols hu => ⟨[], ?_⟩, fun _ _ hi => hi⟩
    have hne : u ≠ E.fold t := by
      rintro rfl
      rw [ht] at hu
      cases hu
    rw [List.append_nil]
    exact (Function.update_of_ne hne _ _).trans hu
  · refine ⟨fun u cols' hu => ?_, fun _ _ hi => hi⟩
    by_cases hut : u = E.fold t
    · subst hut
      rw [ht] at hu
      obtain rfl := Option.some.inj hu
      exact ⟨[c], Function.update_self _ _ _⟩
    · refine ⟨[], ?_⟩
      rw [List.append_nil]
      exact (Function.update_of_ne hut _ _).trans hu
  · exact .refl _
  · refine ⟨fun u cols hu => ⟨[], by rw [List.append_nil]; exact hu⟩, fun j e hj => ?_⟩
    have hne : j ≠ E.fold i := by
      rintro rfl
      rw [hi] at hj
      cases hj
    exact (Function.update_of_ne hne _ _).trans hj

theorem execute_addColumn {t c : List Char} {rest : List Tok}
    (h : E.execute s (.addColumn t c rest) = some s') : ∃ cols,
      s.tables (E.fold t) = some cols ∧ s'.tables (E.fold t) = some (cols ++ [c]) := by
  rw [execute] at h
  split at h
  · rename_i cols ht
    split_ifs at h
    obtain rfl := Option.some.inj h
    exact ⟨cols, ht, Function.update_self _ _ _⟩
  · cases h

theorem execute_createTable {t : List Char} {rest : List Tok}
    (h : E.execute s (.createTable t rest) = some s') :
    ∃ cols, s'.tables (E.fold t) = some cols := by
  rw [execute] at h
  split at h
  · rename_i cols ht
    obtain rfl := Option.some.inj h
    exact ⟨cols, ht⟩
  · split_ifs at h
    obtain rfl := Option.some.inj h
    exact ⟨_, Function.update_self _ _ _⟩

theorem execute_createIndex {i : List Char} {rest : List Tok}
    (h : E.execute s (.createIndex i rest) = some s') : ∃ d, s'.indexes (E.fold i) = some d := by
  rw [execute] at h
  split at h
  · rename_i d hi
    obtain rfl := Option.some.inj h
    exact ⟨d, hi⟩
  · split_ifs at h
    obtain rfl := Option.some.inj h
    exact ⟨_, Function.update_self _ _ _⟩

theorem execute_createTable_exists {t : List Char} {cols : List (List Char)}
    (ht : s.tables (E.fold t) = some cols) (rest : List Tok) :
    E.execute s (.createTable t rest) = some s := by rw [execute, ht]

theorem execute_createIndex_exists {i : List Char} {d : List Tok}
    (hi : s.indexes (E.fold i) = some d) (rest : List Tok) :
    E.execute s (.createIndex i rest) = some s := by rw [execute, hi]

theorem execute_has {d : Ddl} (h : E.execute s d = some s') {t c : List Char}
    (ht : ∃ cols, s.tables t = some cols) (hc : s'.Has t c) :
    s.Has t c ∨ ∃ u rest, d = .addColumn u c rest ∧ E.fold u = t := by
  obtain ⟨cols, ht⟩ := ht
  obtain ⟨cols', ht', hmem⟩ := hc
  obtain ⟨u, rest, -, -, rfl⟩ | ⟨u, rest, -, hu, rfl⟩ | ⟨u, d, rest, cols₀, rfl, hu, rfl⟩ |
    ⟨i, rest, -, -, rfl⟩ | ⟨i, rest, -, -, rfl⟩ := execute_cases h
  · exact Or.inl ⟨cols', ht', hmem⟩
  · have hne : t ≠ E.fold u := by
      rintro rfl
      rw [ht] at hu
      cases hu
    exact Or.inl ⟨cols', (Function.update_of_ne hne _ _).symm.trans ht', hmem⟩
  · by_cases htu : t = E.fold u
    · subst htu
      have hcols := (Function.update_self _ _ _).symm.trans ht'
      rw [← Option.some.inj hcols, List.mem_append, List.mem_singleton] at hmem
      rcases hmem with hmem | rfl
      · exact Or.inl ⟨cols₀, hu, hmem⟩
      · exact Or.inr ⟨u, rest, rfl, rfl⟩
    · exact Or.inl ⟨cols', (Function.update_of_ne htu _ _).symm.trans ht', hmem⟩
  · exact Or.inl ⟨cols', ht', hmem⟩
  · exact Or.inl ⟨cols', ht', hmem⟩

end DdlEngine

/-! ## Sessions -/

/-- A request that was sent: the schema it met, and whether its text was executed. -/
structure Sent (R : Type) where
  before : Schema
  request : R
  ok : Bool

/-- A schema, and what has been sent. -/
structure Session (R : Type) where
  schema : Schema
  sent : List (Sent R)

namespace Session

variable {R : Type} (E : DdlEngine) (text : R → List Char)

/-- One more request, to a database that makes of a schema and a text what it does. -/
def push (run : Schema → List Char → Option Schema) (st : Session R) (r : R) : Session R :=
  match run st.schema (text r) with
  | some s => ⟨s, st.sent ++ [⟨st.schema, r, true⟩]⟩
  | none => ⟨st.schema, st.sent ++ [⟨st.schema, r, false⟩]⟩

/-- One more request, to an engine. -/
def exec (st : Session R) (r : R) : Session R := st.push text E.run r

/-- What the record says about the schema: it lost nothing since, every column that was added is
there, and no other column was added to a table that existed. -/
structure Records (st : Session R) : Prop where
  grows : ∀ e ∈ st.sent, e.before.Grows st.schema
  read : ∀ e ∈ st.sent, e.ok = true → ∃ d, readDdl E.dialect (text e.request) = some d
  added : ∀ e ∈ st.sent, e.ok = true → ∀ t c rest,
    readDdl E.dialect (text e.request) = some (.addColumn t c rest) → st.schema.Has (E.fold t) c
  traced : ∀ e ∈ st.sent, ∀ t c, (∃ cols, e.before.tables t = some cols) → st.schema.Has t c →
    e.before.Has t c ∨ ∃ e' ∈ st.sent, e'.ok = true ∧ ∃ u rest,
      readDdl E.dialect (text e'.request) = some (.addColumn u c rest) ∧ E.fold u = t

variable {E text} {st : Session R} {r : R}

theorem exec_some {s : Schema} (h : E.run st.schema (text r) = some s) :
    st.exec E text r = ⟨s, st.sent ++ [⟨st.schema, r, true⟩]⟩ := by rw [exec, push, h]

theorem exec_none (h : E.run st.schema (text r) = none) :
    st.exec E text r = ⟨st.schema, st.sent ++ [⟨st.schema, r, false⟩]⟩ := by rw [exec, push, h]

theorem exec_grows (st : Session R) (r : R) : st.schema.Grows (st.exec E text r).schema := by
  cases h : E.run st.schema (text r) with
  | some s =>
    obtain ⟨d, -, hd⟩ := DdlEngine.run_eq_some.mp h
    rw [exec_some h]
    exact DdlEngine.execute_grows hd
  | none =>
    rw [exec_none h]
    exact .refl _

theorem exec_sent (st : Session R) (r : R) :
    (st.exec E text r).sent =
      st.sent ++ [⟨st.schema, r, (E.run st.schema (text r)).isSome⟩] := by
  cases h : E.run st.schema (text r) with
  | some s => rw [exec_some h]; rfl
  | none => rw [exec_none h]; rfl

theorem Records.start (s : Schema) : Records E text ⟨s, []⟩ := by
  constructor <;> simp

theorem Records.exec_none (h : Records E text st) (hrun : E.run st.schema (text r) = none) :
    Records E text (st.exec E text r) := by
  rw [Session.exec_none hrun]
  refine ⟨?_, ?_, ?_, ?_⟩
  · rw [List.forall_mem_append, List.forall_mem_singleton]
    exact ⟨h.grows, .refl _⟩
  · rw [List.forall_mem_append, List.forall_mem_singleton]
    exact ⟨h.read, fun hok => by cases hok⟩
  · rw [List.forall_mem_append, List.forall_mem_singleton]
    exact ⟨h.added, fun hok => by cases hok⟩
  · rw [List.forall_mem_append, List.forall_mem_singleton]
    refine ⟨fun e he t c ht hc => ?_, fun t c _ hc => Or.inl hc⟩
    obtain hbefore | ⟨e', he', hadd⟩ := h.traced e he t c ht hc
    · exact Or.inl hbefore
    · exact Or.inr ⟨e', List.mem_append_left _ he', hadd⟩

theorem Records.exec_some (h : Records E text st) {s : Schema}
    (hrun : E.run st.schema (text r) = some s) : Records E text (st.exec E text r) := by
  obtain ⟨d, hread, hexec⟩ := DdlEngine.run_eq_some.mp hrun
  have hgrows := DdlEngine.execute_grows hexec
  -- a column that is not new was there before the request, or the request added it
  have hnew {t c : List Char} (ht : ∃ cols, st.schema.tables t = some cols) (hc : s.Has t c) :
      st.schema.Has t c ∨ ∃ e' ∈ st.sent ++ [⟨st.schema, r, true⟩], e'.ok = true ∧ ∃ u rest,
        readDdl E.dialect (text e'.request) = some (.addColumn u c rest) ∧ E.fold u = t := by
    refine (DdlEngine.execute_has hexec ht hc).imp_right ?_
    rintro ⟨u, rest, rfl, hu⟩
    exact ⟨_, List.mem_append_right _ (List.mem_singleton_self _), rfl, u, rest, hread, hu⟩
  rw [Session.exec_some hrun]
  refine ⟨?_, ?_, ?_, ?_⟩
  · rw [List.forall_mem_append, List.forall_mem_singleton]
    exact ⟨fun e he => (h.grows e he).trans hgrows, hgrows⟩
  · rw [List.forall_mem_append, List.forall_mem_singleton]
    exact ⟨h.read, fun _ => ⟨d, hread⟩⟩
  · rw [List.forall_mem_append, List.forall_mem_singleton]
    refine ⟨fun e he hok t c rest hr => hgrows.has (h.added e he hok t c rest hr), ?_⟩
    intro _ t c rest hr
    obtain rfl := Option.some.inj (hread.symm.trans hr)
    obtain ⟨cols, -, hcols⟩ := DdlEngine.execute_addColumn hexec
    exact ⟨_, hcols, by simp⟩
  · rw [List.forall_mem_append, List.forall_mem_singleton]
    refine ⟨fun e he t c ht hc => ?_, fun t c ht hc => hnew ht hc⟩
    obtain ⟨cols, hcols⟩ := ht
    obtain ⟨more, hmore⟩ := (h.grows e he).tables t cols hcols
    obtain hold | hadd := hnew ⟨_, hmore⟩ hc
    · obtain hbefore | ⟨e', he', hadd⟩ := h.traced e he t c ⟨cols, hcols⟩ hold
      · exact Or.inl hbefore
      · exact Or.inr ⟨e', List.mem_append_left _ he', hadd⟩
    · exact Or.inr hadd

/-- **One request** keeps what the record says. -/
theorem Records.exec (h : Records E text st) (r : R) : Records E text (st.exec E text r) := by
  cases hrun : E.run st.schema (text r) with
  | some s => exact h.exec_some hrun
  | none => exact h.exec_none hrun

end Session

end Sql
