import Corm.Sql.Ddl
import Corm.Sql.Window

/-!
# The columns of a table definition

What stands between the commas of a CREATE TABLE, and the types that a database gives to columns.

* `pieces`, `columnDefs`: the definitions of a table, and the columns among them, each with the tokens
  that follow its name;
* `Closed.parens`: texts with parentheses;
* `isBreak`, `Ddl.Whole`: statements that end where their definitions do;
* `Types`, `Types.apply`: the columns of the tables with their types, after a statement;
* `typesAfter`: the types after what a session has executed, `Types.apply_keeps`: no column loses its
  type.
-/

namespace Sql

/-! ## Definitions -/

/-- The token between definitions. -/
def isComma (t : Tok) : Bool := decide (t = .sym ',')

/-- What stands between the commas outside of parentheses, before the parenthesis that closes the
definitions; `d` others are open. -/
def pieces : ℕ → List Tok → List (List Tok)
  | _, [] => [[]]
  | d, t :: ts =>
    if d = 0 ∧ isComma t = true then [] :: pieces 0 ts
    else match depthAfter d t with
      | some d' => (pieces d' ts).modifyHead (t :: ·)
      | none => [[]]

/-- The columns of a table definition, with what follows their names. A definition without a quoted
name is a constraint. -/
def columnDefs : List Tok → List (List Char × List Tok)
  | .sym c :: ts => if c = '(' then (pieces 0 ts).filterMap quotedName else []
  | _ => []

variable {d : ℕ} {t : Tok} {ts us a : List Tok} {stop : Tok → Bool}

theorem pieces_append (h : upTo isComma d ts = some (a, [])) (us : List Tok) :
    pieces d (ts ++ us) = (pieces 0 us).modifyHead (ts ++ ·) := by
  induction ts generalizing d a with
  | nil =>
    obtain ⟨rfl, -, -⟩ := upTo_nil_eq_some h
    show pieces 0 us = (pieces 0 us).modifyHead id
    rw [List.modifyHead_id, id]
  | cons t ts ih =>
    obtain ⟨-, -, hnil⟩ | ⟨d', a', ht, hd', hrest, -⟩ := upTo_cons_eq_some h
    · cases hnil
    · rw [List.cons_append, pieces, if_neg ht, hd']
      simp only
      rw [ih hrest, List.modifyHead_modifyHead]
      rfl

theorem pieces_comma (h : Closed isComma ts) (us : List Tok) :
    pieces 0 (ts ++ .sym ',' :: us) = ts :: pieces 0 us := by
  have hcomma : pieces 0 (.sym ',' :: us) = [] :: pieces 0 us := rfl
  rw [pieces_append h, hcomma, List.modifyHead_cons, List.append_nil]

theorem pieces_close (h : Closed isComma ts) (us : List Tok) :
    pieces 0 (ts ++ .sym ')' :: us) = [ts] := by
  have hclose : pieces 0 (.sym ')' :: us) = [[]] := rfl
  rw [pieces_append h, hclose, List.modifyHead_cons, List.append_nil]

/-! ## Parentheses -/

/-- No parenthesis. -/
def isFlat (t : Tok) : Bool := decide (t ≠ .sym '(' ∧ t ≠ .sym ')')

theorem depthAfter_flat (h : isFlat t = true) (d : ℕ) : depthAfter d t = some d := by
  simp only [isFlat, decide_eq_true_eq] at h
  cases t with
  | sym c =>
    have hopen : c ≠ '(' := fun heq => h.1 (by rw [heq])
    have hclose : c ≠ ')' := fun heq => h.2 (by rw [heq])
    rw [depthAfter, if_neg hopen, if_neg hclose]
  | _ => rfl

theorem upTo_flat (h : ∀ t ∈ ts, isFlat t = true) (d : ℕ) (us : List Tok) :
    upTo stop (d + 1) (ts ++ us) = (upTo stop (d + 1) us).map fun r => (ts ++ r.1, r.2) := by
  induction ts with
  | nil =>
    show upTo stop (d + 1) us = (upTo stop (d + 1) us).map id
    rw [Option.map_id, id]
  | cons t ts ih =>
    obtain ⟨ht, hts⟩ := List.forall_mem_cons.mp h
    rw [List.cons_append, upTo_cons (fun hzero => Nat.succ_ne_zero d hzero.1), depthAfter_flat ht,
      Option.bind_some, ih hts, Option.map_map]
    rfl

/-- **A text between parentheses** stops nothing. -/
theorem Closed.parens (h : ∀ t ∈ ts, isFlat t = true) (hopen : stop (.sym '(') = false) :
    Closed stop (.sym '(' :: ts ++ [Tok.sym ')']) := by
  have hclose : upTo stop 1 [.sym ')'] = some ([.sym ')'], []) := by
    rw [upTo_cons fun hzero => Nat.one_ne_zero hzero.1]
    rfl
  have hflat : upTo stop 1 (ts ++ [Tok.sym ')']) = _ := upTo_flat h 0 [.sym ')']
  rw [hclose, Option.map_some] at hflat
  rw [Closed, List.cons_append, upTo_cons fun hstop => by rw [hopen] at hstop; cases hstop.2]
  show (upTo stop 1 (ts ++ [Tok.sym ')'])).map _ = _
  rw [hflat]
  rfl

/-! ## Whole statements -/

/-- The token between statements. -/
def isSemicolon (t : Tok) : Bool := decide (t = .sym ';')

/-- A token that ends the definition of a column: what follows it is another definition, another
action or another statement, or the place that MySQL gives to the column. -/
def isBreak : Tok → Bool
  | .sym c => c == ',' || c == ';'
  | .word w => isKw "FIRST".toList w || isKw "AFTER".toList w
  | _ => false

theorem isBreak_comma (t : Tok) (h : isComma t = true) : isBreak t = true := by
  rw [of_decide_eq_true h]
  rfl

theorem isBreak_semicolon (t : Tok) (h : isSemicolon t = true) : isBreak t = true := by
  rw [of_decide_eq_true h]
  rfl

/-- The statement ends where its definition does: CREATE TABLE with the parenthesis that closes the
definitions, ALTER TABLE with the definition of one column, and each of them is the only one. -/
def Ddl.Whole : Ddl → Prop
  | .createTable _ rest => ∃ ts, rest = .sym '(' :: (ts ++ [Tok.sym ')']) ∧ Closed isSemicolon ts
  | .addColumn _ _ rest => ∃ ts, (rest = ts ∨ rest = ts ++ [Tok.sym ';']) ∧ Closed isBreak ts
  | .createIndex _ rest => Closed isSemicolon rest

/-! ## Types -/

/-- The columns of the tables, with their types. -/
abbrev Types (Ty : Type) := List Char → Option (List (List Char × Ty))

variable {Ty : Type} (fold : List Char → List Char) (typeOf : List Tok → Option Ty)

/-- The columns of a definition whose types are known. -/
def typedColumns (defs : List (List Char × List Tok)) : List (List Char × Ty) :=
  defs.filterMap fun p => (typeOf p.2).map fun ty => (p.1, ty)

/-- The types after a statement that is executed. -/
def Types.apply (T : Types Ty) : Ddl → Types Ty
  | .createTable t rest =>
    match T (fold t) with
    | some _ => T
    | none => Function.update T (fold t) (some (typedColumns typeOf (columnDefs rest)))
  | .addColumn t c rest =>
    match T (fold t) with
    | some cols =>
      Function.update T (fold t) (some (cols ++ ((typeOf rest).map fun ty => (c, ty)).toList))
    | none => T
  | .createIndex _ _ => T

/-- The types after the statements of a session that were executed. -/
def typesAfter {R : Type} (δ : Dialect) (text : R → List Char) (T : Types Ty)
    (sent : List (Sent R)) : Types Ty :=
  sent.foldl (fun T e =>
    if e.ok then (readDdl δ (text e.request)).elim T (T.apply fold typeOf) else T) T

variable {fold typeOf} {T : Types Ty}

theorem apply_createTable_new {t : List Char} (h : T (fold t) = none) (rest : List Tok) :
    T.apply fold typeOf (.createTable t rest) (fold t) =
      some (typedColumns typeOf (columnDefs rest)) := by
  rw [Types.apply, h]
  exact Function.update_self _ _ _

theorem apply_createTable_exists {t : List Char} {cols : List (List Char × Ty)}
    (h : T (fold t) = some cols) (rest : List Tok) :
    T.apply fold typeOf (.createTable t rest) = T := by rw [Types.apply, h]

theorem apply_addColumn {t : List Char} {cols : List (List Char × Ty)} (h : T (fold t) = some cols)
    (c : List Char) (rest : List Tok) : T.apply fold typeOf (.addColumn t c rest) (fold t) =
      some (cols ++ ((typeOf rest).map fun ty => (c, ty)).toList) := by
  rw [Types.apply, h]
  exact Function.update_self _ _ _

theorem apply_addColumn_none {t : List Char} (h : T (fold t) = none) (c : List Char)
    (rest : List Tok) : T.apply fold typeOf (.addColumn t c rest) = T := by rw [Types.apply, h]

/-- The table that a statement is about. -/
def Ddl.table : Ddl → Option (List Char)
  | .createTable t _ | .addColumn t _ _ => some t
  | .createIndex _ _ => none

theorem Types.apply_other {e : Ddl} {u : List Char} (h : ∀ t ∈ e.table, fold t ≠ u) :
    T.apply fold typeOf e u = T u := by
  cases e with
  | createTable t rest =>
    have hne : u ≠ fold t := (h t rfl).symm
    cases hT : T (fold t) with
    | some cols => rw [apply_createTable_exists hT]
    | none =>
      rw [Types.apply, hT]
      exact Function.update_of_ne hne _ _
  | addColumn t c rest =>
    have hne : u ≠ fold t := (h t rfl).symm
    cases hT : T (fold t) with
    | some cols =>
      rw [Types.apply, hT]
      exact Function.update_of_ne hne _ _
    | none => rw [apply_addColumn_none hT]
  | createIndex i rest => rfl

/-- **The columns of a table stay**, with their types; more may come after them. -/
theorem Types.apply_keeps {u : List Char} {cols : List (List Char × Ty)} (h : T u = some cols)
    (e : Ddl) : ∃ more, T.apply fold typeOf e u = some (cols ++ more) := by
  have hsame : T u = some (cols ++ []) := by rw [h, List.append_nil]
  by_cases hu : ∀ t ∈ e.table, fold t ≠ u
  · exact ⟨[], (Types.apply_other hu).trans hsame⟩
  · push Not at hu
    obtain ⟨t, ht, rfl⟩ := hu
    cases e with
    | createTable t rest =>
      obtain rfl := Option.some.inj ht
      rw [apply_createTable_exists h]
      exact ⟨[], hsame⟩
    | addColumn t c rest =>
      obtain rfl := Option.some.inj ht
      exact ⟨_, apply_addColumn h c rest⟩
    | createIndex i rest => cases ht

section Session

variable {R : Type} {E : DdlEngine} {text : R → List Char} {st : Session R}

theorem typesAfter_exec (r : R) :
    typesAfter fold typeOf E.dialect text T (st.exec E text r).sent =
      typesAfter fold typeOf E.dialect text T st.sent ∨
    ∃ e, readDdl E.dialect (text r) = some e ∧
      typesAfter fold typeOf E.dialect text T (st.exec E text r).sent =
        (typesAfter fold typeOf E.dialect text T st.sent).apply fold typeOf e := by
  unfold typesAfter
  rw [Session.exec_sent, List.foldl_append, List.foldl_cons, List.foldl_nil]
  split_ifs with hok
  · obtain ⟨s, hs⟩ := Option.isSome_iff_exists.mp hok
    obtain ⟨e, he, -⟩ := DdlEngine.run_eq_some.mp hs
    rw [he]
    exact Or.inr ⟨e, rfl, rfl⟩
  · exact Or.inl rfl

theorem typesAfter_exec_ok {r : R} {e : Ddl} (hread : readDdl E.dialect (text r) = some e)
    (hok : (E.run st.schema (text r)).isSome = true) :
    typesAfter fold typeOf E.dialect text T (st.exec E text r).sent =
      (typesAfter fold typeOf E.dialect text T st.sent).apply fold typeOf e := by
  unfold typesAfter
  rw [Session.exec_sent, List.foldl_append, List.foldl_cons, List.foldl_nil, if_pos hok, hread]
  rfl

end Session

end Sql
