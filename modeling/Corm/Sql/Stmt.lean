import Corm.Sql.Where

/-!
# Statements on tables

The statements INSERT, SELECT, UPDATE and DELETE on one table, and what they do to a database.

* `Stmt`, `parseStmt`: a statement, and how its items are read;
* `Database`: the rows of each table, in the order they were inserted;
* `Engine.select`, `Engine.execute`: the meaning of a statement. `Omitted` is the value the database
  gives to a column that an INSERT leaves out;
* `parse_insert`, `parse_select`, `parse_update`, `parse_delete`: reading each form.
-/

namespace Sql

variable {V : Type}

/-- A statement on one table. A missing WHERE is `none`. -/
inductive Stmt (V : Type)
  | insert (table : List Char) (cols : List (List Char)) (vals : List V)
  | select (table : List Char) (cond : Option (List (Item V)))
  | update (table : List Char) (sets : List (List Char × V)) (cond : Option (List (Item V)))
  | delete (table : List Char) (cond : Option (List (Item V)))
  deriving DecidableEq

/-! ## Reading -/

/-- The word `k`. -/
def keyword (k : List Char) : List (Item V) → Option (List (Item V))
  | .tok (.word w) :: is => if isKw k w then some is else none
  | _ => none

/-- A quoted name. -/
def name : List (Item V) → Option (List Char × List (Item V))
  | .tok (.quoted q s) :: is => if q = .single then none else some (s, is)
  | _ => none

/-- The symbol `c`. -/
def symbol (c : Char) : List (Item V) → Option (List (Item V))
  | .tok (.sym d) :: is => if c = d then some is else none
  | _ => none

/-- Names between commas, up to a closing parenthesis. -/
def names : List (Item V) → Option (List (List Char) × List (Item V))
  | .tok (.quoted q s) :: .tok (.sym c) :: is =>
    if q = .single then none
    else if c = ')' then some ([s], is)
    else if c = ',' then (names is).map fun r => (s :: r.1, r.2)
    else none
  | _ => none

/-- Values between commas, up to a closing parenthesis. -/
def vals : List (Item V) → Option (List V × List (Item V))
  | .val v :: .tok (.sym c) :: is =>
    if c = ')' then some ([v], is)
    else if c = ',' then (vals is).map fun r => (v :: r.1, r.2)
    else none
  | _ => none

/-- Assignments between commas. -/
def assigns : List (Item V) → Option (List (List Char × V) × List (Item V))
  | .tok (.quoted q s) :: .tok (.sym c) :: .val v :: is =>
    if q = .single || c ≠ '=' then none
    else match is with
      | .tok (.sym d) :: rest =>
        if d = ',' then (assigns rest).map fun r => ((s, v) :: r.1, r.2) else none
      | _ => some ([(s, v)], is)
  | _ => none

/-- An optional WHERE up to the end. -/
def whereClause (is : List (Item V)) : Option (Option (List (Item V))) :=
  if is.isEmpty then some none else (keyword "WHERE".toList is).map some

/-- The end of the statement, after an optional RETURNING. -/
def returning (is : List (Item V)) : Option Unit :=
  if is.isEmpty then some ()
  else do
    let is ← keyword "RETURNING".toList is
    let (_, is) ← name is
    if is.isEmpty then some () else none

def parseInsert (is : List (Item V)) : Option (Stmt V) := do
  let is ← keyword "INSERT".toList is
  let is ← keyword "INTO".toList is
  let (t, is) ← name is
  let is ← symbol '(' is
  let (cols, is) ← names is
  let is ← keyword "VALUES".toList is
  let is ← symbol '(' is
  let (vs, is) ← vals is
  returning is
  if cols.length = vs.length then some (.insert t cols vs) else none

def parseSelect (is : List (Item V)) : Option (Stmt V) := do
  let is ← keyword "SELECT".toList is
  let is ← keyword ['*'] is
  let is ← keyword "FROM".toList is
  let (t, is) ← name is
  let cond ← whereClause is
  some (.select t cond)

def parseUpdate (is : List (Item V)) : Option (Stmt V) := do
  let is ← keyword "UPDATE".toList is
  let (t, is) ← name is
  let is ← keyword "SET".toList is
  let (sets, is) ← assigns is
  let cond ← whereClause is
  some (.update t sets cond)

def parseDelete (is : List (Item V)) : Option (Stmt V) := do
  let is ← keyword "DELETE".toList is
  let is ← keyword "FROM".toList is
  let (t, is) ← name is
  let cond ← whereClause is
  some (.delete t cond)

/-- Read a statement. -/
def parseStmt (is : List (Item V)) : Option (Stmt V) :=
  parseInsert is <|> parseSelect is <|> parseUpdate is <|> parseDelete is

/-- Read a text with the values of its placeholders. -/
def readStmt (δ : Dialect) (text : List Char) (vs : List V) : Option (Stmt V) := do
  let ts ← lex δ text
  let is ← fill vs 0 ts
  parseStmt is

/-! ## Meaning -/

/-- The rows of each table. -/
abbrev Database (V : Type) := List Char → List (Row V)

/-- The value of a column that an INSERT into a table with these rows leaves out. -/
abbrev Omitted (V : Type) := List Char → List (Row V) → List Char → V

namespace Engine

variable (E : Engine V)

/-- The rows that a WHERE selects; `none` is a syntax error. -/
def selects : Option (List (Item V)) → Option (Row V → Bool)
  | none => some fun _ => true
  | some is => (parseWhere is).map E.holds

/-- The row an INSERT makes. -/
def newRow (cols : List (List Char)) (vs : List V) (rest : List Char → V) : Row V :=
  fun c => ((cols.zip vs).lookup c).getD (rest c)

/-- A row with the assignments made. -/
def assign (sets : List (List Char × V)) (r : Row V) : Row V := fun c => (sets.lookup c).getD (r c)

/-- The rows a SELECT returns. -/
def select (db : Database V) : Stmt V → Option (List (Row V))
  | .select t cond => (E.selects cond).map fun p => (db t).filter p
  | _ => none

/-- The database after an INSERT, UPDATE or DELETE. -/
def execute (omitted : Omitted V) (db : Database V) : Stmt V → Option (Database V)
  | .insert t cols vs =>
    some (Function.update db t (db t ++ [newRow cols vs (omitted t (db t))]))
  | .update t sets cond =>
    (E.selects cond).map fun p =>
      Function.update db t ((db t).map fun r => if p r then assign sets r else r)
  | .delete t cond =>
    (E.selects cond).map fun p => Function.update db t ((db t).filter fun r => !p r)
  | .select _ _ => none

end Engine

/-! ## The forms of the statements -/

/-- The item of a quoted name. -/
def nameItem (q : Quote) (s : List Char) : Item V := .tok (.quoted q s)

/-- The item of a symbol. -/
def symItem (c : Char) : Item V := .tok (.sym c)

/-- The item of a keyword. -/
def kwItem (k : String) : Item V := .tok (.word k.toList)

/-- WHERE and a condition, if there is one. -/
def whereItems : Option (List (Item V)) → List (Item V)
  | none => []
  | some is => kwItem "WHERE" :: is

theorem keyword_kwItem {k : String} (hk : isKw k.toList k.toList = true) (is : List (Item V)) :
    keyword k.toList (kwItem k :: is) = some is := if_pos hk

theorem whereClause_whereItems (cond : Option (List (Item V))) :
    whereClause (whereItems cond) = some cond := by
  cases cond with
  | none => rfl
  | some is => rfl

/-- Names between commas and a closing parenthesis. -/
def nameItems (q : Quote) : List (List Char) → List (Item V)
  | [] => []
  | [s] => [nameItem q s, symItem ')']
  | s :: ss => nameItem q s :: symItem ',' :: nameItems q ss

/-- Values between commas and a closing parenthesis. -/
def valItems : List V → List (Item V)
  | [] => []
  | [v] => [.val v, symItem ')']
  | v :: vs => .val v :: symItem ',' :: valItems vs

/-- Assignments between commas. -/
def assignItems (q : Quote) : List (List Char × V) → List (Item V)
  | [] => []
  | [s] => [nameItem q s.1, symItem '=', .val s.2]
  | s :: ss => nameItem q s.1 :: symItem '=' :: .val s.2 :: symItem ',' :: assignItems q ss

variable {q : Quote}

theorem name_nameItem (hq : q ≠ .single) (s : List Char) (is : List (Item V)) :
    name (nameItem q s :: is) = some (s, is) := if_neg hq

theorem symbol_symItem (c : Char) (is : List (Item V)) : symbol c (symItem c :: is) = some is :=
  if_pos rfl

theorem names_nameItems (hq : q ≠ .single) {ss : List (List Char)} (hne : ss ≠ [])
    (rest : List (Item V)) : names (nameItems q ss ++ rest) = some (ss, rest) := by
  induction ss with
  | nil => exact absurd rfl hne
  | cons s ss ih =>
    cases ss with
    | nil => simp [nameItems, nameItem, symItem, names, hq]
    | cons s' ss =>
      have hr := ih (by simp)
      have he : nameItems q (s :: s' :: ss) ++ rest =
          nameItem q s :: symItem ',' :: (nameItems q (s' :: ss) ++ rest) := rfl
      rw [he, nameItem, symItem, names]
      simp [hq, hr]

theorem vals_valItems {vs : List V} (hne : vs ≠ []) (rest : List (Item V)) :
    vals (valItems vs ++ rest) = some (vs, rest) := by
  induction vs with
  | nil => exact absurd rfl hne
  | cons v vs ih =>
    cases vs with
    | nil => simp [valItems, symItem, vals]
    | cons v' vs =>
      have hr := ih (by simp)
      have he : valItems (v :: v' :: vs) ++ rest =
          .val v :: symItem ',' :: (valItems (v' :: vs) ++ rest) := rfl
      rw [he, symItem, vals]
      simp [hr]

theorem assigns_assignItems (hq : q ≠ .single) {ss : List (List Char × V)} (hne : ss ≠ [])
    (cond : Option (List (Item V))) :
    assigns (assignItems q ss ++ whereItems cond) = some (ss, whereItems cond) := by
  induction ss with
  | nil => exact absurd rfl hne
  | cons s ss ih =>
    cases ss with
    | nil =>
      cases cond <;> simp [assignItems, nameItem, symItem, kwItem, whereItems, assigns, hq]
    | cons s' ss =>
      have hr := ih (by simp)
      have he : assignItems q (s :: s' :: ss) ++ whereItems cond =
          nameItem q s.1 :: symItem '=' :: .val s.2 :: symItem ',' ::
            (assignItems q (s' :: ss) ++ whereItems cond) := rfl
      rw [he, nameItem, symItem, symItem, assigns]
      simp [hq, hr]

theorem parse_select (hq : q ≠ .single) (t : List Char) (cond : Option (List (Item V))) :
    parseStmt (kwItem "SELECT" :: kwItem "*" :: kwItem "FROM" :: nameItem q t :: whereItems cond) =
      some (.select t cond) := by
  have hs : parseSelect (kwItem "SELECT" :: kwItem "*" :: kwItem "FROM" :: nameItem q t ::
      whereItems cond) = some (.select t cond) := by
    have hstar : keyword ['*'] (kwItem "*" :: kwItem "FROM" :: nameItem q t :: whereItems cond) =
        some (kwItem "FROM" :: nameItem q t :: whereItems cond) := rfl
    simp (disch := decide) only [parseSelect, keyword_kwItem, hstar, name_nameItem hq,
      whereClause_whereItems, Option.bind_eq_bind, Option.bind_some]
  rw [parseStmt, hs]
  rfl

theorem parse_update (hq : q ≠ .single) (t : List Char) {ss : List (List Char × V)}
    (hne : ss ≠ []) (cond : Option (List (Item V))) :
    parseStmt (kwItem "UPDATE" :: nameItem q t :: kwItem "SET" ::
      (assignItems q ss ++ whereItems cond)) = some (.update t ss cond) := by
  have hs : parseUpdate (kwItem "UPDATE" :: nameItem q t :: kwItem "SET" ::
      (assignItems q ss ++ whereItems cond)) = some (.update t ss cond) := by
    simp (disch := decide) only [parseUpdate, keyword_kwItem, name_nameItem hq,
      assigns_assignItems hq hne, whereClause_whereItems, Option.bind_eq_bind, Option.bind_some]
  rw [parseStmt, hs]
  rfl

theorem parse_delete (hq : q ≠ .single) (t : List Char) (cond : Option (List (Item V))) :
    parseStmt (kwItem "DELETE" :: kwItem "FROM" :: nameItem q t :: whereItems cond) =
      some (.delete t cond) := by
  have hs : parseDelete (kwItem "DELETE" :: kwItem "FROM" :: nameItem q t :: whereItems cond) =
      some (.delete t cond) := by
    simp (disch := decide) only [parseDelete, keyword_kwItem, name_nameItem hq,
      whereClause_whereItems, Option.bind_eq_bind, Option.bind_some]
  rw [parseStmt, hs]
  rfl

/-- An optional RETURNING. -/
def returningItems (q : Quote) : Option (List Char) → List (Item V)
  | none => []
  | some c => [kwItem "RETURNING", nameItem q c]

theorem returning_returningItems (hq : q ≠ .single) (c : Option (List Char)) :
    returning (returningItems (V := V) q c) = some () := by
  cases c with
  | none => rfl
  | some c =>
    rw [returningItems, returning, if_neg (by simp), keyword_kwItem (by decide)]
    simp only [name_nameItem hq, Option.bind_eq_bind, Option.bind_some]
    rfl

theorem parse_insert (hq : q ≠ .single) (t : List Char) {cols : List (List Char)} {vs : List V}
    (hne : cols ≠ []) (hlen : cols.length = vs.length) (c : Option (List Char)) :
    parseStmt (kwItem "INSERT" :: kwItem "INTO" :: nameItem q t :: symItem '(' ::
      (nameItems q cols ++ kwItem "VALUES" :: symItem '(' ::
        (valItems vs ++ returningItems q c))) = some (.insert t cols vs) := by
  have hvs : vs ≠ [] := by
    rintro rfl
    exact hne (List.length_eq_zero_iff.mp hlen)
  have hs : parseInsert (kwItem "INSERT" :: kwItem "INTO" :: nameItem q t :: symItem '(' ::
      (nameItems q cols ++ kwItem "VALUES" :: symItem '(' ::
        (valItems vs ++ returningItems q c))) = some (.insert t cols vs) := by
    simp (disch := decide) only [parseInsert, keyword_kwItem, name_nameItem hq, symbol_symItem,
      names_nameItems hq hne, vals_valItems hvs, returning_returningItems hq, Option.bind_eq_bind,
      Option.bind_some]
    exact if_pos hlen
  rw [parseStmt, hs]
  rfl

end Sql
